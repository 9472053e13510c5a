import NoteQuery.Json.Basic

/-!
# Writing JSON

Three layouts. The compact one has no blanks. The spaced one has a blank behind every comma and colon. The
indented one puts every item on a line of its own, two spaces deeper than its container, and leaves empty
containers closed up. Code points beyond ASCII stand as themselves in all of them, halves of characters among
them; only the quote, the backslash and the controls below the space are escaped. The spaced layout may also
be kept to ASCII; then all other code points are escaped too, those beyond sixteen bits as two halves.
-/

namespace NoteQuery.Json

open CodePoint (char)

/-! ## Text -/

/-- One character inside quotes. -/
def escapeChar (c : Char) : List Char :=
  if c = '"' then ['\\', '"']
  else if c = '\\' then ['\\', '\\']
  else if c = '\n' then ['\\', 'n']
  else if c = '\r' then ['\\', 'r']
  else if c = '\t' then ['\\', 't']
  else if c = '\x08' then ['\\', 'b']
  else if c = '\x0c' then ['\\', 'f']
  else if c.toNat < 32 then '\\' :: 'u' :: Text.hexDigits 4 c.toNat
  else [c]

/-- One code point inside quotes. -/
def escapeCode : CodePoint → List CodePoint
  | .char c => (escapeChar c).map char
  | .half h => [.half h]

/-- A text in quotes. -/
def quoteCodes (t : CodeText) : List CodePoint := char '"' :: t.codes.flatMap escapeCode ++ [char '"']

/-- An integer in digits. -/
def intChars (n : Int) : List Char :=
  if n < 0 then '-' :: Nat.toDigits 10 n.natAbs else Nat.toDigits 10 n.natAbs

/-! ## The compact layout -/

mutual

/-- The compact text of a value. -/
def compactCodes : Json → List CodePoint
  | .null => ['n', 'u', 'l', 'l']
  | .bool true => ['t', 'r', 'u', 'e']
  | .bool false => ['f', 'a', 'l', 's', 'e']
  | .int n => (intChars n).map char
  | .float x => (floatText x).toList.map char
  | .str s => quoteCodes s
  | .arr xs => char '[' :: compactItems xs ++ [char ']']
  | .obj es => char '\x7b' :: compactEntries es ++ [char '\x7d']

/-- The items of an array, commas between them. -/
def compactItems : List Json → List CodePoint
  | [] => []
  | [x] => compactCodes x
  | x :: y :: xs => compactCodes x ++ char ',' :: compactItems (y :: xs)

/-- The entries of an object, commas between them. -/
def compactEntries : List (CodeText × Json) → List CodePoint
  | [] => []
  | [(k, v)] => quoteCodes k ++ char ':' :: compactCodes v
  | (k, v) :: e :: es => quoteCodes k ++ char ':' :: compactCodes v ++ char ',' :: compactEntries (e :: es)

end

/-- The compact text of a value. -/
def compact (j : Json) : CodeText := ⟨compactCodes j⟩

/-! ## The spaced layout -/

/-- The code of a character, in two halves if it has more than sixteen bits. -/
def codeUnits (code : Nat) : List Nat :=
  if code < 0x10000 then [code]
  else [0xD800 + (code - 0x10000) / 1024, 0xDC00 + (code - 0x10000) % 1024]

/-- One code point inside quotes, where `ascii` says whether the text is kept to ASCII. -/
def escapeWithin (ascii : Bool) (p : CodePoint) : List CodePoint :=
  if ascii && 127 ≤ p.code then
    (codeUnits p.code).flatMap fun unit ↦ ('\\' :: 'u' :: Text.hexDigits 4 unit).map char
  else escapeCode p

/-- A text in quotes, kept to ASCII or not. -/
def quoteWithin (ascii : Bool) (t : CodeText) : List CodePoint :=
  char '"' :: t.codes.flatMap (escapeWithin ascii) ++ [char '"']

mutual

/-- The spaced text of a value, kept to ASCII or not. -/
def spacedCodes (ascii : Bool) : Json → List CodePoint
  | .str s => quoteWithin ascii s
  | .arr xs => char '[' :: spacedItems ascii xs ++ [char ']']
  | .obj es => char '\x7b' :: spacedEntries ascii es ++ [char '\x7d']
  | j => compactCodes j

/-- The items of an array, a comma and a blank between them. -/
def spacedItems (ascii : Bool) : List Json → List CodePoint
  | [] => []
  | [x] => spacedCodes ascii x
  | x :: y :: xs => spacedCodes ascii x ++ char ',' :: char ' ' :: spacedItems ascii (y :: xs)

/-- The entries of an object, a comma and a blank between them. -/
def spacedEntries (ascii : Bool) : List (CodeText × Json) → List CodePoint
  | [] => []
  | [(k, v)] => quoteWithin ascii k ++ char ':' :: char ' ' :: spacedCodes ascii v
  | (k, v) :: e :: es =>
    quoteWithin ascii k ++ char ':' :: char ' ' :: spacedCodes ascii v ++
      char ',' :: char ' ' :: spacedEntries ascii (e :: es)

end

/-- The spaced text of a value, kept to ASCII or not. -/
def spaced (ascii : Bool) (j : Json) : CodeText := ⟨spacedCodes ascii j⟩

/-! ## The indented layout -/

/-- A line end and the indentation of a depth. -/
def newLine (depth : Nat) : List CodePoint := char '\n' :: List.replicate (2 * depth) (char ' ')

mutual

/-- The indented text of a value that stands at a depth. -/
def indentedCodes (depth : Nat) : Json → List CodePoint
  | .arr [] => ['[', ']']
  | .arr (x :: xs) =>
    char '[' :: newLine (depth + 1) ++ indentedCodes (depth + 1) x ++ indentedItems (depth + 1) xs ++
      newLine depth ++ [char ']']
  | .obj [] => ['\x7b', '\x7d']
  | .obj ((k, v) :: es) =>
    char '\x7b' :: newLine (depth + 1) ++ quoteCodes k ++ char ':' :: char ' ' :: indentedCodes (depth + 1) v ++
      indentedEntries (depth + 1) es ++ newLine depth ++ [char '\x7d']
  | j => compactCodes j

/-- The items after the first, each on a line of its own. -/
def indentedItems (depth : Nat) : List Json → List CodePoint
  | [] => []
  | x :: xs => char ',' :: newLine depth ++ indentedCodes depth x ++ indentedItems depth xs

/-- The entries after the first, each on a line of its own. -/
def indentedEntries (depth : Nat) : List (CodeText × Json) → List CodePoint
  | [] => []
  | (k, v) :: es =>
    char ',' :: newLine depth ++ quoteCodes k ++ char ':' :: char ' ' :: indentedCodes depth v ++
      indentedEntries depth es

end

/-- The indented text of a value. -/
def indented (j : Json) : CodeText := ⟨indentedCodes 0 j⟩

end NoteQuery.Json
