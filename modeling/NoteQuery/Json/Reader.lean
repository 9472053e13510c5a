import NoteQuery.Json.Basic
import NoteQuery.Number.Reading

/-!
# Reading JSON

A text is one value with blanks around it. Beside the standard, the words `NaN`, `Infinity` and
`-Infinity` are numbers. Controls below the space may not stand in a string unescaped. The halves of a
character are that character if both are written by their codes, one right behind the other; any other half
stays one. An object that repeats a key keeps the place of the first and the value of the last.

The readers take what is left of the text and give back the value with what is left after it. Values
nest, so the reader of values goes down on a count of the steps it may take; every two steps use up a
character, so twice the length of the text is enough.
-/

namespace NoteQuery.Json

open CodePoint (char)

/-! ## Leaves -/

/-- A blank between the parts of a value. -/
def isSpace (c : Char) : Bool := c == ' ' || c == '\t' || c == '\n' || c == '\r'

/-- Whether a code point is a blank between the parts of a value. -/
def isSpaceCode : CodePoint → Bool
  | .char c => isSpace c
  | .half _ => false

/-- The text without leading blanks. -/
def skipSpace (cs : List CodePoint) : List CodePoint := cs.dropWhile isSpaceCode

/-- The value of a digit in base sixteen. -/
def hexValue? (c : Char) : Option Nat :=
  if c.isDigit then some (c.toNat - 48)
  else if 'a' ≤ c && c ≤ 'f' then some (c.toNat - 87)
  else if 'A' ≤ c && c ≤ 'F' then some (c.toNat - 55) else none

/-- The number of four digits in base sixteen. -/
def hexQuad? (a b c d : Char) : Option Nat := do
  return (((← hexValue? a) * 16 + (← hexValue? b)) * 16 + (← hexValue? c)) * 16 + (← hexValue? d)

/-- The character a backslash and a letter stand for. -/
def simpleEscape? : Char → Option Char
  | '"' => some '"'
  | '\\' => some '\\'
  | '/' => some '/'
  | 'b' => some '\x08'
  | 'f' => some '\x0c'
  | 'n' => some '\n'
  | 'r' => some '\r'
  | 't' => some '\t'
  | _ => none

/-- A code point in a string, as it is written. -/
structure Piece where
  /-- The code point. -/
  code : CodePoint
  /-- Whether it is written by its code. -/
  byCode : Bool

/-- The pieces of a string after its opening quote, and what follows the closing one. -/
def readPieces : List CodePoint → Option (List Piece × List CodePoint)
  | [] => none
  | char '"' :: rest => some ([], rest)
  | char '\\' :: char 'u' :: char a :: char b :: char c :: char d :: rest => do
    let code ← hexQuad? a b c d
    let (pieces, rest) ← readPieces rest
    return (⟨.ofCode code, true⟩ :: pieces, rest)
  | char '\\' :: char e :: rest => do
    let c ← simpleEscape? e
    let (pieces, rest) ← readPieces rest
    return (⟨c, false⟩ :: pieces, rest)
  | p :: rest =>
    if p.code < 32 || p = char '\\' then none
    else do
      let (pieces, rest) ← readPieces rest
      return (⟨p, false⟩ :: pieces, rest)

/-- The code points of a string: halves of one character that are written by their codes are put together. -/
def joinHalves : List Piece → List CodePoint
  | [] => []
  | high :: low :: rest =>
    match if high.byCode && low.byCode then high.code.joined? low.code else none with
    | some c => char c :: joinHalves rest
    | none => high.code :: joinHalves (low :: rest)
  | [piece] => [piece.code]

/-- A string after its opening quote, and what follows the closing one. -/
def readString (cs : List CodePoint) : Option (CodeText × List CodePoint) :=
  (readPieces cs).map fun (pieces, rest) ↦ (⟨joinHalves pieces⟩, rest)

/-! ## Numbers -/

/-- The digits at the front of a text, and the rest. -/
def spanDigits (cs : List Char) : List Char × List Char := cs.span Char.isDigit

/-- The whole part of a number: a zero, or digits that do not begin with one. -/
def readWhole : List Char → Option (List Char × List Char)
  | '0' :: rest => some (['0'], rest)
  | cs =>
    let (digits, rest) := spanDigits cs
    if digits.isEmpty then none else some (digits, rest)

/-- The fraction of a number, if a point and a digit follow. -/
def readFraction (cs : List Char) : Option (List Char) × List Char :=
  match cs with
  | '.' :: rest =>
    let (digits, after) := spanDigits rest
    if digits.isEmpty then (none, cs) else (some digits, after)
  | _ => (none, cs)

/-- The exponent of a number, if the letter, perhaps a sign, and a digit follow. -/
def readExponent (cs : List Char) : Option Int × List Char :=
  match cs with
  | c :: rest =>
    if c = 'e' || c = 'E' then
      let (negative, body) := Number.splitSign rest
      let (digits, after) := spanDigits body
      match Number.digits? 10 digits with
      | some n => (some (if negative then -(n : Int) else n), after)
      | none => (none, cs)
    else (none, cs)
  | [] => (none, cs)

/-- A number after its sign. Without fraction and exponent it is an integer. -/
def readNumber (negative : Bool) (cs : List Char) : Option (Json × List Char) :=
  (readWhole cs).bind fun (whole, rest) ↦
    let (fraction, rest) := readFraction rest
    let (exponent, rest) := readExponent rest
    let digits := whole ++ fraction.getD []
    (Number.digitsFrom 10 0 digits).bind fun n ↦
      if fraction.isNone && exponent.isNone then
        if Number.mostDigits < whole.length then none
        else some (.int (if negative then -(n : Int) else n), rest)
      else some (.float (.ofDecimal negative n (exponent.getD 0 - (fraction.getD []).length)), rest)

/-! ## Values -/

/-- What follows a word at the front of a text. -/
def dropWord? : List Char → List Char → Option (List Char)
  | [], cs => some cs
  | w :: ws, c :: cs => if w = c then dropWord? ws cs else none
  | _ :: _, [] => none

/-- A value that is a word or a number. -/
def readScalar (cs : List Char) : Option (Json × List Char) :=
  match cs with
  | 'n' :: _ => (dropWord? "null".toList cs).map (.null, ·)
  | 't' :: _ => (dropWord? "true".toList cs).map (.bool true, ·)
  | 'f' :: _ => (dropWord? "false".toList cs).map (.bool false, ·)
  | 'N' :: _ => (dropWord? "NaN".toList cs).map (.float .nan, ·)
  | 'I' :: _ => (dropWord? "Infinity".toList cs).map (.float (.infinite false), ·)
  | '-' :: 'I' :: _ => (dropWord? "-Infinity".toList cs).map (.float (.infinite true), ·)
  | '-' :: rest => readNumber true rest
  | _ => readNumber false cs

/-- Whether a character ends a word or a number at the latest. -/
def isDelimiter (c : Char) : Bool := isSpace c || c == ',' || c == ']' || c == '\x7d'

/-- The characters up to one that ends a word or a number, and what follows them. -/
def spanLeaf : List CodePoint → List Char × List CodePoint
  | .char c :: rest =>
    if isDelimiter c then ([], char c :: rest)
    else
      let (leaf, behind) := spanLeaf rest
      (c :: leaf, behind)
  | cs => ([], cs)

/-- A word or a number at the front of a text. -/
def readLeaf (cs : List CodePoint) : Option (Json × List CodePoint) :=
  (readScalar (spanLeaf cs).1).map fun (j, rest) ↦ (j, rest.map char ++ (spanLeaf cs).2)

mutual

/-- A value at the front of a text. -/
def readValue : (fuel : Nat) → List CodePoint → Option (Json × List CodePoint)
  | 0, _ => none
  | fuel + 1, cs =>
    match cs with
    | char '"' :: rest => (readString rest).map fun (s, rest) ↦ (.str s, rest)
    | char '[' :: rest =>
      match skipSpace rest with
      | char ']' :: after => some (.arr [], after)
      | inner => (readItems fuel inner).map fun (xs, after) ↦ (.arr xs, after)
    | char '\x7b' :: rest =>
      match skipSpace rest with
      | char '\x7d' :: after => some (.obj [], after)
      | inner => (readEntries fuel inner).map fun (es, after) ↦ (.obj (mergeEntries es), after)
    | _ => readLeaf cs

/-- The items of an array up to its closing bracket. -/
def readItems : (fuel : Nat) → List CodePoint → Option (List Json × List CodePoint)
  | 0, _ => none
  | fuel + 1, cs =>
    match readValue fuel cs with
    | none => none
    | some (x, rest) =>
      match skipSpace rest with
      | char ']' :: after => some ([x], after)
      | char ',' :: more => (readItems fuel (skipSpace more)).map fun (xs, after) ↦ (x :: xs, after)
      | _ => none

/-- The entries of an object up to its closing brace. -/
def readEntries : (fuel : Nat) → List CodePoint → Option (List (CodeText × Json) × List CodePoint)
  | 0, _ => none
  | fuel + 1, cs =>
    match cs with
    | char '"' :: rest =>
      match readString rest with
      | none => none
      | some (k, rest) =>
        match skipSpace rest with
        | char ':' :: rest =>
          match readValue fuel (skipSpace rest) with
          | none => none
          | some (v, rest) =>
            match skipSpace rest with
            | char '\x7d' :: after => some ([(k, v)], after)
            | char ',' :: more => (readEntries fuel (skipSpace more)).map fun (es, after) ↦ ((k, v) :: es, after)
            | _ => none
        | _ => none
    | _ => none

end

/-- The value that a text is, if it is one. -/
def parse? (t : CodeText) : Option Json :=
  let cs := t.codes
  match readValue (2 * cs.length + 2) (skipSpace cs) with
  | some (j, rest) => if (skipSpace rest).isEmpty then some j else none
  | none => none

end NoteQuery.Json
