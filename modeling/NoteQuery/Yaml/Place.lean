/-!
# Places in a YAML text

The structure of a YAML text is its indentation, so a reader keeps the line and column of the place where
it stands beside the text that is left. This module has the places and the classes of characters that
matter for the structure.
-/

namespace NoteQuery.Yaml

/-! ## Classes of characters -/

/-- Whether a character breaks a line. -/
def isBreak (c : Char) : Bool :=
  c == '\n' || c == '\r' || c == '\x85' || c == '\u2028' || c == '\u2029'

/-- Whether a character is a space, a tab or breaks a line. -/
def isGap (c : Char) : Bool := c == ' ' || c == '\t' || isBreak c

/-- Whether the text has ended, or a gap follows. -/
def gapAt (cs : List Char) : Bool := cs.head?.all isGap

/-- Whether the text or the line has ended. -/
def breakAt (cs : List Char) : Bool := cs.head?.all isBreak

/-- Whether the text or the line has ended, or a space follows. -/
def spaceAt (cs : List Char) : Bool := cs.head?.all fun c ↦ c == ' ' || isBreak c

/-- Whether a text can be read at all: no control but the tab, the line feed, the carriage return and the
next-line control, and no code that is set aside. -/
def isReadable (c : Char) : Bool :=
  let n := c.toNat
  n == 9 || n == 10 || n == 13 || (32 ≤ n && n ≤ 126) || n == 0x85 || (0xA0 ≤ n && n ≤ 0xD7FF) ||
    (0xE000 ≤ n && n ≤ 0xFFFD) || 0x10000 ≤ n

/-- Whether a character may stand in an anchor, a directive or a tag handle. -/
def isNameChar (c : Char) : Bool := c.isAlphanum || c == '-' || c == '_'

/-! ## Places -/

/-- A place in a text. -/
structure Place where
  /-- The text that is left. -/
  rest : List Char
  /-- The number of characters before the place. -/
  index : Nat
  /-- The number of lines before the place. -/
  line : Nat
  /-- The number of characters before the place in its line. -/
  column : Nat
deriving Repr

namespace Place

/-- The first place of a text. -/
def start (cs : List Char) : Place := ⟨cs, 0, 0, 0⟩

/-- The next character. -/
def peek (p : Place) : Option Char := p.rest.head?

/-- The place after the next character. A byte-order mark takes no column, and a carriage return before a
line feed does not end the line. -/
def step (p : Place) : Place :=
  match p.rest with
  | [] => p
  | c :: rest =>
    if isBreak c && !(c == '\r' && rest.head? == some '\n') then ⟨rest, p.index + 1, p.line + 1, 0⟩
    else ⟨rest, p.index + 1, p.line, if c == '\uFEFF' then p.column else p.column + 1⟩

/-- The place after `n` more characters. -/
def skip (p : Place) : Nat → Place
  | 0 => p
  | n + 1 => p.step.skip n

/-- The characters of a class from a place on, and the place after them. -/
def span (p : Place) (cls : Char → Bool) : List Char × Place :=
  let run := p.rest.takeWhile cls
  (run, p.skip run.length)

/-- The place after the characters of a class. -/
def skipWhile (p : Place) (cls : Char → Bool) : Place := (p.span cls).2

/-- The place after a line break, and what the break counts as: a line feed, unless it is one of the two
separators that stand for themselves. -/
def takeBreak? (p : Place) : Option (Char × Place) :=
  match p.rest with
  | '\r' :: '\n' :: _ => some ('\n', p.skip 2)
  | c :: _ =>
    if isBreak c then some (if c == '\u2028' || c == '\u2029' then c else '\n', p.step) else none
  | [] => none

/-- The place after a line break, if there is one. -/
def skipBreak (p : Place) : Place := ((p.takeBreak?).map Prod.snd).getD p

/-- Whether a marker of document ends stands here: three hyphens or three points and a gap. -/
def atDocumentMarker (p : Place) : Bool :=
  match p.rest with
  | '-' :: '-' :: '-' :: rest => gapAt rest
  | '.' :: '.' :: '.' :: rest => gapAt rest
  | _ => false

/-- The place after spaces and after a comment, if one follows them. -/
def skipComment (p : Place) : Place :=
  let q := p.skipWhile (· == ' ')
  if q.peek == some '#' then q.skipWhile (!isBreak ·) else q

/-- The place after spaces, a comment and the end of the line, if nothing else stands in the line. -/
def skipLine? (p : Place) : Option Place :=
  let q := p.skipComment
  if breakAt q.rest then some q.skipBreak else none

end Place

end NoteQuery.Yaml
