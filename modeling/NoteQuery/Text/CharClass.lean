import NoteQuery.Text.Alphabet.Identifier
import NoteQuery.Text.Alphabet.Word
import NoteQuery.Text.Blank

/-!
# Character classes

Word characters, decimal digits and identifiers. The Unicode classes are read off the tables; the
ASCII ones are what remains of them below U+0080.
-/

namespace NoteQuery.Text

/-- A letter, a number or the low line. -/
def isWordChar (c : Char) : Bool := alphanumericRanges.contains c.toNat || c == '_'

/-- A decimal digit of any script. -/
def isDecimal (c : Char) : Bool := decimalRanges.contains c.toNat

/-- The value of a decimal digit: its place in its run of ten. -/
def decimalValue? (c : Char) : Option Nat :=
  (decimalRanges.find? fun range ↦ range.1 ≤ c.toNat && c.toNat ≤ range.2).map fun range ↦
    (c.toNat - range.1) % 10

/-- A word character of the ASCII range. -/
def isAsciiWordChar (c : Char) : Bool := c.isAlphanum || c == '_'

/-- A blank of the ASCII range: the space and the controls U+0009 to U+000D. -/
def isAsciiBlank (c : Char) : Bool := c == ' ' || (9 ≤ c.toNat && c.toNat ≤ 13)

/-- Whether a name is an identifier: a starting character, then continuing ones. -/
def isIdentifier : List Char → Bool
  | [] => false
  | c :: rest =>
    identifierStartRanges.contains c.toNat && rest.all fun d ↦ identifierPartRanges.contains d.toNat

end NoteQuery.Text
