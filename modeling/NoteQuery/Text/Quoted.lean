import NoteQuery.Text.Alphabet.Printable
import NoteQuery.Text.CodePoint

/-!
# Quoted text in messages

A text shown inside a message stands in single quotes, or in double quotes when it holds a single quote
and no double one. The quote itself and the backslash are escaped by a backslash, the three common
controls by letter, and every other character that does not print by its code in two, four or eight
hexadecimal digits. Halves of characters do not print.
-/

namespace NoteQuery.Text

/-- One digit of a number in base sixteen, in lower case. -/
def hexDigit (n : Nat) : Char := if n < 10 then Char.ofNat (48 + n) else Char.ofNat (87 + n)

/-- The last `width` digits of a number in base sixteen. -/
def hexDigits : (width : Nat) → (n : Nat) → List Char
  | 0, _ => []
  | width + 1, n => hexDigits width (n / 16) ++ [hexDigit (n % 16)]

/-- Whether a character is shown as itself. -/
def isPrintable (c : Char) : Bool := printableRanges.contains c.toNat

/-- A character that does not print, by its code. -/
def escapeCode (n : Nat) : List Char :=
  if n < 0x100 then '\\' :: 'x' :: hexDigits 2 n
  else if n < 0x10000 then '\\' :: 'u' :: hexDigits 4 n
  else '\\' :: 'U' :: hexDigits 8 n

/-- One character inside the quotes `quote`. -/
def quoteChar (quote c : Char) : List Char :=
  if c = quote || c = '\\' then ['\\', c]
  else if c = '\n' then ['\\', 'n']
  else if c = '\r' then ['\\', 'r']
  else if c = '\t' then ['\\', 't']
  else if isPrintable c then [c]
  else escapeCode c.toNat

/-- The quotes in which a text is shown. -/
def quoteFor (cs : List Char) : Char := if cs.contains '\'' && !cs.contains '"' then '"' else '\''

/-- One code point inside the quotes `quote`. -/
def quoteCode (quote : Char) : CodePoint → List Char
  | .char c => quoteChar quote c
  | .half h => escapeCode (CodePoint.half h).code

/-- A text in quotes. -/
def quoted (t : CodeText) : String :=
  let quote := quoteFor t.characters
  String.ofList (quote :: t.codes.flatMap (quoteCode quote) ++ [quote])

/-- One code point on a console. -/
def consoleCode : CodePoint → List Char
  | .char c => [c]
  | .half h => escapeCode (CodePoint.half h).code

/-- A text as a console shows it: halves by their codes. -/
def escaped (t : CodeText) : String := String.ofList (t.codes.flatMap consoleCode)

end NoteQuery.Text
