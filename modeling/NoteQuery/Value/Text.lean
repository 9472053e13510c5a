import NoteQuery.Number.Reading
import NoteQuery.Number.Shortest
import NoteQuery.Text.Quoted
import NoteQuery.Value.Basic

/-!
# Values as text

The text of a value is what a tag, a metadata key or a title made of it reads. Inside containers texts
are quoted and dates are spelled out; at the top a text is itself.

An integer is written in no more digits than a numeral may have. One that is longer, as it may be read
from another base, has no text, and neither has a value that holds it.
-/

namespace NoteQuery.Value

/-- Bytes in quotes: printable ASCII as itself, all else by code. -/
def bytesShown (bs : List UInt8) : String :=
  let quote := if bs.contains 39 && !bs.contains 34 then '"' else '\''
  let shown (b : UInt8) : List Char :=
    let c := Char.ofNat b.toNat
    if c = quote || c = '\\' then ['\\', c]
    else if c = '\t' then ['\\', 't']
    else if c = '\n' then ['\\', 'n']
    else if c = '\r' then ['\\', 'r']
    else if 32 ≤ b && b < 127 then [c]
    else '\\' :: 'x' :: Text.hexDigits 2 b.toNat
  String.ofList ('b' :: quote :: bs.flatMap shown ++ [quote])

mutual

/-- A value as it is shown inside a container. -/
def shown : Value → String
  | .null => "None"
  | .bool b => if b then "True" else "False"
  | .int n => toString n
  | .float x => x.toText
  | .str s => Text.quoted s
  | .list xs => "[" ++ ", ".intercalate (shownAll xs) ++ "]"
  | .tuple [x] => "(" ++ shown x ++ ",)"
  | .tuple xs => "(" ++ ", ".intercalate (shownAll xs) ++ ")"
  | .map es => "\x7b" ++ ", ".intercalate (shownEntries es) ++ "\x7d"
  | .date d => Calendar.dateShown d
  | .datetime t => Calendar.dateTimeShown t
  | .bytes bs => bytesShown bs
  | .set [] => "set()"
  | .set xs => "\x7b" ++ ", ".intercalate (shownAll xs) ++ "\x7d"

/-- The values of a list, each as it is shown. -/
def shownAll : List Value → List String
  | [] => []
  | x :: xs => shown x :: shownAll xs

/-- The entries of a mapping, each as it is shown. -/
def shownEntries : List (Value × Value) → List String
  | [] => []
  | (k, v) :: es => (shown k ++ ": " ++ shown v) :: shownEntries es

end

/-- The text of a value. -/
def text : Value → CodeText
  | .str s => s
  | .date d => Calendar.dateText d
  | .datetime t => Calendar.dateTimeText t
  | v => shown v

mutual

/-- Whether a value has a text: no integer in it has more digits than are written. -/
def isWritable : Value → Bool
  | .int n => n.natAbs < Nat.pow 10 Number.mostDigits
  | .list xs => areWritable xs
  | .tuple xs => areWritable xs
  | .set xs => areWritable xs
  | .map es => areEntriesWritable es
  | _ => true

/-- Whether all values of a list have texts. -/
def areWritable : List Value → Bool
  | [] => true
  | x :: xs => isWritable x && areWritable xs

/-- Whether all keys and values of some entries have texts. -/
def areEntriesWritable : List (Value × Value) → Bool
  | [] => true
  | (k, v) :: es => isWritable k && isWritable v && areEntriesWritable es

end

end NoteQuery.Value
