import NoteQuery.Calendar
import NoteQuery.Number.Binary64
import NoteQuery.Text.CodePoint

/-!
# Metadata values

The front matter of a note, a settings file and the attributes of a record hold values of one dynamic
type. A mapping keeps its entries in the order in which their keys first came and is a list of pairs;
`NoteQuery.Value.Mapping` has its operations and the equality of keys.
-/

namespace NoteQuery

/-- A metadata value. -/
inductive Value
  /-- No value. -/
  | null
  /-- A truth value. -/
  | bool (b : Bool)
  /-- An integer of any size. -/
  | int (n : Int)
  /-- A number with a fraction. -/
  | float (x : Binary64)
  /-- A text. -/
  | str (s : CodeText)
  /-- A list. -/
  | list (items : List Value)
  /-- A list that cannot be changed, and can be a key. -/
  | tuple (items : List Value)
  /-- A mapping, in the order of its keys. -/
  | map (entries : List (Value × Value))
  /-- A date. -/
  | date (d : Date)
  /-- A date with a time of day. -/
  | datetime (t : DateTime)
  /-- Raw bytes. -/
  | bytes (bs : List UInt8)
  /-- A set, in the order of insertion. -/
  | set (items : List Value)
deriving Repr, Inhabited

/-- A mapping of values, in the order in which its keys first came. -/
abbrev Mapping := List (Value × Value)

namespace Value

/-- Whether a value counts as filled: all do but nothing, falsehood, zeros and what is empty. -/
def isFilled : Value → Bool
  | null => false
  | bool b => b
  | int n => n != 0
  | float (.finite _ m _) => m != 0
  | float _ => true
  | str s => !s.isEmpty
  | list xs | tuple xs | set xs => !xs.isEmpty
  | map es => !es.isEmpty
  | bytes bs => !bs.isEmpty
  | date _ | datetime _ => true

/-- The name of a value's type, as messages give it. -/
def typeName : Value → String
  | null => "NoneType"
  | bool _ => "bool"
  | int _ => "int"
  | float _ => "float"
  | str _ => "str"
  | list _ => "list"
  | tuple _ => "tuple"
  | map _ => "dict"
  | date _ => "date"
  | datetime _ => "datetime"
  | bytes _ => "bytes"
  | set _ => "set"

end Value

end NoteQuery
