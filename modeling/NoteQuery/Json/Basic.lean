import NoteQuery.Value.Mapping
import NoteQuery.Value.Text

/-!
# JSON values

The values that JSON text can hold, and the passage from metadata to them and back. Keys become text:
truth values, nothing and numbers as JSON writes them. A key that is none of these is refused, a value
that is none of these becomes its text. Distinct keys may fall together; `normal` keeps, as a reader of
the text does, the place of the first and the value of the last.
-/

namespace NoteQuery

/-- A JSON value. An object is a list of entries, in their order in the text. -/
inductive Json
  /-- No value. -/
  | null
  /-- A truth value. -/
  | bool (b : Bool)
  /-- An integer. -/
  | int (n : Int)
  /-- A number with a fraction or an exponent. -/
  | float (x : Binary64)
  /-- A text. -/
  | str (s : CodeText)
  /-- An array. -/
  | arr (items : List Json)
  /-- An object. -/
  | obj (entries : List (CodeText × Json))
deriving Repr, Inhabited

/-- Why a value has no JSON form. -/
inductive JsonFault
  /-- A key is neither a text nor a number, a truth value or nothing. -/
  | key (typeName : String)
  /-- An integer has more digits than are written. -/
  | digits
deriving Repr, DecidableEq

/-- What a fault says. -/
def JsonFault.message : JsonFault → String
  | .key typeName => "keys must be str, int, float, bool or None, not " ++ typeName
  | .digits => Number.tooManyDigits none

namespace Json

/-! ## From metadata -/

/-- A number with a fraction as JSON text. -/
def floatText : Binary64 → String
  | .nan => "NaN"
  | .infinite negative => if negative then "-Infinity" else "Infinity"
  | x => x.toText

/-- The text of a key. -/
def keyText : Value → Except JsonFault CodeText
  | .str s => .ok s
  | .bool b => .ok (if b then "true" else "false")
  | .null => .ok "null"
  | .int n => if (Value.int n).isWritable then .ok (toString n) else .error .digits
  | .float x => .ok (floatText x)
  | .date _ => .error (.key "datetime.date")
  | .datetime _ => .error (.key "datetime.datetime")
  | v => .error (.key v.typeName)

mutual

/-- The JSON form of a value. -/
def ofValue : Value → Except JsonFault Json
  | .null => .ok .null
  | .bool b => .ok (.bool b)
  | .int n => if (Value.int n).isWritable then .ok (.int n) else .error .digits
  | .float x => .ok (.float x)
  | .str s => .ok (.str s)
  | .list xs => (ofValues xs).map .arr
  | .tuple xs => (ofValues xs).map .arr
  | .map es => (ofEntries es).map .obj
  | v => if v.isWritable then .ok (.str v.text) else .error .digits

/-- The JSON forms of the values of a list. -/
def ofValues : List Value → Except JsonFault (List Json)
  | [] => .ok []
  | x :: xs => do return (← ofValue x) :: (← ofValues xs)

/-- The JSON forms of the entries of a mapping. -/
def ofEntries : List (Value × Value) → Except JsonFault (List (CodeText × Json))
  | [] => .ok []
  | (k, v) :: es => do
    let key ← keyText k
    let value ← ofValue v
    return (key, value) :: (← ofEntries es)

end

/-! ## One entry a key -/

/-- Puts an entry under a key: in the place of the entry that is there, or at the end. -/
def insertEntry : List (CodeText × Json) → CodeText → Json → List (CodeText × Json)
  | [], key, value => [(key, value)]
  | (k, v) :: rest, key, value =>
    if k = key then (k, value) :: rest else (k, v) :: insertEntry rest key value

/-- The entries, put in one after the other. -/
def mergeEntries (entries : List (CodeText × Json)) : List (CodeText × Json) :=
  entries.foldl (fun es entry ↦ insertEntry es entry.1 entry.2) []

mutual

/-- The value with one entry a key in every object. -/
def normal : Json → Json
  | .arr xs => .arr (normals xs)
  | .obj es => .obj (mergeEntries (normalEntries es))
  | j => j

/-- The values of a list, each with one entry a key. -/
def normals : List Json → List Json
  | [] => []
  | x :: xs => normal x :: normals xs

/-- The entries of an object, each value with one entry a key. -/
def normalEntries : List (CodeText × Json) → List (CodeText × Json)
  | [] => []
  | (k, v) :: es => (k, normal v) :: normalEntries es

end

/-! ## Back to metadata -/

mutual

/-- A JSON value as metadata. -/
def toValue : Json → Value
  | .null => .null
  | .bool b => .bool b
  | .int n => .int n
  | .float x => .float x
  | .str s => .str s
  | .arr xs => .list (toValues xs)
  | .obj es => .map (toEntries es)

/-- The values of an array as metadata. -/
def toValues : List Json → List Value
  | [] => []
  | x :: xs => toValue x :: toValues xs

/-- The entries of an object as metadata. -/
def toEntries : List (CodeText × Json) → List (Value × Value)
  | [] => []
  | (k, v) :: es => (.str k, toValue v) :: toEntries es

end

end Json

end NoteQuery
