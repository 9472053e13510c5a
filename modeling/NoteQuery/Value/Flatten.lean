import NoteQuery.Json.Printer

/-!
# Metadata as searchable text

An operand is compared with texts, so metadata is turned into text. `Value.plain` is one text for a
value: truth values in lower case, whole floats without a fraction, lists with commas, mappings as
compact JSON, nothing as the empty text. `Value.flatten` is the list of texts of a value: lists are
flattened to any depth and nothing has no text. In these texts every half of a character is replaced.
-/

namespace NoteQuery.Value

/-- A mapping as compact JSON. -/
def mappingText (entries : List (Value × Value)) : Except JsonFault String :=
  (Json.ofEntries entries).map fun es ↦ (Json.obj es).compact.mended

mutual

/-- The text of a value. -/
def plain : Value → Except JsonFault String
  | .null => .ok ""
  | .bool b => .ok (if b then "true" else "false")
  | .float x =>
    match x.toInt? with
    | some n => .ok (toString n)
    | none => .ok x.toText
  | .list xs => (plains xs).map (",".intercalate ·)
  | .tuple xs => (plains xs).map (",".intercalate ·)
  | .map es => mappingText es
  | v => if v.isWritable then .ok v.text.mended else .error .digits

/-- The texts of the values of a list, one each. -/
def plains : List Value → Except JsonFault (List String)
  | [] => .ok []
  | x :: xs => do return (← plain x) :: (← plains xs)

end

mutual

/-- The texts of a value. -/
def flatten : Value → Except JsonFault (List String)
  | .null => .ok []
  | .list xs => flattens xs
  | .tuple xs => flattens xs
  | .map es => (mappingText es).map ([·])
  | v => v.plain.map ([·])

/-- The texts of the values of a list, in order. -/
def flattens : List Value → Except JsonFault (List String)
  | [] => .ok []
  | x :: xs => do return (← flatten x) ++ (← flattens xs)

end

end NoteQuery.Value
