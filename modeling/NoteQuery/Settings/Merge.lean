import NoteQuery.Value.Mapping

/-!
# Laying settings over others

The entries of one mapping are put over those of another. Where both have a mapping under a key, the
mappings are merged; everywhere else the upper value takes the place of the lower. Keys keep the place
they have below, new ones follow.
-/

namespace NoteQuery.Mapping

mutual

/-- A mapping with the entries of another laid over it. -/
def merge (base : Mapping) : (override : List (Value × Value)) → Mapping
  | [] => base
  | (key, value) :: rest => merge (insert base key (mergeValue (find? base key) value)) rest

/-- What a value laid over another gives. -/
def mergeValue (below : Option Value) : Value → Value
  | .map entries =>
    match below with
    | some (.map base) => .map (merge base entries)
    | _ => .map entries
  | v => v

end

end NoteQuery.Mapping
