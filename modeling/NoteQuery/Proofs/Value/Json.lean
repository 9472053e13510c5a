import NoteQuery.Proofs.Outcome
import NoteQuery.Value.Flatten

/-!
# Values with a JSON form

A value has a JSON form exactly when no integer in it is too long to be written and no mapping in it
has a key that JSON does not know. The texts of a value and its one text go by the same rule, although
they are made in other ways, so one condition serves them all.
-/

namespace NoteQuery

namespace Value

/-! ## The condition -/

/-- Whether a value can be a key in JSON. -/
def isJsonKey : Value → Bool
  | .str _ | .bool _ | .null | .float _ => true
  | .int n => (Value.int n).isWritable
  | _ => false

mutual

/-- Whether a value has a JSON form. -/
def hasJson : Value → Bool
  | .list xs => haveJson xs
  | .tuple xs => haveJson xs
  | .map es => entriesHaveJson es
  | v => v.isWritable

/-- Whether all values of a list have JSON forms. -/
def haveJson : List Value → Bool
  | [] => true
  | x :: xs => hasJson x && haveJson xs

/-- Whether all entries of a mapping have JSON forms. -/
def entriesHaveJson : List (Value × Value) → Bool
  | [] => true
  | (k, v) :: es => isJsonKey k && hasJson v && entriesHaveJson es

end

/-! ## JSON forms -/

theorem isOk_ite (written : Bool) (fault : JsonFault) {α : Type} (a : α) :
    (if written then Except.ok a else .error fault : Except JsonFault α).isOk = written := by
  cases written <;> rfl

theorem isOk_keyText (k : Value) : (Json.keyText k).isOk = k.isJsonKey := by
  cases k with
  | int n => rw [Json.keyText, isJsonKey, isOk_ite]
  | _ => rfl

mutual

theorem isOk_ofValue (v : Value) : (Json.ofValue v).isOk = v.hasJson := by
  cases v with
  | int n =>
    rw [Json.ofValue, hasJson, isOk_ite]
    all_goals exact nofun
  | list xs => exact (isOk_map _ _).trans (isOk_ofValues xs)
  | tuple xs => exact (isOk_map _ _).trans (isOk_ofValues xs)
  | map es => exact (isOk_map _ _).trans (isOk_ofEntries es)
  | set xs =>
    rw [Json.ofValue, hasJson, isOk_ite]
    all_goals exact nofun
  | _ => rfl

theorem isOk_ofValues (xs : List Value) : (Json.ofValues xs).isOk = haveJson xs := by
  cases xs with
  | nil => rfl
  | cons x xs =>
    rw [Json.ofValues, haveJson, ← isOk_ofValue x, ← isOk_ofValues xs]
    exact isOk_bind _ _ fun _ ↦ isOk_bind_pure _ _

theorem isOk_ofEntries (es : List (Value × Value)) : (Json.ofEntries es).isOk = entriesHaveJson es := by
  cases es with
  | nil => rfl
  | cons e es =>
    obtain ⟨k, v⟩ := e
    rw [Json.ofEntries, entriesHaveJson, ← isOk_keyText k, ← isOk_ofValue v, ← isOk_ofEntries es,
      Bool.and_assoc]
    exact isOk_bind _ _ fun _ ↦ isOk_bind _ _ fun _ ↦ isOk_bind_pure _ _

end

/-! ## Texts -/

theorem isOk_mappingText (es : List (Value × Value)) : (mappingText es).isOk = entriesHaveJson es :=
  (isOk_map _ _).trans (isOk_ofEntries es)

mutual

theorem isOk_plain (v : Value) : v.plain.isOk = v.hasJson := by
  cases v with
  | list xs => exact (isOk_map _ _).trans (isOk_plains xs)
  | tuple xs => exact (isOk_map _ _).trans (isOk_plains xs)
  | map es => exact isOk_mappingText es
  | float x =>
    rw [plain]
    cases x.toInt? <;> rfl
  | int n =>
    rw [plain, hasJson, isOk_ite]
    all_goals exact nofun
  | set xs =>
    rw [plain, hasJson, isOk_ite]
    all_goals exact nofun
  | _ => rfl

theorem isOk_plains (xs : List Value) : (plains xs).isOk = haveJson xs := by
  cases xs with
  | nil => rfl
  | cons x xs =>
    rw [plains, haveJson, ← isOk_plain x, ← isOk_plains xs]
    exact isOk_bind _ _ fun _ ↦ isOk_bind_pure _ _

end

mutual

theorem isOk_flatten (v : Value) : v.flatten.isOk = v.hasJson := by
  cases v with
  | null => rfl
  | list xs => exact isOk_flattens xs
  | tuple xs => exact isOk_flattens xs
  | map es => exact (isOk_map _ _).trans (isOk_mappingText es)
  | _ =>
    rw [flatten, isOk_map, isOk_plain]
    all_goals exact nofun

theorem isOk_flattens (xs : List Value) : (flattens xs).isOk = haveJson xs := by
  cases xs with
  | nil => rfl
  | cons x xs =>
    rw [flattens, haveJson, ← isOk_flatten x, ← isOk_flattens xs]
    exact isOk_bind _ _ fun _ ↦ isOk_bind_pure _ _

end

/-! ## Lists and mappings of values with JSON forms -/

theorem haveJson_map_str {α : Type} (f : α → CodeText) (xs : List α) :
    haveJson (xs.map fun x ↦ .str (f x)) = true := by
  induction xs with
  | nil => rfl
  | cons x xs ih =>
    rw [List.map_cons, haveJson, ih]
    rfl

theorem entriesHaveJson_of_text_keys {es : List (Value × Value)} (hkeys : ∀ e ∈ es, ∃ s, e.1 = .str s)
    (hvalues : ∀ e ∈ es, e.2.hasJson = true) : entriesHaveJson es = true := by
  induction es with
  | nil => rfl
  | cons e es ih =>
    obtain ⟨k, v⟩ := e
    obtain ⟨s, rfl⟩ : ∃ s, k = .str s := hkeys _ List.mem_cons_self
    have hvalue : v.hasJson = true := hvalues _ List.mem_cons_self
    rw [entriesHaveJson, hvalue, ih (fun e he ↦ hkeys e (List.mem_cons_of_mem _ he))
      fun e he ↦ hvalues e (List.mem_cons_of_mem _ he)]
    rfl

end Value

end NoteQuery
