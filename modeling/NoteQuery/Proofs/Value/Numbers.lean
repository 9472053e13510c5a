import NoteQuery.Proofs.Json.Spaced
import NoteQuery.Proofs.Outcome

/-!
# Numbers in values

The numbers in the JSON form of a value can be told from its text if those with a fraction that the value
holds are in canonical form. Keys are texts in JSON, so numbers in them do not matter, nor do those in sets,
which are shown as texts. Integers that are too long have no JSON form.
-/

namespace NoteQuery

namespace Value

/-- Whether a value holds a number with a fraction: as itself, in a list, or under a key. -/
inductive Holds (x : Binary64) : Value → Prop
  | self : Holds x (.float x)
  | item {xs : List Value} {v : Value} : v ∈ xs → Holds x v → Holds x (.list xs)
  | tupleItem {xs : List Value} {v : Value} : v ∈ xs → Holds x v → Holds x (.tuple xs)
  | entry {es : Mapping} {e : Value × Value} : e ∈ es → Holds x e.2 → Holds x (.map es)

/-- Whether all numbers with a fraction that a value holds are in canonical form. -/
def IsCanonical (v : Value) : Prop := ∀ x, v.Holds x → x.IsCanonical

theorem isCanonical_float {x : Binary64} (h : x.IsCanonical) : (Value.float x).IsCanonical := by
  rintro _ ⟨⟩
  exact h

theorem isCanonical_list {xs : List Value} : (Value.list xs).IsCanonical ↔ ∀ v ∈ xs, v.IsCanonical := by
  refine ⟨fun h v hv x hx ↦ h x (.item hv hx), ?_⟩
  rintro h x ⟨⟩
  exact h _ ‹_› x ‹_›

theorem isCanonical_tuple {xs : List Value} : (Value.tuple xs).IsCanonical ↔ ∀ v ∈ xs, v.IsCanonical := by
  refine ⟨fun h v hv x hx ↦ h x (.tupleItem hv hx), ?_⟩
  rintro h x ⟨⟩
  exact h _ ‹_› x ‹_›

theorem isCanonical_map {es : Mapping} : (Value.map es).IsCanonical ↔ ∀ e ∈ es, e.2.IsCanonical := by
  refine ⟨fun h e he x hx ↦ h x (.entry he hx), ?_⟩
  rintro h x ⟨⟩
  exact h _ ‹_› x ‹_›

end Value

namespace Json

theorem isLegible_int_of_isWritable {n : Int} (h : (Value.int n).isWritable = true) :
    (Json.int n).IsLegible := by
  rw [Value.isWritable, decide_eq_true_eq, Nat.pow_eq] at h
  -- the power is too large to be written out, so its exponent is kept as a name
  generalize hmost : Number.mostDigits = most at h
  exact .int (hmost ▸ Digits.length_toDigits_le (hmost ▸ by decide) h)

mutual

theorem gives_ofValue {v : Value} (hv : v.IsCanonical) : Gives (ofValue v) IsLegible fun _ ↦ True := by
  cases v with
  | null => exact .null
  | bool b => exact .bool b
  | str s => exact .str s
  | float x => exact .float (hv x .self)
  | int n =>
    cases hwritable : (Value.int n).isWritable with
    | false =>
      rw [ofValue, hwritable]
      exact trivial
    | true =>
      rw [ofValue, hwritable]
      exact isLegible_int_of_isWritable hwritable
  | list xs => exact (gives_ofValues (Value.isCanonical_list.mp hv)).map fun js hjs ↦ .arr hjs
  | tuple xs => exact (gives_ofValues (Value.isCanonical_tuple.mp hv)).map fun js hjs ↦ .arr hjs
  | map es => exact (gives_ofEntries (Value.isCanonical_map.mp hv)).map fun js hjs ↦ .obj hjs
  | date d => exact .str _
  | datetime t => exact .str _
  | bytes bs => exact .str _
  | set xs =>
    cases hwritable : (Value.set xs).isWritable with
    | false =>
      rw [ofValue, hwritable]
      · exact trivial
      all_goals exact nofun
    | true =>
      rw [ofValue, hwritable]
      · exact .str _
      all_goals exact nofun

theorem gives_ofValues {xs : List Value} (hxs : ∀ v ∈ xs, v.IsCanonical) :
    Gives (ofValues xs) (fun js ↦ ∀ j ∈ js, j.IsLegible) fun _ ↦ True := by
  cases xs with
  | nil => exact fun j hj ↦ nomatch hj
  | cons v xs =>
    obtain ⟨hv, hxs⟩ := List.forall_mem_cons.mp hxs
    exact Gives.bind (gives_ofValue hv) fun j hj ↦
      Gives.bind (gives_ofValues hxs) fun js hjs ↦ List.forall_mem_cons.mpr ⟨hj, hjs⟩

theorem gives_ofEntries {es : Mapping} (hes : ∀ e ∈ es, e.2.IsCanonical) :
    Gives (ofEntries es) (fun js ↦ ∀ e ∈ js, e.2.IsLegible) fun _ ↦ True := by
  cases es with
  | nil => exact fun e he ↦ nomatch he
  | cons e es =>
    obtain ⟨k, v⟩ := e
    obtain ⟨hv, hes⟩ := List.forall_mem_cons.mp hes
    rw [ofEntries]
    refine Gives.bind (P := fun _ ↦ True) ?_ fun key _ ↦ Gives.bind (gives_ofValue hv) fun j hj ↦
      Gives.bind (gives_ofEntries hes) fun js hjs ↦ List.forall_mem_cons.mpr ⟨hj, hjs⟩
    cases keyText k <;> exact trivial

end

end Json

end NoteQuery
