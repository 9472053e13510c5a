import NoteQuery.Proofs.Note.Frontmatter
import NoteQuery.Proofs.Note.Reading
import NoteQuery.Proofs.Number.Decimal
import NoteQuery.Proofs.Value.Numbers

/-!
# Numbers in front matter

A number with a fraction comes into the value of a document from a scalar alone: it is a word, a numeral,
or a sum of parts in base sixty, and all of these are in canonical form. So all numbers are that the
front matter of a note holds.
-/

namespace NoteQuery

namespace Yaml

/-! ## Scalars -/

/-- Whether an outcome, if it is a value, holds numbers in canonical form alone. -/
abbrev GivesCanonical (x : Except Fault Value) : Prop := Gives x Value.IsCanonical fun _ ↦ True

namespace Scalar

theorem isCanonical_of_float? {cs : List Char} {x : Binary64} (h : Number.float? cs = some x) :
    x.IsCanonical := by
  rw [Number.float?] at h
  dsimp only at h
  split at h
  · rename_i word hword
    obtain rfl := Option.some.inj h
    rw [Number.word?] at hword
    split_ifs at hword
    · obtain rfl := Option.some.inj hword
      exact trivial
    · obtain rfl := Option.some.inj hword
      exact trivial
  · obtain ⟨⟨n, e⟩, -, rfl⟩ := Option.map_eq_some_iff.mp h
    exact Binary64.isCanonical_ofDecimal _ n e

theorem gives_decimal (cs : List Char) : Gives (decimal cs) Binary64.IsCanonical fun _ ↦ True := by
  rw [decimal]
  split
  · exact isCanonical_of_float? ‹_›
  · exact trivial

theorem isCanonical_sexagesimal (scale : Nat) {sum : Binary64} (hsum : sum.IsCanonical)
    (parts : List Binary64) : (sexagesimal scale sum parts).IsCanonical := by
  induction parts generalizing scale sum with
  | nil => exact hsum
  | cons d parts ih => exact ih _ (Binary64.isCanonical_add _ _)

theorem givesCanonical_float (cs : List Char) : GivesCanonical (float cs) := by
  refine Gives.bind (.any _) fun ⟨negative, body⟩ _ ↦ ?_
  have hsigned : ∀ x : Binary64, x.IsCanonical →
      (Value.float (if negative = true then x.negate else x)).IsCanonical := by
    intro x hx
    split
    · exact Value.isCanonical_float (Binary64.isCanonical_negate hx)
    · exact Value.isCanonical_float hx
  dsimp only
  split
  · exact Value.isCanonical_float trivial
  · split
    · exact hsigned (.infinite false) trivial
    · split
      · exact Gives.bind ((Gives.any _).map fun parts _ ↦
          isCanonical_sexagesimal 1 (Binary64.isCanonical_zero false) parts.reverse) hsigned
      · exact Gives.bind (gives_decimal body) hsigned

theorem givesCanonical_truth (cs : List Char) : GivesCanonical (truth cs) := by
  rw [truth]
  split_ifs
  · exact fun x h ↦ by cases h
  · exact fun x h ↦ by cases h
  · exact trivial

theorem givesCanonical_integer (cs : List Char) : GivesCanonical (integer cs) :=
  Gives.bind (.any _) fun _ _ ↦ Gives.bind (.any _) fun _ _ x h ↦ by cases h

theorem givesCanonical_bytes (cs : List Char) : GivesCanonical (bytes cs) := by
  rw [bytes]
  split
  · exact (Gives.any _).map fun _ _ x h ↦ by cases h
  · exact trivial

theorem givesCanonical_timestamp (cs : List Char) : GivesCanonical (timestamp cs) := by
  rw [timestamp]
  split
  · exact trivial
  · dsimp only
    refine Gives.mapError (E := fun _ ↦ True) ?_ fun _ _ ↦ trivial
    split
    · exact (Gives.any _).map fun _ _ x h ↦ by cases h
    · exact (Gives.any _).map fun _ _ x h ↦ by cases h

end Scalar

/-! ## Documents -/

namespace Node

theorem gives_scalarValue (n : Node) {read : CodeText → Except Fault Value}
    (h : ∀ t, GivesCanonical (read t)) :
    Gives ((n.scalarValue read).map some) (fun v ↦ ∀ w ∈ v, w.IsCanonical) fun _ ↦ True := by
  refine Gives.map (Gives.bind (.any _) fun t _ ↦ h t) ?_
  rintro v hv w ⟨⟩
  exact hv

theorem gives_canonical_immediate? (n : Node) :
    Gives n.immediate? (fun v ↦ ∀ w ∈ v, w.IsCanonical) fun _ ↦ True := by
  rw [immediate?]
  split
  · exact gives_scalarValue n fun _ x h ↦ by cases h
  · exact gives_scalarValue n fun t ↦ Scalar.givesCanonical_truth t.characters
  · exact gives_scalarValue n fun t ↦ Scalar.givesCanonical_integer t.characters
  · exact gives_scalarValue n fun t ↦ Scalar.givesCanonical_float t.characters
  · exact gives_scalarValue n fun t ↦ Scalar.givesCanonical_bytes t.characters
  · exact gives_scalarValue n fun t ↦ Scalar.givesCanonical_timestamp t.characters
  · exact gives_scalarValue n fun _ x h ↦ by cases h
  -- collections are built later, and other tags have no values
  iterate 5
    · exact fun v hv ↦ by cases hv
  all_goals exact trivial

theorem givesCanonical_value (n : Node) (fuel : Nat) : GivesCanonical (n.value fuel) := by
  induction fuel generalizing n with
  | zero => exact trivial
  | succ fuel ih =>
    have hpair : ∀ e : Node × Node, Gives (do return (← e.1.value fuel, ← e.2.value fuel))
        (fun pair : Value × Value ↦ pair.1.IsCanonical ∧ pair.2.IsCanonical) fun _ ↦ True :=
      fun e ↦ Gives.bind (ih e.1) fun _ hk ↦ Gives.bind (ih e.2) fun _ hv ↦ ⟨hk, hv⟩
    have hitem : ∀ item : Node, GivesCanonical (do
        let e ← onlyEntry item
        let pair ← (do return (← e.1.value fuel, ← e.2.value fuel))
        return Value.tuple [pair.1, pair.2]) := by
      refine fun item ↦ Gives.bind (.any _) fun e _ ↦ Gives.bind (hpair e) fun pair hpair ↦ ?_
      exact Value.isCanonical_tuple.mpr
        (List.forall_mem_cons.mpr ⟨hpair.1, List.forall_mem_singleton.mpr hpair.2⟩)
    unfold value
    refine Gives.bind (gives_canonical_immediate? n) fun v hv ↦ ?_
    cases v with
    | some v => exact hv v rfl
    | none =>
      dsimp only
      split
      · exact Gives.bind (Gives.forall_mapM ih _) fun vs ↦ Value.isCanonical_list.mpr
      · refine Gives.bind (.any _) fun es _ ↦ Gives.bind (Gives.forall_mapM hpair es) fun pairs hpairs ↦ ?_
        exact Value.isCanonical_map.mpr fun e he ↦ (Mapping.forall_ofEntries hpairs e he).2
      · exact Gives.bind (.any _) fun es _ ↦ Gives.bind (.any _) fun pairs _ x h ↦ by cases h
      · exact Gives.bind (Gives.forall_mapM hitem _) fun vs ↦ Value.isCanonical_list.mpr
      · exact Gives.bind (Gives.forall_mapM hitem _) fun vs ↦ Value.isCanonical_list.mpr
      · exact trivial

end Node

theorem givesCanonical_parse (text : List Char) : GivesCanonical (parse text) := by
  refine Gives.bind (.any _) fun node _ ↦ ?_
  split
  · exact fun x h ↦ by cases h
  · rw [Node.document]
    split
    · exact trivial
    · split
      · exact trivial
      · exact Node.givesCanonical_value _ _

end Yaml

/-! ## Notes -/

theorem Frontmatter.IsOf.isCanonical {text : String} {f : Frontmatter} (h : IsOf text f) :
    ∀ e ∈ f.entries, e.2.IsCanonical := by
  cases h with
  | absent => exact List.forall_mem_nil _
  | passedOver => exact List.forall_mem_nil _
  | mapping _ hparse =>
    have hentries := Value.isCanonical_map.mp ((Yaml.givesCanonical_parse _).value hparse)
    refine fun e he ↦ (Mapping.forall_ofEntries (P := fun _ ↦ True) (fun e he ↦ ?_) e he).2
    obtain ⟨e, hmem, rfl⟩ := List.mem_map.mp he
    exact ⟨trivial, hentries e hmem⟩

/-- **Front matter holds numbers in canonical form alone.** -/
theorem Note.isCanonical_of_read {path text : String} {note : Note} (h : read path text = .ok note) :
    ∀ e ∈ note.record.frontmatter, e.2.IsCanonical := by
  obtain ⟨f, hf, hrecord⟩ := (gives_read path text).value h
  rw [hrecord]
  exact hf.isCanonical

end NoteQuery
