import NoteQuery.Note.Frontmatter

/-!
# Front matter

The keys of front matter are texts: an entry put into a mapping brings its own key or leaves the keys as
they are, and it brings its own value, so what holds of the keys and of the values of some entries holds of
those of their mapping.
-/

namespace NoteQuery

namespace Mapping

variable {P Q : Value → Prop}

theorem forall_insert {m : Mapping} (h : ∀ e ∈ m, P e.1 ∧ Q e.2) {key value : Value} (hkey : P key)
    (hvalue : Q value) : ∀ e ∈ insert m key value, P e.1 ∧ Q e.2 := by
  induction m with
  | nil => exact List.forall_mem_singleton.mpr ⟨hkey, hvalue⟩
  | cons first rest ih =>
    obtain ⟨hfirst, hrest⟩ := List.forall_mem_cons.mp h
    rw [insert]
    split
    · exact List.forall_mem_cons.mpr ⟨⟨hfirst.1, hvalue⟩, hrest⟩
    · exact List.forall_mem_cons.mpr ⟨hfirst, ih hrest⟩

/-- What holds of the keys and of the values of some entries holds of those of their mapping. -/
theorem forall_ofEntries {entries : List (Value × Value)} (h : ∀ e ∈ entries, P e.1 ∧ Q e.2) :
    ∀ e ∈ ofEntries entries, P e.1 ∧ Q e.2 := by
  have hfold : ∀ m : Mapping, (∀ e ∈ m, P e.1 ∧ Q e.2) →
      ∀ e ∈ entries.foldl (fun m e ↦ insert m e.1 e.2) m, P e.1 ∧ Q e.2 := by
    induction entries with
    | nil => exact fun m hm ↦ hm
    | cons first entries ih =>
      intro m hm
      obtain ⟨hfirst, hentries⟩ := List.forall_mem_cons.mp h
      exact ih hentries _ (forall_insert hm hfirst.1 hfirst.2)
  exact hfold [] fun e he ↦ nomatch he

end Mapping

namespace Frontmatter

theorem exists_str_of_mem_withTextKeys {m : Mapping} {e : Value × Value} (h : e ∈ withTextKeys m) :
    ∃ s, e.1 = .str s := by
  refine (Mapping.forall_ofEntries (P := fun k ↦ ∃ s, k = .str s) (Q := fun _ ↦ True) (fun e he ↦ ?_) e h).1
  obtain ⟨e', -, rfl⟩ := List.mem_map.mp he
  exact ⟨⟨_, rfl⟩, trivial⟩

theorem exists_str_of_mem_entries {text : String} {f : Frontmatter} (hf : ofText text = .ok f)
    {e : Value × Value} (he : e ∈ f.entries) : ∃ s, e.1 = .str s := by
  rw [ofText] at hf
  split at hf
  · obtain rfl := Except.ok.inj hf
    exact nomatch he
  · split at hf
    · split at hf
      · obtain rfl := Except.ok.inj hf
        exact exists_str_of_mem_withTextKeys he
      · exact nomatch hf
    · obtain rfl := Except.ok.inj hf
      exact nomatch he
    · obtain rfl := Except.ok.inj hf
      exact nomatch he
    · exact nomatch hf

end Frontmatter

end NoteQuery
