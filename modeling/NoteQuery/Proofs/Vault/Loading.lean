import Mathlib
import NoteQuery.Proofs.Note.Reading
import NoteQuery.Vault.Load

/-!
# Loading a vault

A vault is loaded as a whole, one record for each of its notes in the order of their paths, unless one of
the notes cannot be read. So malformed front matter keeps no note from being loaded, but a date that does
not exist keeps all of them.
-/

namespace NoteQuery.Vault

/-- Whether a record is that of a note with a path and a text. -/
def IsRecordOf (path text : String) (r : Record) : Prop :=
  ∃ f, Frontmatter.IsOf text f ∧ r = f.record path

theorem forall₂_of_readAll {files : List VaultFile} (h : (readAll files).stopped = none) :
    List.Forall₂ (fun file r ↦ IsRecordOf (pathOf file.path) file.text r) files
      ((readAll files).notes.map (·.record)) := by
  induction files with
  | nil => exact .nil
  | cons file files ih =>
    rw [readAll] at h ⊢
    cases hread : file.read with
    | error fault =>
      rw [hread] at h
      exact nomatch h
    | ok note =>
      rw [hread] at h
      exact .cons ((Note.gives_read _ _).value hread) (ih h)

theorem exists_of_readAll {files : List VaultFile} {fault : Yaml.Fault}
    (h : (readAll files).stopped = some fault) : ∃ file ∈ files, file.read = .error fault := by
  induction files with
  | nil => exact nomatch h
  | cons file files ih =>
    rw [readAll] at h
    cases hread : file.read with
    | error met =>
      rw [hread] at h
      obtain rfl : met = fault := Option.some.inj h
      exact ⟨file, List.mem_cons_self, hread⟩
    | ok note =>
      rw [hread] at h
      obtain ⟨found, hfound, hfault⟩ := ih h
      exact ⟨found, List.mem_cons_of_mem file hfound, hfault⟩

/-- **Loading.** A note is read, and a vault is loaded with a record for each of its notes, unless
something in the front matter of a note is to blame. -/
theorem loaded_or_blames (path text : String) (files : List VaultFile) (extensions : List String) :
    ((∃ note, Note.read path text = .ok note ∧ IsRecordOf path text note.record) ∨
      ∃ fault, Note.read path text = .error fault ∧ Note.Blames text fault) ∧
    ((∃ rs, records files extensions = .ok rs ∧
        List.Forall₂ (fun file r ↦ IsRecordOf (pathOf file.path) file.text r)
          (noteFiles files extensions) rs) ∨
      ∃ fault, records files extensions = .error fault ∧
        ∃ file ∈ noteFiles files extensions, Note.Blames file.text fault) := by
  constructor
  · refine (exists_ok_or_exists_error (Note.read path text)).imp ?_ ?_
    · rintro ⟨note, hread⟩
      exact ⟨note, hread, (Note.gives_read path text).value hread⟩
    · rintro ⟨fault, hread⟩
      exact ⟨fault, hread, (Note.gives_read path text).fault hread⟩
  · rw [records, load]
    cases hstopped : (readAll (noteFiles files extensions)).stopped with
    | none => exact .inl ⟨_, rfl, forall₂_of_readAll hstopped⟩
    | some fault =>
      obtain ⟨file, hfile, hread⟩ := exists_of_readAll hstopped
      exact .inr ⟨fault, rfl, file, hfile, (Note.gives_read _ _).fault hread⟩

/-! ### A malformed block and a date that does not exist -/

/-- A note with malformed front matter is read, without front matter and with the body after it. -/
theorem loaded_or_blames_malformed_block :
    ∃ note, Note.read "n.md" "---\n[\n---\nbody" = .ok note ∧
      note.record.content = "body" ∧ note.record.frontmatter = [] := by
  have hsplit : Fence.split? "---\n[\n---\nbody".toList = some (['['], "body".toList) := by cbv
  have hparse : Yaml.parse ['['] = .error .malformed := by cbv
  have hfrontmatter : Frontmatter.ofText "---\n[\n---\nbody" = .ok ⟨[], "body", some .malformed⟩ := by
    rw [Frontmatter.ofText, hsplit]
    dsimp only
    rw [hparse, String.ofList_toList]
  obtain ⟨note, hread, f, hf, hrecord⟩ | ⟨fault, hread, -⟩ :=
    (loaded_or_blames "n.md" "---\n[\n---\nbody" [] []).1
  · refine ⟨note, hread, ?_⟩
    rw [hrecord]
    cases hf with
    | absent h => cases hsplit.symm.trans h
    | mapping h hmapping =>
      obtain ⟨rfl, -⟩ := Prod.mk.inj (Option.some.inj (hsplit.symm.trans h))
      cases hparse.symm.trans hmapping
    | passedOver h _ =>
      obtain ⟨-, rfl⟩ := Prod.mk.inj (Option.some.inj (hsplit.symm.trans h))
      exact ⟨rfl, rfl⟩
  · rw [Note.read, hfrontmatter] at hread
    cases hread

/-- Not every note is read. -/
theorem not_forall_exists_read :
    ¬∀ path text : String, ∃ note, Note.read path text = .ok note := by
  intro h
  obtain ⟨note, hread⟩ := h "n.md" "---\nd: 2024-02-30\n---\nbody"
  have hdate : Note.read "n.md" "---\nd: 2024-02-30\n---\nbody" = .error (.date .day) := by cbv
  cases hdate.symm.trans hread

end NoteQuery.Vault
