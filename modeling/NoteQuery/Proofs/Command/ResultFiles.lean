import NoteQuery.Proofs.Command.Actions

/-!
# What is written of the results that are kept

When an action is done every writer of result files opens the same file for the same text. Without results no
file is opened. With results the file holds all of them afterwards, provided that their texts can be made into
bytes: if one of them holds half of a character, the file has been opened already when this comes out, and
stays empty.
-/

namespace NoteQuery

/-! ## Texts and bytes -/

namespace Text

theorem exists_charsFrom_eq_error {codes : List CodePoint} (h : codes.all CodePoint.isChar = false)
    (place : Nat) : ∃ fault, charsFrom place codes = .error fault := by
  induction codes generalizing place with
  | nil => cases h
  | cons p codes ih =>
    cases p with
    | half d => exact ⟨_, rfl⟩
    | char c =>
      obtain ⟨fault, hfault⟩ := ih h (place + 1)
      exact ⟨fault, by rw [charsFrom, hfault]; rfl⟩

theorem exists_encodable_eq_error {t : CodeText} (h : t.isWhole = false) :
    ∃ fault, encodable t = .error fault := by
  obtain ⟨fault, hfault⟩ := exists_charsFrom_eq_error h 0
  exact ⟨fault, by rw [encodable, hfault]; rfl⟩

end Text

namespace Command

/-! ## Files that are opened -/

namespace Action

variable {stamp action name : String} {text : CodeText} {writers : List Writer} {n : Nat}

theorem run_forM_cons {α : Type} (f : α → Action Unit) (a : α) (as : List α) (j : Journal) :
    ExceptT.run ((a :: as).forM f) j = ExceptT.run (f a >>= fun _ ↦ as.forM f) j := rfl

/-- A text with a half leaves the first file that is opened for it empty. -/
theorem run_finish_of_not_isWhole
    (h : writers.filterMap (·.finish action stamp) = List.replicate (n + 1) (name, text))
    (htext : text.isWhole = false) (j : Journal) :
    ∃ failure, ExceptT.run (finish stamp action writers) j
      = (.error failure, { j with files := Journal.withFile j.files name "" }) := by
  obtain ⟨fault, hfault⟩ := Text.exists_encodable_eq_error htext
  have hsave : ExceptT.run (save name text) j
      = (.error (.other fault.message), { j with files := Journal.withFile j.files name "" }) := by
    rw [save, writeOpened, hfault]
    rfl
  rw [finish, h, List.replicate_succ, run_forM_cons, run_bind, hsave]
  exact ⟨_, rfl⟩

end Action

end Command

/-! ## Results that are kept -/

namespace Writer

open Command (Action Journal)

namespace Keep

variable {directory : String} {kept : List Result} {writers : List Writer}

/-- With a half the file is opened and left empty. -/
theorem run_finish_of_not_isWhole (hkeep : Keep directory kept writers) (hne : kept ≠ [])
    (hhalf : ¬∀ r ∈ kept, IsWhole r) (action stamp : String) (j : Journal) :
    ∃ failure, ExceptT.run (Action.finish stamp action writers) j
      = (.error failure, { j with
          files := Journal.withFile j.files (fileName directory action stamp) "" }) := by
  have htext : (fileText kept).isWhole = false := eq_false_of_ne_true (mt isWhole_fileText_iff.mp hhalf)
  obtain ⟨n, hfiles⟩ := hkeep.exists_filterMap_finish_eq_replicate hne action stamp
  exact Action.run_finish_of_not_isWhole hfiles htext j

end Keep

/-- The record of a note without front matter. -/
def plain : Record := ⟨"n.md", "", none, [], [], []⟩

end Writer

end NoteQuery
