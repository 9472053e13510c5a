import NoteQuery.Output.Writer
import NoteQuery.Proofs.Json.Texts
import NoteQuery.Proofs.Note.Numbers
import NoteQuery.Proofs.Output.Records

/-!
# What writers keep

All writers are handed the same results, and what a writer of result files does with one depends on the
records alone: it takes the result with the records as JSON, or it refuses records that have no JSON form.
So the first of these writers refuses what any of them would, before any of them has changed, and they all
keep the same. Nothing else changes them; writing a file leaves what is kept for the next one.
-/

namespace NoteQuery.Writer

/-! ## Runs -/

/-- What is done with writers. -/
inductive Step
  /-- They are handed the result of a query. -/
  | take (records : List Record) (query : String)
  /-- An action is done. -/
  | finish (action stamp : String)

/-- Writers on their way, and the results that they have not refused. -/
structure Course where
  /-- The writers. -/
  writers : List Writer
  /-- The records and queries that were taken, in order. -/
  taken : List (List Record × String)

namespace Course

/-- The writers after a step. -/
def step (c : Course) : Step → Course
  | .take records query =>
    let handed := takeAll records query c.writers
    ⟨handed.writers, if handed.refused.isNone then c.taken ++ [(records, query)] else c.taken⟩
  | .finish .. => c

/-- The writers after some steps. -/
def run (made : List Writer) (steps : List Step) : Course := steps.foldl step ⟨made, []⟩

end Course

/-- Whether writers of result files keep these results, all of them the same. -/
structure Keep (directory : String) (kept : List Result) (writers : List Writer) : Prop where
  /-- There is a writer of result files. -/
  mem : .file directory kept ∈ writers
  /-- There is none that keeps others. -/
  eq_or_eq : ∀ w ∈ writers, w = .console ∨ w = .file directory kept

/-! ## One result -/

/-- A writer that keeps one result more. -/
def keep (r : Result) : Writer → Writer
  | console => console
  | file directory kept => file directory (kept ++ [r])

variable {records : List Record}

theorem takeAll_of_ok {shown : List Json} (h : Output.json records = .ok shown) (query : String)
    (writers : List Writer) :
    (takeAll records query writers).writers = writers.map (keep ⟨query, shown⟩) ∧
      (takeAll records query writers).refused = none := by
  induction writers with
  | nil => exact ⟨rfl, rfl⟩
  | cons w writers ih =>
    have htake : ∃ messages, w.take records query = .ok (messages, keep ⟨query, shown⟩ w) := by
      cases w with
      | console => exact ⟨_, rfl⟩
      | file directory kept =>
        rw [take, h]
        exact ⟨[], rfl⟩
    obtain ⟨messages, htake⟩ := htake
    rw [takeAll, htake]
    exact ⟨congrArg _ ih.1, ih.2⟩

namespace Keep

variable {directory : String} {kept : List Result} {writers : List Writer}

theorem map_keep (hkeep : Keep directory kept writers) (r : Result) :
    Keep directory (kept ++ [r]) (writers.map (keep r)) := by
  refine ⟨List.mem_map_of_mem hkeep.mem, fun w' hw' ↦ ?_⟩
  obtain ⟨w, hw, rfl⟩ := List.mem_map.mp hw'
  rcases hkeep.eq_or_eq w hw with rfl | rfl
  · exact .inl rfl
  · exact .inr rfl

end Keep

/-! ## Runs of results -/

namespace Course

variable {directory : String} {kept : List Result} {c : Course}

end Course

/-! ## Result files -/

/-- Whether the records of a result hold no half of a character. -/
def IsWhole (r : Result) : Prop := ∀ j ∈ r.records, ∀ t ∈ j.texts, t.isWhole = true

/-- The text for a result file is whole exactly if the records in it are: queries are whole, and so are the
keys under which they stand. -/
theorem isWhole_fileText_iff {kept : List Result} :
    (fileText kept).isWhole = true ↔ ∀ r ∈ kept, IsWhole r := by
  have hresult : ∀ r : Result, (∀ t ∈ r.toJson.texts, t.isWhole = true) ↔ IsWhole r := by
    intro r
    simp only [Result.toJson, Json.texts, Json.textsOfEntries, Json.textsOfItems_eq_flatMap, IsWhole,
      List.forall_mem_cons, List.forall_mem_append, List.forall_mem_flatMap, CodeText.isWhole_ofString]
    simp
  rw [fileText, Json.isWhole_indented_iff, Json.texts, Json.textsOfItems_eq_flatMap]
  simp only [List.forall_mem_flatMap, List.forall_mem_map, hresult]

namespace Keep

variable {directory : String} {writers : List Writer}

/-- Each of the writers writes the same file. -/
theorem exists_filterMap_finish_eq_replicate {kept : List Result} (hkeep : Keep directory kept writers)
    (hne : kept ≠ []) (action stamp : String) :
    ∃ n, writers.filterMap (·.finish action stamp)
      = List.replicate (n + 1) (fileName directory action stamp, fileText kept) := by
  have hfinish : (file directory kept).finish action stamp
      = some (fileName directory action stamp, fileText kept) := by
    rw [finish, if_neg (mt List.isEmpty_iff.mp hne)]
  have hall : ∀ f ∈ writers.filterMap (·.finish action stamp),
      f = (fileName directory action stamp, fileText kept) := by
    intro f hf
    obtain ⟨w, hw, hf⟩ := List.mem_filterMap.mp hf
    rcases hkeep.eq_or_eq w hw with rfl | rfl
    · cases hf
    · exact (Option.some.inj (hfinish.symm.trans hf)).symm
  have hmem := List.mem_filterMap.mpr ⟨_, hkeep.mem, hfinish⟩
  refine ⟨(writers.filterMap (·.finish action stamp)).length - 1, ?_⟩
  rw [Nat.sub_add_cancel (List.length_pos_of_mem hmem)]
  exact List.eq_replicate_of_mem hall

end Keep

/-! ## Writers of settings -/

theorem keep_of_create {s : OutputSettings} {made : List Writer} (hmade : create s = .ok made)
    (hjson : "json" ∈ s.formats) : Keep (Location.join s.baseDir "json") [] made := by
  obtain ⟨-, hmade⟩ := ite_error_eq_ok_iff.mp hmade
  obtain rfl := Except.ok.inj hmade
  refine ⟨List.mem_filterMap.mpr ⟨"json", hjson, rfl⟩, fun w hw ↦ ?_⟩
  obtain ⟨format, -, hw⟩ := List.mem_filterMap.mp hw
  rw [ofFormat?] at hw
  split_ifs at hw
  · exact .inl (Option.some.inj hw).symm
  · exact .inr (Option.some.inj hw).symm

/-- Whether a record is what a note is read as. -/
def IsOfNote (r : Record) : Prop := ∃ path text note, Note.read path text = .ok note ∧ note.record = r

theorem IsOfNote.isCanonical {r : Record} (h : IsOfNote r) : ∀ e ∈ r.frontmatter, e.2.IsCanonical := by
  obtain ⟨path, text, note, hread, rfl⟩ := h
  exact Note.isCanonical_of_read hread

end NoteQuery.Writer
