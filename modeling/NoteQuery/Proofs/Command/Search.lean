import NoteQuery.Command.Run
import NoteQuery.Proofs.Command.ResultFiles
import NoteQuery.Proofs.Forest.Filtering
import NoteQuery.Proofs.Vault.Loading
import NoteQuery.Proofs.Vault.Location

/-!
# What a search leaves

A search writes its result file last, when all its stages have gone well. If it is aborted before, at whatever
point, the one file it can leave is the log file. If it comes to its end and writes results as JSON, the result
file holds one result: the query, with the records of the vault that match it. What is shown of the folders
has no part in this, and a result without records is written too.

Only one thing can still go wrong when the file is written: its text may hold half of a character, and then it
cannot be made into bytes. The file has been opened by then, so the search is aborted and leaves it empty.
-/

namespace NoteQuery.Command

/-! ## Results -/

/-- Whether all stages of a search go well, with these writers, records and matches. -/
structure GoesWell (settings : Settings) (root : Option VaultRoot) (request : SearchRequest)
    (made : List Writer) (records matched : List Record) : Prop where
  /-- The settings ask for writers. -/
  create_eq : Writer.create settings.output = .ok made
  /-- The vault is a directory, and its notes can be read. -/
  load_eq : ∃ location files, root = some ⟨location, some files⟩ ∧
    Vault.records files settings.vault.extensions = .ok records
  /-- The query can be read and applied to them. -/
  filter_eq : (Search.ofSettings settings request.defaultKey).filter records request.query = .ok matched
  /-- The writers take the result. -/
  refused_eq : (Writer.takeAll matched request.query made).refused = none
  /-- The query can be applied to the folders, if these are shown. -/
  showTree_eq : request.tree = true → ∃ shown,
    (Search.ofSettings settings request.defaultKey).filterForest (Forest.ofRecords records) request.query
      = .ok shown

/-- Whether all stages of a search go well, but the records that are to be written as JSON hold half of a
character. -/
def StumblesOnHalf (settings : Settings) (root : Option VaultRoot) (request : SearchRequest) : Prop :=
  ∃ made records matched shown, GoesWell settings root request made records matched ∧
    "json" ∈ settings.output.formats ∧ Output.json matched = .ok shown ∧ ¬Writer.IsWhole ⟨request.query, shown⟩

namespace GoesWell

variable {settings : Settings} {root : Option VaultRoot} {request : SearchRequest} {made : List Writer}
  {records matched : List Record}

/-- The writers keep the result of a search that goes well, if results are written as JSON. -/
theorem keep (h : GoesWell settings root request made records matched)
    (hjson : "json" ∈ settings.output.formats) {shown : List Json} (hshown : Output.json matched = .ok shown) :
    Writer.Keep (Location.join settings.output.baseDir "json") [⟨request.query, shown⟩]
      (Writer.takeAll matched request.query made).writers := by
  rw [(Writer.takeAll_of_ok hshown request.query made).1]
  exact (Writer.keep_of_create h.create_eq hjson).map_keep ⟨request.query, shown⟩

end GoesWell

/-! ## Searches -/

namespace Action

variable {settings : Settings} {root : Option VaultRoot} {request : SearchRequest}

/-- A search whose stages go well ends as the writing of its result does. -/
theorem reaches_finish {made : List Writer} {records matched : List Record}
    (h : GoesWell settings root request made records matched) (log : Log) (stamp : String) :
    Reaches (search log stamp settings root request)
      (finish stamp "search" (Writer.takeAll matched request.query made).writers) := by
  obtain ⟨location, files, rfl, hrecords⟩ := h.load_eq
  refine (reaches_ofExcept _ h.create_eq).bind ((reaches_load rfl hrecords).bind ?_)
  refine (reaches_sayAll _).bind ((reaches_filter log h.filter_eq).bind ?_)
  refine (reaches_handOver h.refused_eq).bind ?_
  dsimp only
  split
  · rename_i htree
    obtain ⟨shown, hshown⟩ := h.showTree_eq htree
    exact (reaches_showTree log hshown).bind (.refl _)
  · exact .refl _

end Action

/-! ## Names of files -/

theorem suffix_fileName (directory action stamp : String) :
    ".json".toList <:+ (Writer.fileName directory action stamp).toList := by
  refine Location.suffix_join (by decide) (by decide) ?_ directory
  rw [String.toList_append]
  exact List.suffix_append _ _

theorem suffix_fileFor (directory action stamp : String) :
    ".log".toList <:+ (Log.fileFor directory action stamp).toList := by
  refine Location.suffix_join (by decide) (by decide) ?_ _
  rw [String.toList_append]
  exact List.suffix_append _ _

theorem fileFor_ne_fileName (directory action stamp directory' action' stamp' : String) :
    Log.fileFor directory action stamp ≠ Writer.fileName directory' action' stamp' := by
  intro heq
  have hlog := suffix_fileFor directory action stamp
  rw [heq] at hlog
  have hjson := suffix_fileName directory' action' stamp'
  have hsuffix := List.suffix_of_suffix_length_le hlog hjson (by decide)
  exact absurd hsuffix (by decide)

/-! ## Reports -/

/-- A report has the files of its journal and its log file, which takes the place of another of its name. -/
theorem Report.mem_files_iff (r : Report) (stamps : Stamps) (f : String × String) :
    f ∈ r.files stamps ↔ f ∈ r.journal.files ∧ r.log.file ≠ some f.1 ∨
      r.log.file = some f.1 ∧ f.2 = r.log.fileText stamps.line r.journal.messages := by
  rw [files]
  split
  · rename_i hnone
    simp [hnone]
  · rename_i name hname
    rw [hname, Journal.withFile, List.mem_append, List.mem_filter, List.mem_singleton, Prod.ext_iff,
      decide_eq_true_iff, ne_eq, ne_eq, Option.some.injEq, eq_comm]

theorem eq_fileFor_of_report {stamps : Stamps} {settings : Settings} {command : CommandName}
    {action : Log → Action Unit} {name : String}
    (h : (report stamps settings command action).log.file = some name) :
    name = Log.fileFor settings.log.dir command.name stamps.log := by
  rw [report] at h
  dsimp only [Log.configure] at h
  split at h
  · exact (Option.some.inj h).symm
  · cases h

theorem Action.run_eq (doing : String) (action : Action Unit) (before : Journal) :
    (Action.run doing action before).2 = !(ExceptT.run action before).1.isOk ∧
      (Action.run doing action before).1.files = (ExceptT.run action before).2.files := by
  rw [Action.run]
  split
  · rename_i hrun
    rw [hrun]
    exact ⟨rfl, rfl⟩
  · rename_i hrun
    rw [hrun]
    exact ⟨rfl, rfl⟩

/-- A command runs on a journal without files. -/
theorem exists_run_of_report (stamps : Stamps) (settings : Settings) (command : CommandName)
    (action : Log → Action Unit) :
    ∃ (log : Log) (j : Journal), j.files = [] ∧
      (report stamps settings command action).aborted = !(ExceptT.run (action log) j).1.isOk ∧
      (report stamps settings command action).journal.files = (ExceptT.run (action log) j).2.files :=
  ⟨_, _, rfl, Action.run_eq command.doing _ _⟩

/-- The report of a search. -/
def searchReport (stamps : Stamps) (settings : Settings) (root : Option VaultRoot)
    (request : SearchRequest) : Report :=
  report stamps settings .search fun log ↦ Action.search log stamps.result settings root request

/-- The name of the result file of a search. -/
def resultFile (stamps : Stamps) (settings : Settings) : String :=
  Writer.fileName (Location.join settings.output.baseDir "json") "search" stamps.result

section

variable (stamps : Stamps) {settings : Settings} {root : Option VaultRoot} {request : SearchRequest}

/-- The log file does not take the place of a result file. -/
theorem mem_files_of_mem_journal {directory action stamp text : String}
    (h : (Writer.fileName directory action stamp, text) ∈
      (searchReport stamps settings root request).journal.files) :
    (Writer.fileName directory action stamp, text) ∈
      (searchReport stamps settings root request).files stamps := by
  refine (Report.mem_files_iff _ stamps _).mpr (.inl ⟨h, ?_⟩)
  intro hlog
  exact fileFor_ne_fileName _ _ _ _ _ _ (eq_fileFor_of_report hlog).symm

namespace GoesWell

variable {made : List Writer} {records matched : List Record} {shown : List Json}

/-- A search whose stages go well ends as the writing of its result does, with no file before. -/
theorem exists_run_finish (h : GoesWell settings root request made records matched) :
    ∃ j : Journal, j.files = [] ∧
      (searchReport stamps settings root request).aborted
        = !(ExceptT.run (Action.finish stamps.result "search"
            (Writer.takeAll matched request.query made).writers) j).1.isOk ∧
      (searchReport stamps settings root request).journal.files
        = (ExceptT.run (Action.finish stamps.result "search"
            (Writer.takeAll matched request.query made).writers) j).2.files := by
  obtain ⟨log, j, hj, haborted, hfiles⟩ := exists_run_of_report stamps settings .search fun log ↦
    Action.search log stamps.result settings root request
  obtain ⟨j', hj', hrun⟩ := Action.reaches_finish h log stamps.result j
  rw [hrun] at haborted hfiles
  exact ⟨j', hj'.trans hj, haborted, hfiles⟩

theorem outcome_of_not_isWhole (h : GoesWell settings root request made records matched)
    (hjson : "json" ∈ settings.output.formats) (hshown : Output.json matched = .ok shown)
    (hhalf : ¬Writer.IsWhole ⟨request.query, shown⟩) :
    (searchReport stamps settings root request).aborted = true ∧
      (searchReport stamps settings root request).journal.files = [(resultFile stamps settings, "")] := by
  obtain ⟨j, hj, haborted, hfiles⟩ := h.exists_run_finish stamps
  obtain ⟨failure, hfinish⟩ := (h.keep hjson hshown).run_finish_of_not_isWhole (List.cons_ne_nil _ _)
    (mt List.forall_mem_singleton.mp hhalf) "search" stamps.result j
  rw [haborted, hfiles, hfinish, hj]
  exact ⟨rfl, rfl⟩

end GoesWell

/-! ## All or nothing -/

theorem StumblesOnHalf.aborted (h : StumblesOnHalf settings root request) :
    (searchReport stamps settings root request).aborted = true ∧
      (resultFile stamps settings, "") ∈ (searchReport stamps settings root request).files stamps := by
  obtain ⟨made, records, matched, shown, hwell, hjson, hshown, hhalf⟩ := h
  obtain ⟨haborted, hfiles⟩ := hwell.outcome_of_not_isWhole stamps hjson hshown hhalf
  refine ⟨haborted, mem_files_of_mem_journal stamps ?_⟩
  rw [hfiles]
  exact List.mem_singleton_self _

end

/-! ### A vault with one note -/

end NoteQuery.Command
