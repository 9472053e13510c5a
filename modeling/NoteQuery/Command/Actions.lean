import NoteQuery.Command.Journal
import NoteQuery.Output.Writer
import NoteQuery.Vault.Load

/-!
# The actions

Two things can be done with a query. A search applies it to the notes of a vault, hands the matches to the
writers that the settings ask for, and may show the folders with matches below them. The other prints the
clauses of the query.
-/

namespace NoteQuery.Command

/-- How a time is written: before a message, in the name of a log file, and in the name of a result file.
-/
structure Stamps where
  /-- Before a message. -/
  line : String
  /-- In the name of a log file. -/
  log : String
  /-- In the name of a result file. -/
  result : String

/-- How a time is written, unit by unit. -/
def Stamps.at (t : DateTime) : Stamps :=
  let two := Calendar.padded 2
  let day := two t.date.month ++ two t.date.day
  let clock := two t.hour ++ two t.minute ++ two t.second
  { line := s!"{two t.date.month}-{two t.date.day} {two t.hour}:{two t.minute}:{two t.second} "
    log := day ++ clock
    result := Calendar.padded 4 t.date.year ++ day ++ "_" ++ clock }

/-- What a search is asked for. -/
structure SearchRequest where
  /-- The query. -/
  query : String
  /-- Another field that bare words are tested against. -/
  defaultKey : Option String
  /-- Whether the folders are shown. -/
  tree : Bool

/-- The root of the vault that is searched, and its notes if it is a directory. -/
structure VaultRoot where
  /-- Its location. -/
  location : String
  /-- The notes below it. -/
  files : Option (List VaultFile)

namespace Action

/-! ## Search -/

/-- The message about front matter that is passed over. -/
def passedOver (note : Note) : Option Log.Message :=
  note.passedOver.map fun fault ↦ ⟨Log.warning, "Ignoring invalid frontmatter: " ++ fault.message⟩

/-- The records of a vault. -/
def load (root : VaultRoot) (extensions : List String) : Action (List Record) := do
  match root.files with
  | none => throw (.other (Vault.missingRoot root.location))
  | some files =>
    let loaded := Vault.load files extensions
    sayAll (loaded.notes.filterMap passedOver)
    match loaded.stopped with
    | some fault => throw (.other fault.message)
    | none =>
      say Log.info (s!"Loaded {loaded.notes.length} notes from " ++ root.location)
      return loaded.notes.map (·.record)

/-- The failure of a search. -/
def searchFailure : SearchFault → Failure
  | .query fault => .query fault
  | .matching fault => .other fault.message

/-- Reads a query and says so. -/
def parse (log : Log) (search : Search) (text : String) : Action Query := do
  let q ← ofExcept .query (search.parse text)
  tell log fun _ ↦ [.parsed text q.clauses.length]
  return q

/-- Says that a query is about to be applied. -/
def compiled (search : Search) (q : Query) : Action Unit :=
  say Log.debug
    (s!"Compiled predicate: clauses={q.clauses.length} default_key=" ++ Matching.normalKey search.defaultKey)

/-- What happens while a query is applied to records. -/
def happenings (search : Search) (q : Query) (records : List Record) : List Event :=
  Matching.Trace.ofRecords q.clauses search.defaultKey records

/-- The records that match a query. -/
def filter (log : Log) (search : Search) (records : List Record) (text : String) : Action (List Record) := do
  let q ← parse log search text
  compiled search q
  tell log fun _ ↦ Event.told [] (happenings search q records)
  let matched ← ofExcept searchFailure (search.filter records text)
  say Log.info s!"Matched {matched.length}/{records.length} records"
  return matched

/-- The messages about what of a forest is shown. -/
def shownMessages (v : Visibility) : List Log.Message :=
  ⟨Log.info, s!"Tree filter: total={v.total} visible={v.visible} (leaves={v.leaves}, folders={v.folders})"⟩ ::
    v.sortedPaths.map fun path ↦ ⟨Log.info, "visible: " ++ path⟩

/-- Shows the folders with matches below them. It follows a search with the same query, which has told of
every pattern that is passed over. -/
def showTree (log : Log) (search : Search) (records : List Record) (text : String) : Action Unit := do
  let forest := Forest.ofRecords records
  let q ← parse log search text
  if !q.isMatchAll then
    compiled search q
    tell log fun _ ↦ Event.told (happenings search q records) (happenings search q (Forest.leafRecords forest))
  sayAll (shownMessages (← ofExcept searchFailure (search.filterForest forest text)))

/-- Hands a result to the writers. -/
def handOver (writers : List Writer) (records : List Record) (query : String) : Action (List Writer) := do
  let taken := Writer.takeAll records query writers
  sayAll taken.messages
  match taken.refused with
  | some fault => throw (.other fault.message)
  | none => return taken.writers

/-- Writes a text into a file that is opened for it. If the text has no bytes the file is left empty. -/
def writeOpened (name : String) (text : CodeText) : Action Unit :=
  match Text.encodable text with
  | .ok text => write name text
  | .error fault => do
    write name ""
    throw (.other fault.message)

/-- Writes a result file and says so. -/
def save (name : String) (text : CodeText) : Action Unit := do
  writeOpened name text
  sayAll [Writer.savedMessage name]

/-- Has the writers write what they keep. -/
def finish (stamp action : String) (writers : List Writer) : Action Unit :=
  (writers.filterMap (·.finish action stamp)).forM fun f ↦ save f.1 f.2

/-- Searches a vault, whose root may not be known. -/
def search (log : Log) (stamp : String) (settings : Settings) (root : Option VaultRoot)
    (request : SearchRequest) : Action Unit := do
  let writers ← ofExcept .other (Writer.create settings.output)
  match root with
  | none => throw (.other "Could not determine home directory.")
  | some root =>
    let records ← load root settings.vault.extensions
    let search := Search.ofSettings settings request.defaultKey
    say Log.debug ("Running query=" ++ Text.quoted request.query ++ " default_key=" ++ search.defaultKey)
    let matched ← filter log search records request.query
    let writers ← handOver writers matched request.query
    if request.tree then showTree log search records request.query
    finish stamp "search" writers

/-! ## Clauses -/

/-- Prints the clauses of a query. -/
def printClauses (log : Log) (settings : Settings) (text : String) : Action Unit := do
  let q ← parse log (Search.ofSettings settings none) text
  print ((Output.clausesJson q.clauses).indented.mended ++ "\n")

end Action

end NoteQuery.Command
