import NoteQuery.Log
import NoteQuery.Output.Render
import NoteQuery.Settings.Basic
import NoteQuery.Text.Lines

/-!
# Writing results

A writer takes the results of queries one after the other. The console shows each at once. A result file
is opened when an action is done, for all results taken by then; none is opened if there are none. The text
for it keeps halves of characters as they are, and a text that holds one has no bytes. Several writers take the
same results in the order of the formats. A result that cannot be shown leaves the writers behind the one that
refuses it untouched.
-/

namespace NoteQuery

/-- The result of a query, as a result file holds it. -/
structure Result where
  /-- The text of the query. -/
  query : String
  /-- The records that match it. -/
  records : List Json

/-- A result as JSON. -/
def Result.toJson (r : Result) : Json := .obj [("query", .str r.query), ("records", .arr r.records)]

/-- A writer of one format. -/
inductive Writer
  /-- Shows results on the console. -/
  | console
  /-- Keeps results for a file in a directory. -/
  | file (directory : String) (kept : List Result)

namespace Writer

/-- The writer of a format. -/
def ofFormat? (baseDir format : String) : Option Writer :=
  if format = "console" then some console
  else if format = "json" then some (file (Location.join baseDir "json") [])
  else none

/-- The writers that settings ask for; formats that are not known have none. -/
def ofSettings (s : OutputSettings) : List Writer := s.formats.filterMap (ofFormat? s.baseDir)

/-- Why settings are refused that ask for no writer. -/
def noneConfigured : String := "No output writers configured"

/-- The writers that settings ask for, at least one. -/
def create (s : OutputSettings) : Except String (List Writer) :=
  if (ofSettings s).isEmpty then .error noneConfigured else .ok (ofSettings s)

/-! ## Taking results -/

/-- The messages with which the console shows a result. -/
def consoleMessages (records : List Record) (query : String) : List Log.Message :=
  ⟨Log.info, "query=" ++ query ++ s!" matches={records.length}"⟩ ::
    (Text.lines (Output.text records)).map fun line ↦ ⟨Log.info, line⟩

/-- Takes a result: the messages, and the writer afterwards. -/
def take (records : List Record) (query : String) : Writer → Except JsonFault (List Log.Message × Writer)
  | console => .ok (consoleMessages records query, console)
  | file directory kept =>
    (Output.json records).map fun shown ↦ ([], file directory (kept ++ [⟨query, shown⟩]))

/-- What several writers do with one result: the messages, the writers afterwards, and what stopped
them. -/
structure Taken where
  /-- The messages. -/
  messages : List Log.Message
  /-- The writers. -/
  writers : List Writer
  /-- Why a writer refused the result. -/
  refused : Option JsonFault

/-- Hands a result to every writer, up to one that refuses it. -/
def takeAll (records : List Record) (query : String) : List Writer → Taken
  | [] => ⟨[], [], none⟩
  | w :: rest =>
    match w.take records query with
    | .error fault => ⟨[], w :: rest, some fault⟩
    | .ok (messages, w) =>
      let taken := takeAll records query rest
      ⟨messages ++ taken.messages, w :: taken.writers, taken.refused⟩

/-! ## Finishing -/

/-- The name of the result file of an action. -/
def fileName (directory action stamp : String) : String :=
  Location.join directory (action ++ "_" ++ stamp ++ ".json")

/-- The text for a result file. -/
def fileText (kept : List Result) : CodeText := (Json.arr (kept.map Result.toJson)).indented

/-- The result file that a writer opens when an action is done: its name and the text for it. -/
def finish (action stamp : String) : Writer → Option (String × CodeText)
  | console => none
  | file directory kept =>
    if kept.isEmpty then none else some (fileName directory action stamp, fileText kept)

/-- The message about a result file. -/
def savedMessage (name : String) : Log.Message := ⟨Log.info, "JSON saved to " ++ name⟩

end Writer

end NoteQuery
