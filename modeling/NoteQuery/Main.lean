import NoteQuery.Command.Run
import Std.Time.Zoned

/-!
# The program

Runs the program on the real computer: answers what a run asks for, writes the files that it leaves, and
shows its messages. What a run does is decided elsewhere.
-/

namespace NoteQuery.Program

/-- Where a location leads, as a directory without a file in it. -/
def entryAt (location : String) : IO.FS.DirEntry := ⟨location, ""⟩

/-- What is at a location. -/
def kindAt? (location : String) : IO (Option PlaceKind) := do
  let place := (entryAt location).root
  if ← place.isDir then return some .directory
  else if ← place.pathExists then return some .file
  else return none

/-- The paths of the files below a directory, given the path that leads there. Links to directories are not
followed. -/
partial def pathsFrom (location : String) (path : List String) : IO (List (List String)) := do
  let entries ← (entryAt location).root.readDir
  let found ← entries.toList.mapM fun entry ↦ do
    let path := path ++ [entry.fileName]
    let kind := (← entry.path.symlinkMetadata).type
    if kind == .dir then pathsFrom (location ++ "/" ++ entry.fileName) path
    else if ← entry.path.isDir then return []
    else return [path]
  return found.flatten

/-- The real computer. -/
def host : Host IO where
  variableValue? name := IO.getEnv name
  kind? := kindAt?
  bytes location := do return (← IO.FS.readBinFile location).toList
  pathsBelow location := pathsFrom location []

/-- The time at which the program runs. -/
def now : IO DateTime := do
  let t ← Std.Time.PlainDateTime.now
  let today : Date := ⟨t.year.toInt.toNat, t.month.toNat, t.day.toNat⟩
  return ⟨today, t.hour.toNat, t.minute.toNat, t.second.toNat, 0, none⟩

/-- Writes a file, and the directories that lead to it. -/
def writeFile (name text : String) : IO Unit := do
  let above := (Location.segments name).dropLast
  if !above.isEmpty then IO.FS.createDirAll (Location.build (Location.root name) above)
  IO.FS.writeFile name text

/-- How the program is used. -/
def usage : String :=
  "Usage: notequery [--config FILE] search [--vault DIRECTORY] [--default-key KEY] [--tree] [QUERY]...\n" ++
    "       notequery [--config FILE] parse [QUERY]...\n"

end NoteQuery.Program

open NoteQuery

/-- Runs the program with its arguments. -/
def main (arguments : List String) : IO UInt32 := do
  let stamps := Command.Stamps.at (← Program.now)
  match ← Command.run Program.host stamps arguments with
  | .error .misuse =>
    IO.eprint Program.usage
    return 2
  | .error (.settings fault) =>
    IO.eprintln fault.message
    return 1
  | .ok report =>
    for (name, text) in report.files stamps do Program.writeFile name text
    IO.print report.journal.printed
    IO.eprint (report.errorText stamps)
    return UInt32.ofNat report.exitStatus
