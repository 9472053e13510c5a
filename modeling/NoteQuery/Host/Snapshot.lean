import NoteQuery.Host.Basic

/-!
# A computer that is only described

A snapshot lists the files and the directories below the working directory, and the variables. A location
is followed segment by segment, and every place but the last has to be a directory: so `a/..` leads back
only if `a` is one, and a file with a slash behind it is nowhere.
-/

namespace NoteQuery

/-- A computer at one moment. Files and directories are given below the working directory. -/
structure Snapshot where
  /-- The place of the working directory, from the root on. -/
  workingDirectory : List String
  /-- The files. -/
  files : List VaultFile
  /-- Directories that need not hold files. -/
  directories : List (List String)
  /-- The variables that are set. -/
  variableValues : List (String × String)

namespace Snapshot

/-- The innermost directories that have to be there. -/
def innermost (s : Snapshot) : List (List String) :=
  [] :: (s.files.map (·.path.dropLast) ++ s.directories)

/-- Whether a place is a directory: whether one of the innermost ones is it or lies below it. -/
def isDirectory (s : Snapshot) (place : List String) : Bool :=
  s.innermost.any fun d ↦ place.isPrefixOf (s.workingDirectory ++ d)

/-- The file at a place. -/
def fileAt? (s : Snapshot) (place : List String) : Option VaultFile :=
  s.files.find? fun f ↦ s.workingDirectory ++ f.path = place

/-- What is at a place. -/
def kindAt? (s : Snapshot) (place : List String) : Option PlaceKind :=
  if s.isDirectory place then some .directory
  else if (s.fileAt? place).isSome then some .file
  else none

/-- The place that one segment leads to. -/
def step (place : List String) (segment : String) : List String :=
  if segment = "" ∨ segment = "." then place
  else if segment = ".." then place.dropLast
  else place ++ [segment]

/-- The place that segments lead to. Only a directory leads on. -/
def follow (s : Snapshot) (place : List String) : List String → Option (List String)
  | [] => some place
  | segment :: rest => if s.isDirectory place then follow s (step place segment) rest else none

/-- The place that a location names. The empty location names none. -/
def place? (s : Snapshot) (location : String) : Option (List String) :=
  if location.isEmpty then none
  else
    let start := if location.toList.head? = some '/' then [] else s.workingDirectory
    s.follow start ((Text.splitOn '/' location.toList).map String.ofList)

/-- The paths of the files below a place, seen from there. -/
def pathsBelow (s : Snapshot) (place : List String) : List (List String) :=
  (s.files.map fun f ↦ s.workingDirectory ++ f.path).filterMap fun path ↦
    if place.isPrefixOf path then some (path.drop place.length) else none

/-- A snapshot as the computer that a run sees. -/
def host (s : Snapshot) : Host Id where
  variableValue? name := s.variableValues.lookup name
  kind? location := (s.place? location).bind s.kindAt?
  bytes location := (((s.place? location).bind s.fileAt?).map (·.bytes)).getD []
  pathsBelow location := ((s.place? location).map s.pathsBelow).getD []

end Snapshot

end NoteQuery
