import NoteQuery.Vault.Load
import NoteQuery.Vault.Location

/-!
# The computer that a run sees

A run asks the computer for variables, for what is at a location, for the bytes of a file and for the paths
of the files below a directory; all else it decides by itself. So a run is defined for any such computer, the
real one or one that is only described.
-/

namespace NoteQuery

/-- What can be at a location. -/
inductive PlaceKind
  /-- A file. -/
  | file
  /-- A directory. -/
  | directory
deriving Repr, DecidableEq

/-- A computer as a run sees it, with answers in `m`. -/
structure Host (m : Type → Type) where
  /-- The value of a variable, if it is set. -/
  variableValue? : String → m (Option String)
  /-- What is at a location, if there is anything. -/
  kind? : String → m (Option PlaceKind)
  /-- The bytes of the file at a location. -/
  bytes : String → m (List UInt8)
  /-- The paths of the files below the directory at a location, in segments, seen from there. -/
  pathsBelow : String → m (List (List String))

namespace Host

variable {m : Type → Type} [Monad m]

/-- Whether there is something of a kind at a location. -/
def holds (host : Host m) (kind : PlaceKind) (location : String) : m Bool := do
  return (← host.kind? location) = some kind

/-- The value of a variable that is set and not empty. -/
def filled? (host : Host m) (name : String) : m (Option String) := do
  return (← host.variableValue? name).filter (!·.isEmpty)

/-- The file with a path below the directory at a location. -/
def fileBelow (host : Host m) (location : String) (path : List String) : m VaultFile := do
  return ⟨path, ← host.bytes (Location.below location path)⟩

/-- The notes below the directory at a location, if it is one. Files that are no notes are not read. -/
def notesOf? (host : Host m) (extensions : List String) (location : String) : m (Option (List VaultFile)) := do
  if ← host.holds .directory location then
    let paths := (← host.pathsBelow location).filter (VaultFile.isNotePath extensions)
    return some (← paths.mapM (host.fileBelow location))
  else return none

end Host

end NoteQuery
