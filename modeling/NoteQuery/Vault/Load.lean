import NoteQuery.Forest.Basic
import NoteQuery.Note.Reading
import NoteQuery.Text.Lines
import NoteQuery.Text.Utf8

/-!
# Loading a vault

A vault is a directory of files. Its notes are the files with one of some suffixes whose path has no
segment that begins with a point. They are read in the order of their paths, compared segment by segment.
A note whose front matter names a value that does not exist stops the loading, and what was read before
it stays known.
-/

namespace NoteQuery

/-- A file of a vault. -/
structure VaultFile where
  /-- The segments of its path below the root. -/
  path : List String
  /-- Its bytes. -/
  bytes : List UInt8

namespace VaultFile

/-- The suffix of a file name: its last point and what follows, unless the point comes first or last. -/
def suffix (name : List Char) : List Char :=
  let last := name.reverse.takeWhile (· != '.')
  match name.reverse.dropWhile (· != '.') with
  | _ :: before => if last.isEmpty || before.isEmpty then [] else '.' :: last.reverse
  | [] => []

/-- Whether a segment of a path begins with a point. -/
def isHiddenPath (path : List String) : Bool := path.any fun s ↦ s.toList.head? = some '.'

/-- Whether the file with a path is a note, given the suffixes of notes. -/
def isNotePath (extensions : List String) (path : List String) : Bool :=
  !isHiddenPath path &&
    (extensions.map fun e ↦ Text.lower e.toList).contains (Text.lower (suffix (path.getLastD "").toList))

/-- Whether a file is a note. -/
def isNote (extensions : List String) (f : VaultFile) : Bool := isNotePath extensions f.path

/-- The text of a file: bytes that are no character are replaced, and every line end is a line feed. -/
def text (f : VaultFile) : String := String.ofList (Text.unifyLineEnds (Text.decodeUtf8From none f.bytes))

/-- The note that a file is. -/
def read (f : VaultFile) : Except Yaml.Fault Note := Note.read (pathOf f.path) f.text

end VaultFile

namespace Vault

/-- Whether a path comes before another or is the same: the first segments that differ decide. -/
def pathLe : List String → List String → Bool
  | [], _ => true
  | _ :: _, [] => false
  | a :: as, b :: bs => if a = b then pathLe as bs else a ≤ b

/-- The files that are notes, in the order of their paths. -/
def noteFiles (files : List VaultFile) (extensions : List String) : List VaultFile :=
  (files.filter (·.isNote extensions)).mergeSort fun f g ↦ pathLe f.path g.path

/-- What has been loaded of a vault. -/
structure Loaded where
  /-- The notes, in order. -/
  notes : List Note
  /-- What stopped the loading. -/
  stopped : Option Yaml.Fault

/-- Reads files up to the first that cannot be read. -/
def readAll : List VaultFile → Loaded
  | [] => ⟨[], none⟩
  | f :: rest =>
    match f.read with
    | .error fault => ⟨[], some fault⟩
    | .ok note =>
      let loaded := readAll rest
      ⟨note :: loaded.notes, loaded.stopped⟩

/-- The notes of a vault. -/
def load (files : List VaultFile) (extensions : List String) : Loaded := readAll (noteFiles files extensions)

/-- The records of a vault. -/
def records (files : List VaultFile) (extensions : List String) : Except Yaml.Fault (List Record) :=
  let loaded := load files extensions
  match loaded.stopped with
  | some fault => .error fault
  | none => .ok (loaded.notes.map (·.record))

/-- What is said about a root that is no directory. -/
def missingRoot (root : String) : String := "Vault root is not a directory: " ++ root

end Vault

end NoteQuery
