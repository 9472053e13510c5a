import NoteQuery.Text.Search
import NoteQuery.Value.Mapping

/-!
# Records

A record is a note as the rest of the library sees it: where it lies in the vault, its body, an explicit
title if it has one, its front matter, its tags and the notes it refers to. A record without a title is
shown under the last part of its path without the suffix.
-/

namespace NoteQuery

/-- A note of the vault. -/
structure Record where
  /-- The path in the vault, its parts separated by slashes. -/
  path : String
  /-- The body. -/
  content : String
  /-- The explicit title. -/
  title : Option CodeText
  /-- The front matter. -/
  frontmatter : Mapping
  /-- The tags. -/
  tags : List CodeText
  /-- The notes referred to. -/
  references : List String
deriving Repr, Inhabited

/-- A file name without its suffix: without what follows the last point and the point, if anything
follows it. -/
def fileStem (name : List Char) : List Char :=
  match name.reverse.takeWhile (· != '.'), name.reverse.dropWhile (· != '.') with
  | _ :: _, _ :: before => before.reverse
  | _, _ => name

/-- The title under which a path is shown. -/
def pathTitle (path : List Char) : List Char := fileStem ((Text.splitOn '/' path).getLastD [])

namespace Record

/-- The record of a folder: nothing but a path. -/
def ofPath (path : String) : Record := ⟨path, "", none, [], [], []⟩

/-- The title under which a record is shown: its own unless that is missing or empty. -/
def displayTitle (r : Record) : CodeText :=
  match r.title with
  | some t => if t.isEmpty then String.ofList (pathTitle r.path.toList) else t
  | none => String.ofList (pathTitle r.path.toList)

end Record

end NoteQuery
