import NoteQuery.Note.Frontmatter
import NoteQuery.Note.Record
import NoteQuery.Note.References
import NoteQuery.Note.Tags

/-!
# Reading a note

From the text of a note to its record. The explicit title is the text under the key `title` of the front
matter, if it is a text and not blank. A note whose tags have no text cannot be read.
-/

namespace NoteQuery

/-- The explicit title in front matter. -/
def Frontmatter.title? (entries : Mapping) : Option CodeText :=
  match Mapping.get? entries "title" with
  | some (.str s) => if s.isBlank then none else some s.trimmed
  | _ => none

/-- A note that has been read. -/
structure Note where
  /-- Its record. -/
  record : Record
  /-- Why its front matter was passed over, if it was malformed. -/
  passedOver : Option Yaml.Fault

/-- The record with a path and with what a text holds. -/
def Frontmatter.record (path : String) (f : Frontmatter) : Record where
  path := path
  content := f.body
  title := Frontmatter.title? f.entries
  frontmatter := f.entries
  tags := Tags.ofNote f.body f.entries
  references := References.ofBody f.body

/-- The note with a path and a text. -/
def Note.read (path text : String) : Except Yaml.Fault Note := do
  let f ← Frontmatter.ofText text
  if Tags.areWritable f.entries then return ⟨f.record path, f.passedOver⟩ else throw .digits

end NoteQuery
