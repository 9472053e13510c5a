import NoteQuery.Value.Mapping
import NoteQuery.Value.Text
import NoteQuery.Yaml.Document

/-!
# Front matter

A note may open with a block of YAML between two fences. A fence is a line of three hyphens with nothing
but spaces and tabs after them. The block ends before a fence that stands behind a line end inside it; a
fence in the very first line of the block ends it only if there is no other.

Malformed YAML counts as an empty block, and the note keeps the body after it. A block that is well
formed but names a value that does not exist is a fault of the note, and so is a key without a text.
-/

namespace NoteQuery

namespace Fence

/-- The text after a line end, if it begins with one. -/
def lineEnd? : List Char → Option (List Char)
  | '\n' :: rest => some rest
  | '\r' :: '\n' :: rest => some rest
  | _ => none

/-- The text after three hyphens, spaces and tabs. -/
def hyphens? : List Char → Option (List Char)
  | '-' :: '-' :: '-' :: rest => some (rest.dropWhile fun c ↦ c = ' ' || c = '\t')
  | _ => none

/-- The text after an opening fence and its line end. -/
def opening? (cs : List Char) : Option (List Char) := (hyphens? cs).bind lineEnd?

/-- The text after a closing fence, which the end of the text may end too. -/
def closing? (cs : List Char) : Option (List Char) :=
  match hyphens? cs with
  | some [] => some []
  | some rest => lineEnd? rest
  | none => none

/-- The text before the first line end that a closing fence follows, and the text after the fence. -/
def splitClosing? : List Char → Option (List Char × List Char)
  | [] => none
  | c :: rest =>
    match (lineEnd? (c :: rest)).bind closing? with
    | some body => some ([], body)
    | none => (splitClosing? rest).map fun (block, body) ↦ (c :: block, body)

/-- The block and the body of a text that opens with a block. -/
def split? (cs : List Char) : Option (List Char × List Char) :=
  (opening? cs).bind fun rest ↦
    match splitClosing? rest with
    | some parts => some parts
    | none => (closing? rest).map fun body ↦ ([], body)

end Fence

/-- The front matter of a note, and what follows it. -/
structure Frontmatter where
  /-- The entries, all keys texts. -/
  entries : Mapping
  /-- The text after the block. -/
  body : String
  /-- Why the block was passed over, if it was malformed. -/
  passedOver : Option Yaml.Fault

namespace Frontmatter

/-- A mapping with the texts of its keys as keys. -/
def withTextKeys (m : Mapping) : Mapping := Mapping.ofEntries (m.map fun (k, v) ↦ (.str k.text, v))

/-- The front matter of a text. -/
def ofText (text : String) : Except Yaml.Fault Frontmatter :=
  match Fence.split? text.toList with
  | none => .ok ⟨[], text, none⟩
  | some (block, rest) =>
    let body := String.ofList rest
    match Yaml.parse block with
    | .ok (.map entries) =>
      if entries.all (·.1.isWritable) then .ok ⟨withTextKeys entries, body, none⟩ else .error .digits
    | .ok _ => .ok ⟨[], body, none⟩
    | .error .malformed => .ok ⟨[], body, some .malformed⟩
    | .error fault => .error fault

end Frontmatter

end NoteQuery
