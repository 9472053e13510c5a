import NoteQuery.Json.Printer
import NoteQuery.Note.Record
import NoteQuery.Query.Parse
import NoteQuery.Text.Blank

/-!
# Showing records and clauses

Records are shown as a numbered text or as JSON. In JSON a value that has no JSON form is its text, and
front matter has one entry a key even if distinct keys have one text. Clauses are shown as JSON.
-/

namespace NoteQuery.Output

/-! ## Text -/

/-- The lines of a record with its number. -/
def recordLines (number : Nat) (r : Record) : List String :=
  [s!"{number}. " ++ Text.escaped r.displayTitle, "   Path: " ++ r.path] ++
    (if r.tags.isEmpty then [] else
      ["   Tags: " ++ ", ".intercalate (r.tags.map fun t ↦ "#" ++ Text.escaped t)]) ++
    (if r.references.isEmpty then [] else ["   Refs: " ++ ", ".intercalate r.references]) ++ [""]

/-- The lines of records, the first of which has a given number. -/
def linesFrom (number : Nat) : List Record → List String
  | [] => []
  | r :: rest => recordLines number r ++ linesFrom (number + 1) rest

/-- Records as a text. -/
def text (records : List Record) : String :=
  match linesFrom 1 records with
  | [] => "No matching notes.\n"
  | lines => String.ofList (Text.trimEnd ("\n".intercalate lines).toList) ++ "\n"

/-! ## JSON -/

/-- Front matter as JSON. -/
def frontmatterJson (m : Mapping) : Except JsonFault Json :=
  (Json.ofEntries m).map fun es ↦ (Json.obj es).normal

/-- A record as JSON. -/
def recordJson (r : Record) : Except JsonFault Json :=
  (frontmatterJson r.frontmatter).map fun frontmatter ↦ .obj [
    ("path", .str r.path),
    ("title", .str r.displayTitle),
    ("tags", .arr (r.tags.map .str)),
    ("references", .arr (r.references.map fun s : String ↦ .str s)),
    ("frontmatter", frontmatter)]

/-- Records as JSON. -/
def json (records : List Record) : Except JsonFault (List Json) := records.mapM recordJson

/-- A term as JSON. -/
def termJson (t : Term) : Json := .obj [("key", .str t.key), ("value", .str t.value), ("neg", .bool t.neg)]

/-- Clauses as JSON. -/
def clausesJson (clauses : List (Clause Term)) : Json :=
  .arr (clauses.map fun clause ↦ .arr (clause.map termJson))

end NoteQuery.Output
