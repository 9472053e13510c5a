import NoteQuery.Note.Record
import NoteQuery.Value.Text

/-!
# What queries are applied to

A query is applied to anything with named attributes. A record has its six fields and the title under
which it is shown; an attribute that is missing counts as no value. Records may also be put together from
loosely typed arguments, with the same defaults and conversions as typed ones. What a record holds as a
string is whole: halves of characters are replaced there.
-/

namespace NoteQuery

/-- Something with named attributes. -/
structure Subject where
  /-- The attributes. -/
  attributes : List (String × Value)
deriving Repr, Inhabited

namespace Subject

/-- The value of an attribute; nothing if it is missing. -/
def get (s : Subject) (name : String) : Value := (s.attributes.lookup name).getD .null

/-- The title under which something with these attributes is shown. -/
def displayTitle (s : Subject) : CodeText :=
  let title := s.get "title"
  if title.isFilled then title.text
  else
    let path := s.get "path"
    let text := if path.isFilled then path.text.characters else []
    String.ofList (pathTitle text)

/-- The attributes of a record. -/
def ofRecord (r : Record) : Subject := ⟨[
  ("path", .str r.path),
  ("content", .str r.content),
  ("title", (r.title.map Value.str).getD .null),
  ("frontmatter", .map r.frontmatter),
  ("tags", .tuple (r.tags.map .str)),
  ("references", .tuple (r.references.map fun s : String ↦ .str s)),
  ("display_title", .str r.displayTitle)]⟩

end Subject

/-! ## Loosely typed records -/

/-- Why arguments make no record. -/
inductive ArgumentFault
  /-- The path is missing, or an argument has a name that no record knows. -/
  | names
  /-- An argument is not of a kind that can be taken apart. -/
  | kind
  /-- An entry of the front matter is not a pair. -/
  | pair
deriving Repr, DecidableEq

namespace Value

/-- The parts of a value that has parts: characters, items, keys or bytes. -/
def parts? : Value → Option (List Value)
  | str s => some (s.codes.map fun p ↦ .str ⟨[p]⟩)
  | list xs | tuple xs | set xs => some xs
  | map es => some (es.map Prod.fst)
  | bytes bs => some (bs.map fun b ↦ .int b.toNat)
  | _ => none

end Value

namespace Subject

/-- A value as a tuple of its parts; what is not filled has none. -/
def tupleOf (v : Value) : Except ArgumentFault Value :=
  if v.isFilled then
    match v.parts? with
    | some xs => .ok (.tuple xs)
    | none => .error .kind
  else .ok (.tuple [])

/-- An entry of a mapping given as a pair. -/
def pairOf (v : Value) : Except ArgumentFault (Value × Value) :=
  match v.parts? with
  | some [k, x] => if k.isHashable then .ok (k, x) else .error .kind
  | some _ => .error .pair
  | none => .error .kind

/-- A value as a mapping; what is not filled has no entries. -/
def mappingOf (v : Value) : Except ArgumentFault Mapping :=
  if v.isFilled then
    match v with
    | .map es => .ok es
    | v =>
      match v.parts? with
      | some xs => (xs.mapM pairOf).map Mapping.ofEntries
      | none => .error .kind
  else .ok []

/-- The names of a record's arguments. -/
def argumentNames : List String := ["path", "content", "title", "frontmatter", "tags", "references"]

/-- The subject that a record made of some arguments is. -/
def ofArguments (arguments : List (String × Value)) : Except ArgumentFault Subject := do
  if (arguments.lookup "path").isNone || arguments.any fun a ↦ !argumentNames.contains a.1 then
    throw .names
  let given : Subject := ⟨arguments⟩
  let frontmatter ← mappingOf (given.get "frontmatter")
  let tags ← tupleOf (given.get "tags")
  let references ← tupleOf (given.get "references")
  let fields := [
    ("path", given.get "path"),
    ("content", (arguments.lookup "content").getD (.str "")),
    ("title", given.get "title"),
    ("frontmatter", .map frontmatter),
    ("tags", tags),
    ("references", references)]
  return ⟨fields ++ [("display_title", .str (displayTitle ⟨fields⟩))]⟩

end Subject

namespace Record

/-- The texts of a list of texts. -/
def textsOf : List Value → Except ArgumentFault (List CodeText)
  | [] => .ok []
  | .str s :: rest => (textsOf rest).map (s :: ·)
  | _ :: _ => .error .kind

/-- The record made of some arguments, which have to be of the types of its fields. -/
def ofArguments (arguments : List (String × Value)) : Except ArgumentFault Record := do
  let s ← Subject.ofArguments arguments
  match s.get "path", s.get "content", s.get "title", s.get "frontmatter", s.get "tags", s.get "references" with
  | .str path, .str content, .str title, .map fm, .tuple tags, .tuple references =>
    return ⟨path.mended, content.mended, some title, fm, ← textsOf tags,
      (← textsOf references).map CodeText.mended⟩
  | .str path, .str content, .null, .map fm, .tuple tags, .tuple references =>
    return ⟨path.mended, content.mended, none, fm, ← textsOf tags, (← textsOf references).map CodeText.mended⟩
  | _, _, _, _, _, _ => throw .kind

end Record

end NoteQuery
