import NoteQuery.Json.Reader
import NoteQuery.Matching.Subject
import NoteQuery.Matching.Text
import NoteQuery.Query.Parse
import NoteQuery.Value.Flatten

/-!
# Applying a query

A subject matches a query when all terms of one of its clauses hold. The key of a term says what is
tested: the body, the title, the path, the tags, the references, a property of the front matter, or the
attribute of that name. A term whose operand is still empty holds for everything, whichever sign it has.

Applying a query can go wrong in ways that are no answer: an operand is a pattern that cannot be compiled
at all, metadata has no JSON form, or an attribute that should be a collection is none. Terms and clauses
are tried in order and no further than needed, so a fault behind a decided answer is not met.

Operands are typed and hold no halves of characters. In the texts that they are matched against every half
is replaced.
-/

namespace NoteQuery

/-- Why a query cannot be applied. -/
inductive MatchFault
  /-- A pattern that cannot be compiled, other than by being malformed. -/
  | pattern (fault : PatternFault)
  /-- Metadata without a JSON form. -/
  | json (fault : JsonFault)
  /-- An attribute that has no parts. -/
  | noParts (typeName : String)
  /-- A collection in the place of front matter, whose parts cannot be looked up. -/
  | noLookup (typeName : String)
deriving Repr, DecidableEq

/-- What a fault says. -/
def MatchFault.message : MatchFault → String
  | .pattern fault => fault.message
  | .json fault => fault.message
  | .noParts typeName => s!"'{typeName}' object is not iterable"
  | .noLookup typeName => s!"{typeName} indices must be integers or slices, not str"

/-- The answer of a test that may go wrong. -/
abbrev Answer := Except MatchFault

/-- A JSON fault as a fault of applying a query. -/
def liftJson {α : Type} (r : Except JsonFault α) : Answer α := r.mapError .json

namespace Matching

/-- Whether an operand matches a text. -/
def textMatches (text operand : String) : Answer Bool := (matchesText text operand).mapError .pattern

/-! ## Tags -/

/-- The operand of a tag term in normal form: without one leading number sign, trimmed, in lower case. -/
def tagOperand (operand : List Char) : List Char :=
  Text.lower (Text.trim (Text.dropLeading '#' operand))

/-- Whether a tag is the one that a normal operand names, or lies below it. -/
def tagUnder (operand tag : List Char) : Bool := tag == operand || (operand ++ ['/']).isPrefixOf tag

/-- Whether an operand matches one of some tags, given in lower case. A pattern is searched for in the tag
and in the tag after a number sign. -/
def tagsMatch (tags : List (List Char)) (operand : List Char) : Answer Bool :=
  match PatternLiteral.ofOperand? operand with
  | some literal =>
    tags.anyM fun tag ↦ do
      if ← (literal.test tag).mapError .pattern then return true
      (literal.test ('#' :: tag)).mapError .pattern
  | none =>
    let query := tagOperand operand
    return query.isEmpty || tags.any (tagUnder query)

/-- Whether an operand matches the tags that an attribute holds. -/
def testTags (tags : Value) (operand : String) : Answer Bool :=
  if tags.isFilled then
    match tags.parts? with
    | some parts => tagsMatch (parts.map fun t ↦ Text.lower t.text.characters) operand.toList
    | none => .error (.noParts tags.typeName)
  else tagsMatch [] operand.toList

/-! ## Properties -/

/-- Whether a term of a property expression holds for one text. Its key is not regarded. -/
def operandHolds (text : String) (t : Term) : Answer Bool := do
  let found ← textMatches text t.value
  return found != t.neg

/-- Whether one of some texts fulfils one of some clauses in full. -/
def clausesHold (clauses : List (Clause Term)) (texts : List String) : Answer Bool :=
  clauses.anyM fun clause ↦ texts.anyM fun text ↦ clause.allM (operandHolds text)

/-- Whether a metadata value fulfils a property expression, which is a query of its own. -/
def propertyHolds (value : Value) (expression : String) : Answer Bool :=
  match Query.parse expression Query.anyField none with
  | .error _ => .ok false
  | .ok query => do
    let texts ← liftJson value.flatten
    clausesHold query.clauses texts

/-- What a property term asks for: the name in lower case, trimmed, and the expression, trimmed and empty
if there is none. -/
structure Request where
  /-- The name of the property. -/
  name : String
  /-- The expression. -/
  expression : String
deriving Repr, DecidableEq

/-- An entry of a payload as text, empty if it is missing or not filled. -/
def payloadText (entries : List (CodeText × Json)) (key : CodeText) : String :=
  match entries.lookup key with
  | some j => if j.toValue.isFilled then j.toValue.text.mended else ""
  | none => ""

/-- What the operand of a property term asks for, unless it is malformed. -/
def request? (payload : String) : Option Request :=
  match Json.parse? payload with
  | some (.obj entries) =>
    some ⟨Text.lowercase (Text.trimmed (payloadText entries "name")),
      Text.trimmed (payloadText entries "expr")⟩
  | _ => none

/-- The first key whose text in lower case is a given name. -/
def keyNamed? (keys : List Value) (name : String) : Option Value :=
  keys.find? fun k ↦ k.text.lowercase == (name : CodeText)

/-- The value of the first entry whose key, as text in lower case, is a given name. -/
def valueNamed (entries : Mapping) (name : String) : Value :=
  ((List.find? (fun e ↦ e.1.text.lowercase == (name : CodeText)) entries).map Prod.snd).getD .null

/-- Whether front matter fulfils a request. A request without a name is still being typed and holds. A key
that is no value is never found. -/
def requestHolds (frontmatter : Value) (r : Request) : Answer Bool :=
  if r.name.isEmpty then .ok true
  else
    let container := if frontmatter.isFilled then frontmatter else .map []
    match container.parts? with
    | none => .error (.noParts container.typeName)
    | some keys =>
      match keyNamed? keys r.name with
      | none | some .null => .ok false
      | some _ =>
        if r.expression.isEmpty then .ok true
        else
          match container with
          | .map entries => propertyHolds (valueNamed entries r.name) r.expression
          | v => .error (.noLookup v.typeName)

/-- Whether front matter fulfils a property term. -/
def testProperty (frontmatter : Value) (payload : String) : Answer Bool :=
  match request? payload with
  | some r => requestHolds frontmatter r
  | none => .ok false

/-! ## Terms -/

/-- Whether an operand matches an attribute as text. -/
def testAttribute (s : Subject) (name operand : String) : Answer Bool := do
  let text ← liftJson (s.get name).plain
  textMatches text operand

/-- Whether an operand matches one of the references. -/
def testReferences (references : Value) (operand : String) : Answer Bool := do
  let texts ← if references.isFilled then liftJson references.flatten else .ok []
  texts.anyM fun text ↦ textMatches text operand

/-- The keys under which the references are tested. -/
def referenceKeys : List String := ["references", "reference", "refs", "ref"]

/-- Whether an operand matches the field with a given key. -/
def testField (s : Subject) (key operand : String) : Answer Bool :=
  if key = "content" then testAttribute s "content" operand
  else if key = "title" || key = "file" then textMatches s.displayTitle.mended operand
  else if key = "path" then testAttribute s "path" operand
  else if key = "tag" then testTags (s.get "tags") operand
  else if referenceKeys.contains key then testReferences (s.get "references") operand
  else if key = "prop" then testProperty (s.get "frontmatter") operand
  else if key = "default" then do
    if ← testAttribute s "content" operand then return true
    textMatches s.displayTitle.mended operand
  else testAttribute s key operand

/-- The key under which a term is tested: bare words are tested under the default key. -/
def resolvedKey (defaultKey : String) (t : Term) : String :=
  if t.key = Query.anyField then defaultKey else t.key

/-- Whether a term holds. -/
def termHolds (defaultKey : String) (s : Subject) (t : Term) : Answer Bool :=
  let key := resolvedKey defaultKey t
  if key ≠ "prop" ∧ Text.isBlankText t.value then .ok true
  else do
    let found ← testField s key t.value
    return found != t.neg

/-! ## Clauses -/

/-- The default key in lower case; bare words are tested against the body if it is empty. -/
def normalKey (defaultKey : String) : String :=
  if defaultKey.isEmpty then "content" else Text.lowercase defaultKey

/-- Whether a subject fulfils one of some clauses; no clause at all is fulfilled by everything. -/
def holds (clauses : List (Clause Term)) (defaultKey : String) (s : Subject) : Answer Bool :=
  if clauses.isEmpty then .ok true
  else clauses.anyM fun clause ↦ clause.allM (termHolds (normalKey defaultKey) s)

end Matching

end NoteQuery
