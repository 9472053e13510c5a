import NoteQuery.Matching.Evaluate

/-!
# What happens while a query is applied

A query that finds nothing may have a pattern that cannot be read or a property expression that is no
query. Applying it meets such things and goes on; here they are told. Nothing is told that is not met: the
terms and clauses that a decided answer leaves out are left out here too.

The tests themselves stay free of this: what happens in a walk over clauses is read off the answers of the
tests that the walk makes.
-/

namespace NoteQuery

/-- Something that happens while a query is applied. -/
inductive Event
  /-- A text has been read as a query with so many clauses. -/
  | parsed (text : String) (count : Nat)
  /-- A pattern is passed over. -/
  | rejected (literal : PatternLiteral) (fault : PatternFault)
  /-- A property expression is no query. -/
  | unreadable (expression : String) (fault : QueryFault)
  /-- The operand of a property term has no entries. -/
  | malformed (payload reason : String)
deriving Repr, DecidableEq

namespace Event

/-- What an event says. -/
def message : Event → String
  | parsed text count => "Parsed query " ++ Text.quoted text ++ s!" into {count} clause(s)"
  | rejected literal fault =>
    "Rejecting regex " ++ String.ofList literal.toOperand ++ ": " ++ fault.message
  | unreadable expression fault =>
    "Property expression " ++ Text.quoted expression ++ " not parseable: " ++ fault.message
  | malformed payload reason => "Malformed property payload " ++ Text.quoted payload ++ ": " ++ reason

/-- Whether an event is a pattern passed over. -/
def isRejection : Event → Bool
  | rejected _ _ => true
  | _ => false

/-- The events that are told after some others: a pattern is compiled once, so passing it over is told
once. -/
def told (before : List Event) : List Event → List Event
  | [] => []
  | e :: rest =>
    if e.isRejection && before.contains e then told before rest else e :: told (e :: before) rest

end Event

namespace Matching.Trace

/-! ## Walks -/

/-- What happens in a walk that goes on while a test gives one answer. -/
def walk {α : Type} (goesOn : Bool) (test : α → Answer Bool) (happens : α → List Event) : List α → List Event
  | [] => []
  | a :: rest =>
    happens a ++
      match test a with
      | .ok answer => if answer = goesOn then walk goesOn test happens rest else []
      | .error _ => []

/-- What happens when one of some items is looked for. -/
def any {α : Type} (test : α → Answer Bool) (happens : α → List Event) (items : List α) : List Event :=
  walk false test happens items

/-- What happens when all of some items have to pass. -/
def all {α : Type} (test : α → Answer Bool) (happens : α → List Event) (items : List α) : List Event :=
  walk true test happens items

/-! ## Terms -/

/-- What happens when an operand is matched against a text. -/
def ofOperand (operand : String) : List Event :=
  match PatternLiteral.ofOperand? operand.toList with
  | none => []
  | some literal =>
    match literal.compile with
    | .ok _ => []
    | .error fault => if PatternLiteral.isHarmless fault then [.rejected literal fault] else []

/-- What happens when an operand is matched against the first of some texts, if there is one. What the
others add is the same again. -/
def ofParts {α : Type} (parts : List α) (operand : String) : List Event :=
  if parts.isEmpty then [] else ofOperand operand

/-- What happens when a query is read. -/
def ofParse (text : String) : Except QueryFault Query → List Event
  | .ok query => [.parsed text query.clauses.length]
  | .error fault => [.unreadable text fault]

/-- What happens when clauses are tried on texts. -/
def ofClauses (clauses : List (Clause Term)) (texts : List String) : List Event :=
  any (fun clause ↦ texts.anyM fun text ↦ clause.allM (operandHolds text))
    (fun clause ↦
      any (fun text ↦ clause.allM (operandHolds text))
        (fun text ↦ all (operandHolds text) (fun t ↦ ofOperand t.value) clause) texts)
    clauses

/-- What happens when a metadata value is tested against an expression. -/
def ofProperty (value : Value) (expression : String) : List Event :=
  let query := Query.parse expression Query.anyField none
  ofParse expression query ++
    match query, value.flatten with
    | .ok query, .ok texts => ofClauses query.clauses texts
    | _, _ => []

/-- What happens when front matter is tested against a request. -/
def ofRequest (frontmatter : Value) (r : Request) : List Event :=
  if r.name.isEmpty || r.expression.isEmpty then []
  else
    match frontmatter with
    | .map entries =>
      match keyNamed? (entries.map Prod.fst) r.name with
      | none | some .null => []
      | some _ => ofProperty (valueNamed entries r.name) r.expression
    | _ => []

/-- Why the operand of a property term has no entries. -/
def malformedReason (payload : String) : String :=
  match Json.parse? payload with
  | some j => s!"'{j.toValue.typeName}' object has no attribute 'get'"
  | none => "malformed JSON"

/-- What happens when front matter is tested against the operand of a property term. -/
def ofPayload (frontmatter : Value) (payload : String) : List Event :=
  match request? payload with
  | some r => ofRequest frontmatter r
  | none => [.malformed payload (malformedReason payload)]

/-- What happens when an operand is matched against the references. -/
def ofReferences (references : Value) (operand : String) : List Event :=
  match references.flatten with
  | .ok texts => ofParts texts operand
  | .error _ => []

/-- What happens when a field is tested. -/
def ofField (s : Subject) (key operand : String) : List Event :=
  if key = "tag" then ofParts (((s.get "tags").parts?).getD []) operand
  else if referenceKeys.contains key then ofReferences (s.get "references") operand
  else if key = "prop" then ofPayload (s.get "frontmatter") operand
  else ofOperand operand

/-- What happens when a term is tested. -/
def ofTerm (defaultKey : String) (s : Subject) (t : Term) : List Event :=
  let key := resolvedKey defaultKey t
  if key ≠ "prop" ∧ Text.isBlankText t.value then [] else ofField s key t.value

/-! ## Queries -/

/-- What happens when clauses are tried on a subject. -/
def ofSubject (clauses : List (Clause Term)) (defaultKey : String) (s : Subject) : List Event :=
  let key := normalKey defaultKey
  any (fun clause ↦ clause.allM (termHolds key s)) (all (termHolds key s) (ofTerm key s)) clauses

/-- What happens when clauses are tried on records, one after the other, until that goes wrong. -/
def ofRecords (clauses : List (Clause Term)) (defaultKey : String) : List Record → List Event
  | [] => []
  | r :: rest =>
    ofSubject clauses defaultKey (.ofRecord r) ++
      match holds clauses defaultKey (.ofRecord r) with
      | .ok _ => ofRecords clauses defaultKey rest
      | .error _ => []

end Matching.Trace

end NoteQuery
