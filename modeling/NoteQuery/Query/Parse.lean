import NoteQuery.Query.Clauses
import NoteQuery.Query.Scan

/-!
# Parsing a query

From the text of a query to its clauses: tokens, tree, disjunctive normal form.
-/

namespace NoteQuery

/-- A query in disjunctive normal form. -/
structure Query where
  /-- The clauses, of which one has to hold. -/
  clauses : List (Clause Term)
deriving Repr, DecidableEq

namespace Query

/-- Whether every record matches without being looked at: there is no clause, or one without terms. -/
def isMatchAll (q : Query) : Bool := q.clauses.isEmpty || q.clauses.any (·.isEmpty)

/-- The query that a text is. Bare words and phrases are terms of the field `defaultKey`; a cap bounds
the number of clauses. -/
def parse (text defaultKey : String) (cap : Clauses.Cap) : Except QueryFault Query := do
  let tokens ← tokenize text defaultKey
  let clauses ← Clauses.ofTree? cap (Tree.ofTokens tokens)
  return ⟨clauses⟩

/-- The key under which a bare word is a term whose field is chosen when the query is applied. -/
def anyField : String := "default"

end Query

end NoteQuery
