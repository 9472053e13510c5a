import NoteQuery.Forest.Visibility
import NoteQuery.Settings.Basic

/-!
# Searching records

A search has the field that bare words are tested against and the cap on the clauses of a query. It is
applied to a list of records, or to a forest of them.
-/

namespace NoteQuery

/-- Why a search fails. -/
inductive SearchFault
  /-- The query is at fault. -/
  | query (fault : QueryFault)
  /-- Applying the query goes wrong. -/
  | matching (fault : MatchFault)
deriving Repr, DecidableEq

/-- What a fault says. -/
def SearchFault.message : SearchFault → String
  | query fault => fault.message
  | matching fault => fault.message

/-- How queries are read and applied. -/
structure Search where
  /-- The field that bare words are tested against. -/
  defaultKey : String
  /-- The cap on the clauses of a query. -/
  cap : Clauses.Cap
deriving Repr, DecidableEq

namespace Search

/-- The search that settings ask for. Another default key may be given; an empty one is none. -/
def ofSettings (s : Settings) (defaultKey : Option String) : Search :=
  let given := defaultKey.filter (!·.isEmpty)
  { defaultKey := Text.lowercase (given.getD s.search.defaultKey)
    cap := if s.search.maxClauses = 0 then none else some s.search.maxClauses }

/-- The query that a text is. -/
def parse (s : Search) (text : String) : Except QueryFault Query := Query.parse text Query.anyField s.cap

/-- Whether a record matches a query. -/
def holds (s : Search) (q : Query) (r : Record) : Answer Bool :=
  Matching.holds q.clauses s.defaultKey (.ofRecord r)

/-- The records for which a test holds, in order. Every record is tested. -/
def select (test : Record → Answer Bool) : List Record → Answer (List Record)
  | [] => .ok []
  | r :: rest => do
    let kept ← test r
    let more ← select test rest
    return if kept then r :: more else more

/-- The records that match a query, in order. -/
def filter (s : Search) (records : List Record) (text : String) : Except SearchFault (List Record) := do
  let q ← (s.parse text).mapError .query
  (select (s.holds q) records).mapError .matching

/-- What a query shows of a forest. -/
def filterForest (s : Search) (forest : Forest) (text : String) : Except SearchFault Visibility := do
  let q ← (s.parse text).mapError .query
  let test := if q.isMatchAll then none else some (s.holds q)
  (Forest.visibility test forest).mapError .matching

end Search

end NoteQuery
