import NoteQuery.Query.Tree

/-!
# The clauses of a query

A query is applied in disjunctive normal form: a list of clauses of which one has to hold, each a list
of terms which all have to hold. `Tree.clauses` is the definition by recursion. `Clauses.ofTree` is the
one that runs: a post-order walk with a stack of work and a stack of results, so that long queries need
no deep call stack, and with a cap on the number of clauses of every intermediate list.

A query without terms is one empty clause, which everything fulfils.
-/

namespace NoteQuery

/-- A conjunction. -/
abbrev Clause (α : Type) := List α

variable {α : Type}

namespace Clauses

/-- Every clause of the first list with every clause of the second, the first list outermost. -/
def product (left right : List (Clause α)) : List (Clause α) :=
  left.flatMap fun l ↦ right.map fun r ↦ l ++ r

/-- The clauses of two joined parts. -/
def join : Connective → List (Clause α) → List (Clause α) → List (Clause α)
  | .and, left, right => product left right
  | .or, left, right => left ++ right

/-- The number of clauses of two joined parts. -/
def joinCount : Connective → Nat → Nat → Nat
  | .and, left, right => left * right
  | .or, left, right => left + right

end Clauses

namespace Tree

/-- The clauses of a tree. -/
def clauses : Tree α → List (Clause α)
  | leaf a => [[a]]
  | node op l r => Clauses.join op l.clauses r.clauses

/-- The number of clauses of a tree. -/
def clauseCount : Tree α → Nat
  | leaf _ => 1
  | node op l r => Clauses.joinCount op l.clauseCount r.clauseCount

end Tree

namespace Clauses

/-! ## The walk -/

/-- A limit on the number of clauses. -/
abbrev Cap := Option Int

/-- The limit a cap sets: none and zero set none. -/
def Cap.limit? (cap : Cap) : Option Int := cap.filter (· != 0)

/-- The clauses of two joined parts, refused when there are more than the limit. -/
def joinWithin (cap : Cap) (op : Connective) (left right : List (Clause α)) :
    Except QueryFault (List (Clause α)) :=
  match cap.limit? with
  | none => .ok (join op left right)
  | some limit =>
    if limit < joinCount op left.length right.length then .error (.tooComplex limit)
    else .ok (join op left right)

/-- A piece of work: a tree to walk, or two results to join. -/
inductive Work (α : Type)
  /-- Walk a tree. -/
  | visit (t : Tree α)
  /-- Join the two topmost results. -/
  | join (op : Connective)

/-- A bound on the steps a piece of work takes. -/
def Work.weight : Work α → Nat
  | visit t => 2 * t.size
  | join _ => 1

/-- A bound on the steps that some work takes. -/
def Work.total : List (Work α) → Nat
  | [] => 0
  | w :: rest => w.weight + total rest

/-- Does the work, topmost first, on a stack of results. -/
def walk (cap : Cap) : List (Work α) → List (List (Clause α)) → Except QueryFault (List (List (Clause α)))
  | [], results => .ok results
  | .visit (.leaf a) :: work, results => walk cap work ([[a]] :: results)
  | .visit (.node op l r) :: work, results =>
    walk cap (.visit l :: .visit r :: .join op :: work) results
  | .join op :: work, right :: left :: results => do
    let joined ← joinWithin cap op left right
    walk cap work (joined :: results)
  | .join _ :: work, results => walk cap work results
termination_by work => Work.total work
decreasing_by
  all_goals simp only [Work.total, Work.weight, Tree.size]
  all_goals omega

/-- The clauses of a tree within a cap. -/
def ofTree (cap : Cap) (t : Tree α) : Except QueryFault (List (Clause α)) :=
  (walk cap [.visit t] []).map fun results ↦ results.headD []

/-- The clauses of a tree that may be missing. -/
def ofTree? (cap : Cap) : Option (Tree α) → Except QueryFault (List (Clause α))
  | none => .ok [[]]
  | some t => ofTree cap t

end Clauses

end NoteQuery
