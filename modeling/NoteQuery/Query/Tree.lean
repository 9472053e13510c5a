import NoteQuery.Query.Term

/-!
# The tree of a query

Neighbouring terms are joined by `and`, which binds closer than the word `OR`; parentheses group. The
tree is built in one pass over the tokens with a stack of operands and a stack of pending operators. The
pass refuses nothing: a closing parenthesis with no opening one reduces what it can, an opening one that
is never closed is dropped at the end, and so is an operator that finds fewer than two operands.

The tree is generic in its leaves. What it means is `Tree.holds`, for any reading of the leaves as truth
values.
-/

namespace NoteQuery

/-- How two parts of a query are joined. -/
inductive Connective
  /-- Both parts. -/
  | and
  /-- Either part. -/
  | or
deriving Repr, DecidableEq

/-- The tree of a query. -/
inductive Tree (α : Type)
  /-- A single term. -/
  | leaf (a : α)
  /-- Two parts, joined. -/
  | node (op : Connective) (left right : Tree α)
deriving Repr, DecidableEq

namespace Tree

variable {α : Type}

/-- The leaves, from left to right. -/
def leaves : Tree α → List α
  | leaf a => [a]
  | node _ l r => l.leaves ++ r.leaves

/-- The number of leaves and joints. -/
def size : Tree α → Nat
  | leaf _ => 1
  | node _ l r => l.size + r.size + 1

/-- Whether a tree holds when its leaves are read as truth values. -/
def holds (f : α → Bool) : Tree α → Bool
  | leaf a => f a
  | node .and l r => l.holds f && r.holds f
  | node .or l r => l.holds f || r.holds f

end Tree

/-! ## Building the tree -/

/-- An operator that waits for its right operand, or a group that waits for its end. -/
inductive Pending
  /-- A joint. -/
  | join (op : Connective)
  /-- An open group. -/
  | group
deriving Repr, DecidableEq

/-- The state of the pass over the tokens. Both stacks have their top first. -/
structure Stacks (α : Type) where
  /-- The finished operands. -/
  operands : List (Tree α)
  /-- The pending operators and open groups. -/
  pending : List Pending
  /-- Whether the last token ended an operand, so that a further operand is joined to it. -/
  afterOperand : Bool
deriving Repr

namespace Stacks

variable {α : Type}

/-- Nothing read yet. -/
def empty : Stacks α := ⟨[], [], false⟩

/-- Joins the two topmost operands. With fewer than two the joint is dropped. -/
def combine (op : Connective) : List (Tree α) → List (Tree α)
  | right :: left :: rest => .node op left right :: rest
  | operands => operands

/-- Joins operands as long as the topmost pending operator is one of `ops`. -/
def reduce (ops : List Connective) : List Pending → List (Tree α) → List Pending × List (Tree α)
  | .join op :: pending, operands =>
    if ops.contains op then reduce ops pending (combine op operands) else (.join op :: pending, operands)
  | pending, operands => (pending, operands)

/-- Reduces by `ops` and leaves the other parts of the state alone. -/
def reduceBy (ops : List Connective) (s : Stacks α) : Stacks α :=
  let (pending, operands) := reduce ops s.pending s.operands
  { s with operands, pending }

/-- Puts the joint of neighbouring operands, if an operand has just ended. -/
def joinNeighbour (s : Stacks α) : Stacks α :=
  if s.afterOperand then
    let t := s.reduceBy [.and]
    { t with pending := .join .and :: t.pending }
  else s

/-- The state after one more token. -/
def push (s : Stacks α) : Token α → Stacks α
  | .term a =>
    let t := s.joinNeighbour
    { t with operands := .leaf a :: t.operands, afterOperand := true }
  | .or =>
    let t := s.reduceBy [.and, .or]
    { t with pending := .join .or :: t.pending, afterOperand := false }
  | .opening =>
    let t := s.joinNeighbour
    { t with pending := .group :: t.pending, afterOperand := false }
  | .closing =>
    let t := s.reduceBy [.and, .or]
    { t with pending := t.pending.tail, afterOperand := true }

/-- Joins operands until no operator is pending; open groups are dropped. -/
def drain : List Pending → List (Tree α) → List (Tree α)
  | [], operands => operands
  | .group :: pending, operands => drain pending operands
  | .join op :: pending, operands => drain pending (combine op operands)

/-- The tree that the state comes to. Operands that are left over are joined from the right. -/
def finish (s : Stacks α) : Option (Tree α) :=
  match drain s.pending s.operands with
  | [] => none
  | top :: rest => some (rest.foldl (fun right left ↦ .node .and left right) top)

end Stacks

/-- The tree of some tokens; none if there is no term among them. -/
def Tree.ofTokens {α : Type} (ts : List (Token α)) : Option (Tree α) :=
  (ts.foldl Stacks.push Stacks.empty).finish

end NoteQuery
