import NoteQuery.Proofs.Query.NormalForm

/-!
# Relabelling the leaves

Neither the pass that builds a tree from tokens nor the walk that makes its clauses looks into a term.
So both commute with replacing every term by another, whether two different terms stay different or
not. Two texts whose tokens agree after a relabelling have the same clauses after it, or are refused
with the same fault.
-/

namespace NoteQuery

variable {α β : Type} (f : α → β)

/-- The token with its term replaced. -/
def Token.map : Token α → Token β
  | term t => term (f t)
  | or => or
  | opening => opening
  | closing => closing

/-- The tree with its leaves replaced. -/
def Tree.map : Tree α → Tree β
  | leaf a => leaf (f a)
  | node op l r => node op l.map r.map

namespace Stacks

/-! ## Building the tree -/

/-- The state with the leaves of its operands replaced. -/
def map (s : Stacks α) : Stacks β := ⟨s.operands.map (Tree.map f), s.pending, s.afterOperand⟩

theorem combine_map (op : Connective) (operands : List (Tree α)) :
    combine op (operands.map (Tree.map f)) = (combine op operands).map (Tree.map f) := by
  match operands with
  | [] => rfl
  | [_] => rfl
  | _ :: _ :: _ => rfl

theorem reduce_map (ops : List Connective) (pending : List Pending) (operands : List (Tree α)) :
    reduce ops pending (operands.map (Tree.map f))
      = ((reduce ops pending operands).1, (reduce ops pending operands).2.map (Tree.map f)) := by
  induction pending generalizing operands with
  | nil => rfl
  | cons p pending ih =>
    cases p with
    | group => rfl
    | join op =>
      rw [reduce, reduce, combine_map, ih]
      split
      · rfl
      · rfl

theorem reduceBy_map (ops : List Connective) (s : Stacks α) :
    (s.map f).reduceBy ops = (s.reduceBy ops).map f := by
  rw [reduceBy, map, reduce_map]
  rfl

theorem joinNeighbour_map (s : Stacks α) : (s.map f).joinNeighbour = s.joinNeighbour.map f := by
  have hafter : (s.map f).afterOperand = s.afterOperand := rfl
  rw [joinNeighbour, joinNeighbour, reduceBy_map, hafter]
  split
  · rfl
  · rfl

theorem push_map (s : Stacks α) (t : Token α) : (s.map f).push (t.map f) = (s.push t).map f := by
  cases t with
  | term a =>
    rw [Token.map, push, joinNeighbour_map]
    rfl
  | or =>
    rw [Token.map, push, reduceBy_map]
    rfl
  | opening =>
    rw [Token.map, push, joinNeighbour_map]
    rfl
  | closing =>
    rw [Token.map, push, reduceBy_map]
    rfl

theorem foldl_push_map (ts : List (Token α)) (s : Stacks α) :
    (ts.map (Token.map f)).foldl push (s.map f) = (ts.foldl push s).map f := by
  induction ts generalizing s with
  | nil => rfl
  | cons t ts ih => rw [List.map_cons, List.foldl_cons, push_map, ih, List.foldl_cons]

theorem drain_map (pending : List Pending) (operands : List (Tree α)) :
    drain pending (operands.map (Tree.map f)) = (drain pending operands).map (Tree.map f) := by
  induction pending generalizing operands with
  | nil => rfl
  | cons p pending ih =>
    cases p with
    | group => exact ih operands
    | join op => rw [drain, combine_map, ih, drain]

theorem foldl_and_map (rest : List (Tree α)) (top : Tree α) :
    (rest.map (Tree.map f)).foldl (fun right left ↦ .node .and left right) (top.map f)
      = (rest.foldl (fun right left ↦ .node .and left right) top).map f := by
  induction rest generalizing top with
  | nil => rfl
  | cons t rest ih => exact ih (.node .and t top)

theorem finish_map (s : Stacks α) : (s.map f).finish = s.finish.map (Tree.map f) := by
  have hdrain : drain (s.map f).pending (s.map f).operands
      = (drain s.pending s.operands).map (Tree.map f) := drain_map f _ _
  rw [finish, finish, hdrain]
  cases drain s.pending s.operands with
  | nil => rfl
  | cons top rest => exact congrArg some (foldl_and_map f rest top)

end Stacks

theorem Tree.ofTokens_map (ts : List (Token α)) :
    Tree.ofTokens (ts.map (Token.map f)) = (Tree.ofTokens ts).map (Tree.map f) := by
  have hfold := Stacks.foldl_push_map f ts Stacks.empty
  rw [ofTokens, ofTokens, ← Stacks.finish_map, ← hfold]
  rfl

/-! ## Making the clauses -/

namespace Clauses

theorem product_map (left right : List (Clause α)) :
    product (left.map (List.map f)) (right.map (List.map f))
      = (product left right).map (List.map f) := by
  have hrow : ∀ l : Clause α, (right.map (List.map f)).map (fun r ↦ l.map f ++ r)
      = (right.map fun r ↦ l ++ r).map (List.map f) := by
    intro l
    rw [List.map_map, List.map_map]
    exact List.map_congr_left fun r _ ↦ List.map_append.symm
  rw [product, product, List.flatMap_map, List.map_flatMap]
  exact List.flatMap_congr fun l _ ↦ hrow l

theorem join_map (op : Connective) (left right : List (Clause α)) :
    join op (left.map (List.map f)) (right.map (List.map f))
      = (join op left right).map (List.map f) := by
  cases op with
  | and => exact product_map f left right
  | or => exact List.map_append.symm

/-- A cap counts clauses, so it refuses or allows a joint whatever its labels are. -/
theorem joinWithin_map (cap : Cap) (op : Connective) (left right : List (Clause α)) :
    joinWithin cap op (left.map (List.map f)) (right.map (List.map f))
      = (joinWithin cap op left right).map (List.map (List.map f)) := by
  rw [joinWithin, joinWithin, join_map, List.length_map, List.length_map]
  cases cap.limit? with
  | none => rfl
  | some limit =>
    dsimp only
    split
    · rfl
    · rfl

end Clauses

theorem Tree.clausesWithin_map (cap : Clauses.Cap) (t : Tree α) :
    (t.map f).clausesWithin cap = (t.clausesWithin cap).map (List.map (List.map f)) := by
  induction t with
  | leaf a => rfl
  | node op l r ihl ihr =>
    rw [Tree.map, clausesWithin, clausesWithin, ihl, ihr]
    cases l.clausesWithin cap with
    | error fault => rfl
    | ok left =>
      cases r.clausesWithin cap with
      | error fault => rfl
      | ok right => exact Clauses.joinWithin_map f cap op left right

theorem Clauses.ofTree?_map (cap : Cap) (t : Option (Tree α)) :
    ofTree? cap (t.map (Tree.map f)) = (ofTree? cap t).map (List.map (List.map f)) := by
  cases t with
  | none => rfl
  | some t =>
    change ofTree cap (t.map f) = (ofTree cap t).map _
    rw [ofTree_eq_clausesWithin, ofTree_eq_clausesWithin, Tree.clausesWithin_map]

/-! ## Queries -/

namespace Query

/-- The query with its terms replaced. -/
def map (f : Term → Term) (q : Query) : Query := ⟨q.clauses.map (List.map f)⟩

/-- The query that tokens make. -/
def ofTokens (cap : Clauses.Cap) (ts : List (Token Term)) : Except QueryFault Query :=
  (Clauses.ofTree? cap (Tree.ofTokens ts)).map Query.mk

theorem parse_eq_bind (text key : String) (cap : Clauses.Cap) :
    parse text key cap = (tokenize text key).bind (ofTokens cap) := by
  rw [parse]
  cases tokenize text key with
  | error fault => rfl
  | ok ts => rfl

theorem ofTokens_map (f : Term → Term) (cap : Clauses.Cap) (ts : List (Token Term)) :
    ofTokens cap (ts.map (Token.map f)) = (ofTokens cap ts).map (map f) := by
  rw [ofTokens, ofTokens, Tree.ofTokens_map, Clauses.ofTree?_map]
  cases Clauses.ofTree? cap (Tree.ofTokens ts) with
  | error fault => rfl
  | ok clauses => rfl

/-- Under two keys a text is the same query up to a relabelling if its tokens are the same up to
it. -/
theorem parse_map_congr {f : Term → Term} {text key key' : String}
    (h : (tokenize text key).map (List.map (Token.map f))
      = (tokenize text key').map (List.map (Token.map f))) (cap : Clauses.Cap) :
    (parse text key cap).map (map f) = (parse text key' cap).map (map f) := by
  have hparse : ∀ k, (parse text k cap).map (map f)
      = ((tokenize text k).map (List.map (Token.map f))).bind (ofTokens cap) := by
    intro k
    rw [parse_eq_bind]
    cases tokenize text k with
    | error fault => rfl
    | ok ts => exact (ofTokens_map f cap ts).symm
  rw [hparse, hparse, h]

end Query

end NoteQuery
