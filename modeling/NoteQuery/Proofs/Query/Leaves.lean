import NoteQuery.Query.Tree

/-!
# The leaves of a tree of tokens

Joints are dropped and parentheses discarded, but no term is: at every moment of the pass the leaves
of the operands, read from the lowest operand up, are the terms read so far. This holds of every
token list, however malformed.
-/

namespace NoteQuery

variable {α : Type}

namespace Stacks

/-- The leaves of a stack of operands, those of the lowest one first. -/
def leaves : List (Tree α) → List α
  | [] => []
  | t :: rest => leaves rest ++ t.leaves

theorem leaves_combine (op : Connective) (operands : List (Tree α)) :
    leaves (combine op operands) = leaves operands := by
  match operands with
  | [] => rfl
  | [_] => rfl
  | r :: l :: rest => rw [combine, leaves, leaves, leaves, Tree.leaves, List.append_assoc]

theorem leaves_reduce (ops : List Connective) (pending : List Pending) (operands : List (Tree α)) :
    leaves (reduce ops pending operands).2 = leaves operands := by
  induction pending generalizing operands with
  | nil => rfl
  | cons p pending ih =>
    cases p with
    | group => rfl
    | join op =>
      rw [reduce]
      split
      · rw [ih, leaves_combine]
      · rfl

theorem leaves_joinNeighbour (s : Stacks α) :
    leaves s.joinNeighbour.operands = leaves s.operands := by
  rw [joinNeighbour]
  split
  · exact leaves_reduce _ _ _
  · rfl

theorem leaves_push (s : Stacks α) (t : Token α) :
    leaves (s.push t).operands = leaves s.operands ++ Token.terms [t] := by
  cases t with
  | term a =>
    change leaves s.joinNeighbour.operands ++ [a] = _
    rw [leaves_joinNeighbour]
    rfl
  | or => exact (leaves_reduce _ _ _).trans (List.append_nil _).symm
  | opening => exact (leaves_joinNeighbour s).trans (List.append_nil _).symm
  | closing => exact (leaves_reduce _ _ _).trans (List.append_nil _).symm

theorem terms_cons (t : Token α) (ts : List (Token α)) :
    Token.terms (t :: ts) = Token.terms [t] ++ Token.terms ts := by
  cases t <;> rfl

/-- What the pass keeps: the leaves of the operands are the terms read so far. -/
theorem leaves_foldl_push (ts : List (Token α)) (s : Stacks α) :
    leaves (ts.foldl push s).operands = leaves s.operands ++ Token.terms ts := by
  induction ts generalizing s with
  | nil => exact (List.append_nil _).symm
  | cons t ts ih => rw [List.foldl_cons, ih, leaves_push, List.append_assoc, ← terms_cons]

theorem leaves_drain (pending : List Pending) (operands : List (Tree α)) :
    leaves (drain pending operands) = leaves operands := by
  induction pending generalizing operands with
  | nil => rfl
  | cons p pending ih =>
    cases p with
    | group => exact ih operands
    | join op => rw [drain, ih, leaves_combine]

theorem leaves_foldl_and (rest : List (Tree α)) (top : Tree α) :
    (rest.foldl (fun right left ↦ .node .and left right) top).leaves
      = leaves rest ++ top.leaves := by
  induction rest generalizing top with
  | nil => rfl
  | cons t rest ih => rw [List.foldl_cons, ih, leaves, Tree.leaves, List.append_assoc]

end Stacks

open Stacks

theorem leaves_ofTokens (ts : List (Token α)) :
    (Tree.ofTokens ts).elim [] Tree.leaves = Token.terms ts := by
  have hleaves := leaves_foldl_push ts Stacks.empty
  rw [← leaves_drain (ts.foldl push Stacks.empty).pending] at hleaves
  rw [Tree.ofTokens, finish]
  cases hdrain : drain (ts.foldl push Stacks.empty).pending
      (ts.foldl push Stacks.empty).operands with
  | nil =>
    rw [hdrain] at hleaves
    exact hleaves
  | cons top rest =>
    rw [hdrain] at hleaves
    exact (leaves_foldl_and rest top).trans hleaves

theorem Tree.leaves_ne_nil (t : Tree α) : t.leaves ≠ [] := by
  induction t with
  | leaf a => exact List.cons_ne_nil a []
  | node op l r ihl _ => exact List.append_ne_nil_of_left_ne_nil ihl r.leaves

theorem Tree.ofTokens_eq_none_iff {ts : List (Token α)} :
    Tree.ofTokens ts = none ↔ Token.terms ts = [] := by
  rw [← leaves_ofTokens]
  cases Tree.ofTokens ts with
  | none => exact iff_of_true rfl rfl
  | some t => exact iff_of_false nofun t.leaves_ne_nil

theorem mem_terms_of_mem_leaves {ts : List (Token α)} {t : Tree α} (h : Tree.ofTokens ts = some t)
    {a : α} (ha : a ∈ t.leaves) : a ∈ Token.terms ts := by
  rw [← leaves_ofTokens, h]
  exact ha

/-- **No term is lost.** Whatever the tokens are, the leaves of their tree are their terms, from left to
right and each once. There is no tree exactly if there is no term. -/
theorem tree_keeps_terms (ts : List (Token α)) :
    (∀ t, Tree.ofTokens ts = some t → t.leaves = Token.terms ts) ∧
      (Tree.ofTokens ts = none ↔ Token.terms ts = []) := by
  refine ⟨fun t ht ↦ ?_, Tree.ofTokens_eq_none_iff⟩
  rw [← leaves_ofTokens, ht]
  rfl

/-- In `) a OR ( b OR` no parenthesis has a partner and the last `OR` lacks an operand. -/
theorem tree_keeps_terms_of_stray_tokens :
    Tree.ofTokens [.closing, .term 'a', .or, .opening, .term 'b', .or]
        = some (.node .or (.leaf 'a') (.leaf 'b')) ∧
      Token.terms [.closing, .term 'a', .or, .opening, .term 'b', .or] = ['a', 'b'] :=
  ⟨rfl, ((tree_keeps_terms _).1 (.node .or (.leaf 'a') (.leaf 'b')) rfl).symm⟩

end NoteQuery
