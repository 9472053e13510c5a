import NoteQuery.Proofs.Query.NormalForm
import NoteQuery.Proofs.Query.Precedence

/-!
# Longer queries

A query that is typed on finds less with every further word and more with every further alternative. This
holds of every token list, also where parentheses have no partner, groups are empty and operands are
missing.

## The last operand

The argument does not follow the reductions that the further tokens cause. It is about the topmost operand
only. Whatever operators are pending, the topmost operand ends up at the end of the tree, as the right
operand of one joint after the other, and the joints and their left operands do not depend on it
(`finish_eq_joined`). A further word turns the topmost operand `t` into `t and word`, a further
alternative turns it into `t or word`, and the rest of the tree stays as it is. What holds of a tree is
monotone in what holds of its last operand, since neither joint negates.
-/

namespace NoteQuery

variable {α : Type}

/-! ## Trees with a last operand -/

/-- A joint that waits for its right operand. -/
abbrev LeftJoint (α : Type) := Connective × Tree α

namespace Tree

/-- The tree that ends in `last`, which is the right operand of the first of some joints, which is that
of the next. -/
def joined (joints : List (LeftJoint α)) (last : Tree α) : Tree α :=
  joints.foldl (fun right joint ↦ .node joint.1 joint.2 right) last

/-- If the last operand holds whenever another one does, so does the tree that ends in it. -/
theorem holds_joined_mono {f : α → Bool} {last last' : Tree α}
    (h : last.holds f = true → last'.holds f = true) (joints : List (LeftJoint α)) :
    (joined joints last).holds f = true → (joined joints last').holds f = true := by
  induction joints generalizing last last' with
  | nil => exact h
  | cons joint joints ih =>
    refine ih ?_
    obtain ⟨op, left⟩ := joint
    cases op with
    | and =>
      intro hnode
      rw [holds, Bool.and_eq_true] at hnode ⊢
      exact ⟨hnode.1, h hnode.2⟩
    | or =>
      intro hnode
      rw [holds, Bool.or_eq_true] at hnode ⊢
      exact hnode.imp_right h

end Tree

namespace Stacks

/-- The joints that end up above the topmost operand, given what is pending and the operands below it. -/
def joints : List Pending → List (Tree α) → List (LeftJoint α)
  | [], rest => rest.map fun left ↦ (.and, left)
  | .group :: pending, rest => joints pending rest
  | .join op :: pending, left :: rest => (op, left) :: joints pending rest
  | .join _ :: pending, [] => joints pending []

/-- **The last operand.** The topmost operand ends up at the end of the tree, below joints that do not
depend on it. -/
theorem finish_eq_joined (pending : List Pending) (top : Tree α) (rest : List (Tree α))
    (afterOperand : Bool) :
    finish ⟨top :: rest, pending, afterOperand⟩ = some (Tree.joined (joints pending rest) top) := by
  induction pending generalizing top rest with
  | nil => rw [joints, Tree.joined, List.foldl_map, finish, drain]
  | cons p pending ih =>
    cases p with
    | group => exact ih top rest
    | join op =>
      cases rest with
      | nil => exact ih top [] -- without a left operand the joint is dropped
      | cons left rest => exact ih (.node op left top) rest

theorem drain_nil (pending : List Pending) : drain pending ([] : List (Tree α)) = [] := by
  induction pending with
  | nil => rfl
  | cons p pending ih =>
    cases p with
    | group => exact ih
    | join op => exact ih

theorem finish_of_reduce {s : Stacks α} {ops : List Connective} {pending : List Pending}
    {operands : List (Tree α)} (h : reduce ops s.pending s.operands = (pending, operands))
    (afterOperand : Bool) : s.finish = finish ⟨operands, pending, afterOperand⟩ := by
  rw [finish, drain_of_reduce h, finish]

theorem afterOperand_push {s : Stacks α} {last : Token α}
    (h : last = .closing ∨ ∃ a, last = .term a) : (s.push last).afterOperand = true := by
  rcases h with rfl | ⟨a, rfl⟩
  · rfl
  · rfl

theorem push_term {s : Stacks α} {pending : List Pending} {operands : List (Tree α)}
    (hs : s.afterOperand = true) (h : reduce [.and] s.pending s.operands = (pending, operands))
    (a : α) : s.push (.term a) = ⟨.leaf a :: operands, .join .and :: pending, true⟩ := by
  rw [push.eq_def, joinNeighbour_afterOperand hs h]

end Stacks

open Stacks

/-! ## One more word, one more alternative -/

/-- After an operand, a further term is joined by `and` to the last operand, if there is one. -/
theorem ofTokens_append_term {ts : List (Token α)}
    (h : ts.getLast? = some .closing ∨ ∃ a, ts.getLast? = some (.term a)) (t : α) :
    Tree.ofTokens ts = none ∨ ∃ joints last,
      Tree.ofTokens ts = some (Tree.joined joints last) ∧
      Tree.ofTokens (ts ++ [.term t]) = some (Tree.joined joints (.node .and last (.leaf t))) := by
  have hafter : (ts.foldl push empty).afterOperand = true := by
    rcases List.eq_nil_or_concat ts with rfl | ⟨before, last, rfl⟩
    · simp at h
    · rw [List.concat_eq_append] at h ⊢
      rw [List.foldl_append]
      exact afterOperand_push (by simpa using h)
  -- the term reduces what binds as closely as the joint that it brings
  cases hreduce : reduce [.and] (ts.foldl push empty).pending (ts.foldl push empty).operands with
  | mk pending operands =>
    have hshort := finish_of_reduce hreduce true
    have hlong : (ts ++ [Token.term t]).foldl push empty
        = ⟨.leaf t :: operands, .join .and :: pending, true⟩ := by
      rw [List.foldl_append, List.foldl_cons, List.foldl_nil, push_term hafter hreduce]
    cases operands with
    | nil =>
      left
      rw [Tree.ofTokens, hshort, finish, drain_nil]
    | cons last rest =>
      refine .inr ⟨joints pending rest, last, ?_, ?_⟩
      · rw [Tree.ofTokens, hshort, finish_eq_joined]
      · rw [Tree.ofTokens, hlong, finish_eq_joined, joints]
        rfl

/-- Behind a query with a term, a further alternative is joined by `or` to the last operand. -/
theorem ofTokens_append_or_term {ts : List (Token α)} (h : Token.terms ts ≠ []) (t : α) :
    ∃ joints last, Tree.ofTokens ts = some (Tree.joined joints last) ∧
      Tree.ofTokens (ts ++ [.or, .term t]) = some (Tree.joined joints (.node .or last (.leaf t))) := by
  cases hreduce : reduce [.and, .or] (ts.foldl push empty).pending
      (ts.foldl push empty).operands with
  | mk pending operands =>
    have hshort := finish_of_reduce hreduce true
    have hlong : (ts ++ [Token.or, .term t]).foldl push empty
        = ⟨.leaf t :: operands, .join .or :: pending, true⟩ := by
      rw [List.foldl_append, List.foldl_cons, List.foldl_cons, List.foldl_nil, push_or hreduce]
      rfl
    cases operands with
    | nil =>
      -- no term is lost, so that one of them is in an operand
      have hleaves := leaves_ofTokens ts
      rw [Tree.ofTokens, hshort, finish, drain_nil] at hleaves
      exact absurd hleaves.symm h
    | cons last rest =>
      refine ⟨joints pending rest, last, ?_, ?_⟩
      · rw [Tree.ofTokens, hshort, finish_eq_joined]
      · rw [Tree.ofTokens, hlong, finish_eq_joined, joints]
        rfl

/-! ## What the clauses say -/

namespace Clauses

theorem ofTree?_none (t : Option (Tree α)) :
    ofTree? none t = .ok (t.elim [[]] Tree.clauses) := by
  cases t with
  | none => rfl
  | some t =>
    rw [ofTree?, ofTree_eq_clausesWithin, Tree.clausesWithin_none]
    rfl

/-- Some clause of a query holds in full exactly when its tree holds or is missing. -/
theorem any_elim_clauses (f : α → Bool) (t : Option (Tree α)) :
    (t.elim [[]] Tree.clauses).any (·.all f) = t.elim true (Tree.holds f) := by
  cases t with
  | none => rfl
  | some t => exact t.any_clauses f

end Clauses

/-- **Words narrow, alternatives widen.** With a further term behind an operand, a query holds only
where it held before; with a further alternative behind a query that has a term, it holds wherever it
held before. -/
theorem clauses_narrow_and_widen (ts : List (Token α)) (t : α) :
    ((ts.getLast? = some .closing ∨ ∃ a, ts.getLast? = some (.term a)) →
      ∃ short long, Clauses.ofTree? none (Tree.ofTokens ts) = .ok short ∧
        Clauses.ofTree? none (Tree.ofTokens (ts ++ [.term t])) = .ok long ∧
        ∀ f : α → Bool, long.any (·.all f) = true → short.any (·.all f) = true) ∧
    (Token.terms ts ≠ [] →
      ∃ short long, Clauses.ofTree? none (Tree.ofTokens ts) = .ok short ∧
        Clauses.ofTree? none (Tree.ofTokens (ts ++ [.or, .term t])) = .ok long ∧
        ∀ f : α → Bool, short.any (·.all f) = true → long.any (·.all f) = true) := by
  refine ⟨fun h ↦ ⟨_, _, Clauses.ofTree?_none _, Clauses.ofTree?_none _, fun f hf ↦ ?_⟩,
    fun h ↦ ⟨_, _, Clauses.ofTree?_none _, Clauses.ofTree?_none _, fun f hf ↦ ?_⟩⟩
  · rw [Clauses.any_elim_clauses] at hf ⊢
    rcases ofTokens_append_term h t with hnone | ⟨joints, last, hshort, hlong⟩
    · rw [hnone, Option.elim_none]
    · rw [hlong, Option.elim_some] at hf
      rw [hshort, Option.elim_some]
      refine Tree.holds_joined_mono (fun hnode ↦ ?_) joints hf
      rw [Tree.holds, Bool.and_eq_true] at hnode
      exact hnode.1
  · rw [Clauses.any_elim_clauses] at hf ⊢
    obtain ⟨joints, last, hshort, hlong⟩ := ofTokens_append_or_term h t
    rw [hshort, Option.elim_some] at hf
    rw [hlong, Option.elim_some]
    refine Tree.holds_joined_mono (fun hlast ↦ ?_) joints hf
    rw [Tree.holds, Bool.or_eq_true]
    exact .inl hlast

/-- The query `a (OR b))`, in which an operand and a parenthesis are missing, and `c`. -/
theorem clauses_narrow_and_widen_of_stray_parenthesis :
    let ts : List (Token Char) := [.term 'a', .opening, .or, .term 'b', .closing, .closing]
    (ts.getLast? = some .closing ∧
      Clauses.ofTree? none (Tree.ofTokens ts) = .ok [['a'], ['b']] ∧
      Clauses.ofTree? none (Tree.ofTokens (ts ++ [.term 'c'])) = .ok [['a', 'c'], ['b', 'c']] ∧
      ∀ f : Char → Bool, [['a', 'c'], ['b', 'c']].any (·.all f) = true →
        [['a'], ['b']].any (·.all f) = true) ∧
    Token.terms ts ≠ [] ∧
      Clauses.ofTree? none (Tree.ofTokens (ts ++ [.or, .term 'c'])) = .ok [['a'], ['b'], ['c']] ∧
      ∀ f : Char → Bool, [['a'], ['b']].any (·.all f) = true →
        [['a'], ['b'], ['c']].any (·.all f) = true := by
  intro ts
  have hlast : ts.getLast? = some .closing := rfl
  have hterms : Token.terms ts ≠ [] := List.cons_ne_nil _ _
  have hshort : Clauses.ofTree? none (Tree.ofTokens ts) = .ok [['a'], ['b']] :=
    Clauses.ofTree?_none _
  have hword : Clauses.ofTree? none (Tree.ofTokens (ts ++ [.term 'c']))
      = .ok [['a', 'c'], ['b', 'c']] := Clauses.ofTree?_none _
  have hor : Clauses.ofTree? none (Tree.ofTokens (ts ++ [.or, .term 'c']))
      = .ok [['a'], ['b'], ['c']] := Clauses.ofTree?_none _
  obtain ⟨hnarrow, hwiden⟩ := clauses_narrow_and_widen ts 'c'
  refine ⟨⟨hlast, hshort, hword, ?_⟩, hterms, hor, ?_⟩
  · obtain ⟨short, long, hs, hl, h⟩ := hnarrow (.inl hlast)
    cases hs.symm.trans hshort
    cases hl.symm.trans hword
    exact h
  · obtain ⟨short, long, hs, hl, h⟩ := hwiden hterms
    cases hs.symm.trans hshort
    cases hl.symm.trans hor
    exact h

end NoteQuery
