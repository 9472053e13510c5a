import NoteQuery.Proofs.Query.Grammar

/-!
# The tree of an expression

The pass over the tokens of an expression is followed part by part. Each part leaves the stacks as
it found them, with its own operands on top, up to joints that still wait for what comes next:

* after a factor nothing waits;
* after a conjunction only joints by `and` wait, which a further factor reduces;
* after an expression joints of either kind wait, which a closing parenthesis or the end reduces.

So what holds of each part is stated after the reduction that its successor makes. Its operands are
those of `Sketch.build`, whatever is left out; for a well-formed expression they are its tree, which
gives `ofTokens_tokens_eq_tree`.
-/

namespace NoteQuery

variable {α : Type} {gaps : Prop}

namespace Stacks

/-! ## Reducing -/

/-- The topmost pending operator is none of `ops`. -/
def Idle (ops : List Connective) : List Pending → Prop
  | .join op :: _ => op ∉ ops
  | _ => True

theorem idle_of_subset {ops ops' : List Connective} {pending : List Pending} (hsub : ops' ⊆ ops)
    (h : Idle ops pending) : Idle ops' pending := by
  match pending, h with
  | [], _ => trivial
  | .group :: _, _ => trivial
  | .join _ :: _, h => exact fun hmem ↦ h (hsub hmem)

theorem reduce_of_idle {ops : List Connective} {pending : List Pending} (h : Idle ops pending)
    (operands : List (Tree α)) : reduce ops pending operands = (pending, operands) := by
  match pending, h with
  | [], _ => rfl
  | .group :: _, _ => rfl
  | .join op :: pending, h => rw [reduce, if_neg (by simpa [Idle] using h)]

theorem reduce_join {ops : List Connective} {op : Connective} (h : op ∈ ops)
    (pending : List Pending) (operands : List (Tree α)) :
    reduce ops (.join op :: pending) operands = reduce ops pending (combine op operands) := by
  rw [reduce, if_pos (by simpa using h)]

theorem reduce_of_reduce_and {pending pending' : List Pending} {operands operands' : List (Tree α)}
    (h : reduce [.and] pending operands = (pending', operands')) :
    reduce [.and, .or] pending operands = reduce [.and, .or] pending' operands' := by
  induction pending generalizing operands with
  | nil =>
    obtain ⟨rfl, rfl⟩ := Prod.mk.inj h
    rfl
  | cons p pending ih =>
    match p with
    | .group =>
      obtain ⟨rfl, rfl⟩ := Prod.mk.inj h
      rfl
    | .join .or =>
      rw [reduce_of_idle (by simp [Idle])] at h
      obtain ⟨rfl, rfl⟩ := Prod.mk.inj h
      rfl
    | .join .and =>
      rw [reduce_join (by simp)] at h ⊢
      exact ih h

theorem drain_of_reduce {ops : List Connective} {pending pending' : List Pending}
    {operands operands' : List (Tree α)} (h : reduce ops pending operands = (pending', operands')) :
    drain pending operands = drain pending' operands' := by
  induction pending generalizing operands with
  | nil =>
    obtain ⟨rfl, rfl⟩ := Prod.mk.inj h
    rfl
  | cons p pending ih =>
    match p with
    | .group =>
      obtain ⟨rfl, rfl⟩ := Prod.mk.inj h
      rfl
    | .join op =>
      rw [reduce] at h
      split at h
      · rw [drain, ih h]
      · obtain ⟨rfl, rfl⟩ := Prod.mk.inj h
        rfl

/-! ## Single tokens, given what they reduce -/

theorem push_or {s : Stacks α} {pending : List Pending} {operands : List (Tree α)}
    (h : reduce [.and, .or] s.pending s.operands = (pending, operands)) :
    s.push .or = ⟨operands, .join .or :: pending, false⟩ := by
  rw [push, reduceBy, h]

theorem push_closing {s : Stacks α} {pending : List Pending} {operands : List (Tree α)}
    (h : reduce [.and, .or] s.pending s.operands = (pending, operands)) :
    s.push .closing = ⟨operands, pending.tail, true⟩ := by
  rw [push, reduceBy, h]

theorem joinNeighbour_afterOperand {s : Stacks α} {pending : List Pending}
    {operands : List (Tree α)} (hs : s.afterOperand = true)
    (h : reduce [.and] s.pending s.operands = (pending, operands)) :
    s.joinNeighbour = ⟨operands, .join .and :: pending, true⟩ := by
  rw [joinNeighbour, if_pos hs, reduceBy, h, hs]

end Stacks

open Stacks

/-! ## The pass over an expression -/

mutual

theorem Expression.reduce_foldl_push : ∀ (e : Expression α gaps) (operands : List (Tree α))
    (pending : List Pending), Idle [.and, .or] pending →
    reduce [.and, .or] (e.tokens.foldl push ⟨operands, pending, false⟩).pending
      (e.tokens.foldl push ⟨operands, pending, false⟩).operands = (pending, e.sketch.build operands)
  | .nothing _, operands, _, hidle => reduce_of_idle hidle operands
  | .single c, operands, pending, hidle => by
    -- what a conjunction leaves to be reduced is reduced by an `OR` as well
    have hc := (c.reduce_foldl_push operands pending (idle_of_subset (by simp) hidle)).2
    exact (reduce_of_reduce_and hc).trans (reduce_of_idle hidle _)
  | .orNothing _ e, operands, pending, hidle => by
    have he := e.reduce_foldl_push operands pending hidle
    rw [Expression.tokens, List.foldl_append, List.foldl_cons, List.foldl_nil, push_or he,
      reduce_join (by simp), reduce_of_idle hidle]
    rfl
  | .or e c, operands, pending, hidle => by
    have he := e.reduce_foldl_push operands pending hidle
    have hc := (c.reduce_foldl_push (e.sketch.build operands) (.join .or :: pending)
      (by simp [Idle])).2
    rw [Expression.tokens, List.foldl_append, List.foldl_cons, push_or he, reduce_of_reduce_and hc,
      reduce_join (by simp), reduce_of_idle hidle]
    rfl

theorem Conjunction.reduce_foldl_push : ∀ (c : Conjunction α gaps) (operands : List (Tree α))
    (pending : List Pending), Idle [.and] pending →
    (c.tokens.foldl push ⟨operands, pending, false⟩).afterOperand = true ∧
      reduce [.and] (c.tokens.foldl push ⟨operands, pending, false⟩).pending
        (c.tokens.foldl push ⟨operands, pending, false⟩).operands
          = (pending, c.sketch.build operands)
  | .single f, operands, pending, hidle => by
    rw [Conjunction.tokens, f.foldl_push]
    exact ⟨rfl, reduce_of_idle hidle _⟩
  | .and c f, operands, pending, hidle => by
    obtain ⟨hafter, hc⟩ := c.reduce_foldl_push operands pending hidle
    -- the factor reduces the joint before it, and leaves its own for what comes next
    rw [Conjunction.tokens, List.foldl_append, f.foldl_push, joinNeighbour_afterOperand hafter hc]
    refine ⟨rfl, ?_⟩
    rw [reduce_join (by simp), reduce_of_idle hidle]
    rfl

theorem Factor.foldl_push : ∀ (f : Factor α gaps) (s : Stacks α),
    f.tokens.foldl push s = ⟨f.sketch.build s.joinNeighbour.operands, s.joinNeighbour.pending, true⟩
  | .term _, _ => rfl
  | .group e, s => by
    -- a parenthesis on top is idle, so that nothing outside the group is reduced inside it
    have he :=
      e.reduce_foldl_push s.joinNeighbour.operands (.group :: s.joinNeighbour.pending) trivial
    rw [Factor.tokens, List.foldl_append, List.foldl_cons, List.foldl_cons, List.foldl_nil, push,
      push_closing he]
    rfl

end

/-- **The pass over an expression** builds what its sketch builds. -/
theorem Expression.ofTokens_tokens (e : Expression α gaps) :
    Tree.ofTokens e.tokens = (e.sketch.build []).head? := by
  have he := e.reduce_foldl_push [] [] trivial
  have hlen := e.sketch.length_build_le []
  rw [Tree.ofTokens, finish, empty, drain_of_reduce he, drain]
  -- at most one operand is there, so that none is left to be joined
  match e.sketch.build [], hlen with
  | [], _ => rfl
  | [_], _ => rfl

/-- **Precedence and grouping.** The tree of a well-formed token list is that of its expression:
`and` binds closer than `or`, both are folded from the left, and parentheses only group. -/
theorem ofTokens_tokens_eq_tree (e : Expression α False) :
    Tree.ofTokens e.tokens = some e.tree := by
  rw [e.ofTokens_tokens, e.build_sketch, List.head?_cons]

end NoteQuery
