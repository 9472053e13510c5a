import NoteQuery.Proofs.Query.Precedence

/-!
# No operand is left over

Every operand but the first has a joint that waits to take it up: a term or a group is put next to
another operand only together with a joint. A joint that is reduced goes away with an operand, or is
dropped when there are no two operands to join. So at every moment of the pass there is at most one
operand more than there are pending joints, and right after an `OR` or an opening parenthesis not even
that (`IsCovered`). Once no joint is pending at most one operand is there, and nothing is left for the
end of the pass to join.
-/

namespace NoteQuery

variable {α : Type}

namespace Stacks

/-! ## Pending joints -/

/-- The number of pending joints. -/
def jointCount : List Pending → Nat
  | [] => 0
  | .group :: pending => jointCount pending
  | .join _ :: pending => jointCount pending + 1

theorem length_reduce_le (ops : List Connective) {pending : List Pending} {operands : List (Tree α)}
    (h : operands.length ≤ jointCount pending + 1) :
    (reduce ops pending operands).2.length ≤ jointCount (reduce ops pending operands).1 + 1 := by
  induction pending generalizing operands with
  | nil => exact h
  | cons p pending ih =>
    cases p with
    | group => exact h
    | join op =>
      rw [reduce]
      split
      · exact ih (Sketch.length_combine_le h)
      · exact h

theorem length_drain_le {pending : List Pending} {operands : List (Tree α)}
    (h : operands.length ≤ jointCount pending + 1) : (drain pending operands).length ≤ 1 := by
  induction pending generalizing operands with
  | nil => exact h
  | cons p pending ih =>
    cases p with
    | group => exact ih h
    | join op => exact ih (Sketch.length_combine_le h)

/-- After all joints are reduced no joint is on top, so that no joint is dropped with the top. -/
theorem jointCount_tail_reduce (pending : List Pending) (operands : List (Tree α)) :
    jointCount (reduce [.and, .or] pending operands).1.tail
      = jointCount (reduce [.and, .or] pending operands).1 := by
  induction pending generalizing operands with
  | nil => rfl
  | cons p pending ih =>
    cases p with
    | group => rfl
    | join op =>
      have hop : op ∈ [Connective.and, Connective.or] := by cases op <;> simp
      rw [reduce_join hop]
      exact ih _

/-! ## What the pass keeps -/

/-- There are no more operands than pending joints, or one more right after an operand. -/
def IsCovered (s : Stacks α) : Prop := s.operands.length ≤ jointCount s.pending + s.afterOperand.toNat

namespace IsCovered

variable {s : Stacks α} (hs : s.IsCovered)
include hs

theorem length_le : s.operands.length ≤ jointCount s.pending + 1 :=
  Nat.le_trans hs (Nat.add_le_add_left s.afterOperand.toNat_le _)

theorem length_reduceBy_le (ops : List Connective) :
    (s.reduceBy ops).operands.length ≤ jointCount (s.reduceBy ops).pending + 1 :=
  length_reduce_le ops hs.length_le

theorem length_joinNeighbour_le : s.joinNeighbour.operands.length ≤ jointCount s.joinNeighbour.pending := by
  rw [joinNeighbour]
  split
  · exact hs.length_reduceBy_le [.and]
  · rename_i hafter
    rw [IsCovered, Bool.eq_false_iff.mpr hafter] at hs
    exact hs

protected theorem push (t : Token α) : (s.push t).IsCovered := by
  cases t with
  | term a => exact Nat.succ_le_succ hs.length_joinNeighbour_le
  | or => exact hs.length_reduceBy_le [.and, .or]
  | opening => exact hs.length_joinNeighbour_le
  | closing =>
    have hreduced := hs.length_reduceBy_le [.and, .or]
    rw [reduceBy, ← jointCount_tail_reduce] at hreduced
    exact hreduced

/-- **What the pass keeps**, whatever the tokens are. -/
protected theorem foldl_push (ts : List (Token α)) : (ts.foldl push s).IsCovered := by
  induction ts generalizing s with
  | nil => exact hs
  | cons t ts ih => exact ih (hs.push t)

end IsCovered

theorem isCovered_empty : (empty : Stacks α).IsCovered := Nat.le_refl 0

/-! ## The end of the pass -/

/-- The operands that remain once no operator is pending, the last one first. -/
def remaining (s : Stacks α) : List (Tree α) := drain s.pending s.operands

/-- The tree that the state comes to if operands that are left over are put together in a given way. -/
def finishBy (join : Tree α → Tree α → Tree α) (s : Stacks α) : Option (Tree α) :=
  match s.remaining with
  | [] => none
  | top :: rest => some (rest.foldl (fun right left ↦ join left right) top)

theorem finishBy_and (s : Stacks α) : s.finishBy (.node .and) = s.finish := rfl

theorem finishBy_eq_head? {s : Stacks α} (h : s.remaining.length ≤ 1) (join : Tree α → Tree α → Tree α) :
    s.finishBy join = s.remaining.head? := by
  rw [finishBy]
  match s.remaining, h with
  | [], _ => rfl
  | [_], _ => rfl

end Stacks

open Stacks

/-- **No operand is left over.** Whatever the tokens are, at most one operand remains once no operator is
pending. So nothing is joined at the end of the pass, and how it would be joined makes no difference. -/
theorem at_most_one_operand_remains (ts : List (Token α)) :
    (ts.foldl push empty).remaining.length ≤ 1 ∧
      ∀ join, (ts.foldl push empty).finishBy join = Tree.ofTokens ts := by
  have hone : (ts.foldl push empty).remaining.length ≤ 1 :=
    length_drain_le (isCovered_empty.foldl_push ts).length_le
  refine ⟨hone, fun join ↦ ?_⟩
  rw [Tree.ofTokens, ← finishBy_and, finishBy_eq_head? hone, finishBy_eq_head? hone]

end NoteQuery
