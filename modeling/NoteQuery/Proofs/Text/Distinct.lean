import Mathlib.Data.List.Basic
import NoteQuery.Text.Distinct

/-!
# The order of lists without repetition

Dropping what has occurred before keeps the order of the list: what is left stands in the order of its
first occurrences, and one more element at the end is kept exactly when it is new. It is the library's
`List.eraseDups`, by an equation that reads the list from the front.
-/

namespace NoteQuery.Text

variable {α β : Type} [DecidableEq α]

theorem distinct_sublist (xs : List α) : (distinct xs).Sublist xs := by
  induction xs with
  | nil => exact List.Sublist.refl _
  | cons x xs ih => exact (List.filter_sublist.trans ih).cons_cons x

theorem distinct_concat (xs : List α) (x : α) :
    distinct (xs ++ [x]) = if x ∈ xs then distinct xs else distinct xs ++ [x] := by
  induction xs with
  | nil => rfl
  | cons y xs ih =>
    rw [List.cons_append, distinct, ih, distinct]
    by_cases hxs : x ∈ xs
    · rw [if_pos hxs, if_pos (List.mem_cons_of_mem y hxs)]
    · rw [if_neg hxs, List.filter_append]
      by_cases hxy : x = y
      · rw [hxy, if_pos List.mem_cons_self, List.filter_singleton]
        simp
      · rw [if_neg (List.not_mem_cons_of_ne_of_not_mem hxy hxs), List.filter_singleton]
        simp [hxy]

theorem filter_distinct (p : α → Bool) (xs : List α) : (distinct xs).filter p = distinct (xs.filter p) := by
  induction xs with
  | nil => rfl
  | cons x xs ih =>
    rw [distinct]
    cases hx : p x with
    | true =>
      rw [List.filter_cons_of_pos hx, List.filter_cons_of_pos hx, distinct, List.filter_comm, ih]
    | false =>
      have hneg : ¬p x = true := ne_true_of_eq_false hx
      rw [List.filter_cons_of_neg hneg, List.filter_cons_of_neg hneg, List.filter_comm, ih,
        List.filter_eq_self]
      intro y hy
      rw [mem_distinct, List.mem_filter] at hy
      rw [decide_eq_true_eq]
      rintro rfl
      exact hneg hy.2

theorem distinct_eq_eraseDups (xs : List α) : distinct xs = xs.eraseDups := by
  cases xs with
  | nil => rfl
  | cons x xs =>
    have hne : (fun y ↦ decide (y ≠ x)) = fun y ↦ !y == x := by
      funext y
      rw [decide_not, beq_eq_decide]
    rw [distinct, filter_distinct, List.eraseDups_cons, distinct_eq_eraseDups (xs.filter _), hne]
termination_by xs.length
decreasing_by exact Nat.lt_succ_of_le (List.length_filter_le _ _)

/-- Keys that are read off a list stand in the order in which the list first has them. -/
theorem pairwise_findIdx_distinct (key : β → Option α) (l : List β) :
    (distinct (l.filterMap key)).Pairwise fun x y ↦
      l.findIdx (key · == some x) < l.findIdx (key · == some y) := by
  induction l with
  | nil => exact List.Pairwise.nil
  | cons b l ih =>
    have hlater : ∀ x, key b ≠ some x →
        (b :: l).findIdx (key · == some x) = l.findIdx (key · == some x) + 1 := by
      intro x hx
      rw [List.findIdx_cons, beq_eq_false_iff_ne.mpr hx, cond_false]
    cases hb : key b with
    | none =>
      rw [List.filterMap_cons_none hb]
      refine ih.imp fun {x y} hxy ↦ ?_
      rw [hlater x (by simp [hb]), hlater y (by simp [hb])]
      exact Nat.succ_lt_succ hxy
    | some k =>
      have hne : ∀ x ∈ (distinct (l.filterMap key)).filter (· ≠ k), key b ≠ some x := by
        intro x hx heq
        rw [hb] at heq
        exact of_decide_eq_true (List.mem_filter.mp hx).2 (Option.some.inj heq).symm
      rw [List.filterMap_cons_some hb, distinct, List.pairwise_cons]
      constructor
      · intro x hx
        rw [hlater x (hne x hx), List.findIdx_cons, hb, beq_self_eq_true, cond_true]
        exact Nat.succ_pos _
      · refine (ih.filter _).imp_of_mem fun {x y} hx hy hxy ↦ ?_
        rw [hlater x (hne x hx), hlater y (hne y hy)]
        exact Nat.succ_lt_succ hxy

end NoteQuery.Text
