/-!
# Lists without repetition

What remains of a list when of equal elements only the first is kept. The order is that of the first
occurrences.
-/

namespace NoteQuery.Text

/-- The elements of a list in order of first occurrence, each once. -/
def distinct {α : Type} [DecidableEq α] : List α → List α
  | [] => []
  | x :: xs => x :: (distinct xs).filter (· ≠ x)

variable {α : Type} [DecidableEq α]

@[simp] theorem mem_distinct {x : α} {xs : List α} : x ∈ distinct xs ↔ x ∈ xs := by
  induction xs with
  | nil => simp [distinct]
  | cons y ys ih => by_cases h : x = y <;> simp [distinct, ih, h]

theorem nodup_distinct (xs : List α) : (distinct xs).Nodup := by
  induction xs with
  | nil => simp [distinct]
  | cons y ys ih => exact List.nodup_cons.2 ⟨by simp, ih.filter _⟩

end NoteQuery.Text
