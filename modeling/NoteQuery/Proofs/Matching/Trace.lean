import NoteQuery.Matching.Trace

/-!
# What a walk over clauses can meet

A walk meets nothing but what its items meet, and an operand that is matched meets nothing but a pattern
that is passed over. So whatever else happens while a query is applied happens where a property term asks
for something, outside the walks over its expression.
-/

namespace NoteQuery.Matching.Trace

theorem mem_walk {α : Type} {goesOn : Bool} {test : α → Answer Bool} {happens : α → List Event} {items : List α}
    {e : Event} (h : e ∈ walk goesOn test happens items) : ∃ a ∈ items, e ∈ happens a := by
  induction items with
  | nil => cases h
  | cons a items ih =>
    rw [walk, List.mem_append] at h
    rcases h with h | h
    · exact ⟨a, List.mem_cons_self, h⟩
    · split at h
      · split at h
        · obtain ⟨b, hb, he⟩ := ih h
          exact ⟨b, List.mem_cons_of_mem a hb, he⟩
        · cases h
      · cases h

variable {e : Event}

theorem isRejection_of_mem_ofOperand {operand : String} (h : e ∈ ofOperand operand) :
    e.isRejection = true := by
  rw [ofOperand] at h
  split at h
  · cases h
  · split at h
    · cases h
    · split at h
      · rw [List.mem_singleton.mp h]
        rfl
      · cases h

theorem isRejection_of_mem_ofParts {β : Type} {parts : List β} {operand : String}
    (h : e ∈ ofParts parts operand) : e.isRejection = true := by
  rw [ofParts] at h
  split at h
  · cases h
  · exact isRejection_of_mem_ofOperand h

theorem isRejection_of_mem_ofClauses {clauses : List (Clause Term)} {texts : List String}
    (h : e ∈ ofClauses clauses texts) : e.isRejection = true := by
  obtain ⟨clause, -, h⟩ := mem_walk h
  obtain ⟨t, -, h⟩ := mem_walk h
  obtain ⟨term, -, h⟩ := mem_walk h
  exact isRejection_of_mem_ofOperand h

end NoteQuery.Matching.Trace
