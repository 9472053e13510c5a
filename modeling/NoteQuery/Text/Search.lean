/-!
# Searching and cutting texts

Substrings and prefixes of lists of characters.
-/

namespace NoteQuery.Text

/-- Whether a text occurs in another, character for character. -/
def occursIn (needle : List Char) : List Char → Bool
  | [] => needle.isEmpty
  | c :: rest => needle.isPrefixOf (c :: rest) || occursIn needle rest

/-- The pieces of a text between the occurrences of a character. There is always at least one. -/
def splitOn (separator : Char) : List Char → List (List Char)
  | [] => [[]]
  | c :: rest =>
    if c = separator then [] :: splitOn separator rest
    else match splitOn separator rest with
      | piece :: pieces => (c :: piece) :: pieces
      | [] => [[c]]

section

variable {α : Type} [DecidableEq α]

/-- The text without one leading character, if it begins with it. -/
def dropLeading (lead : α) : List α → List α
  | c :: rest => if c = lead then rest else c :: rest
  | [] => []

theorem dropLeading_cons_self (lead : α) (cs : List α) : dropLeading lead (lead :: cs) = cs := by
  rw [dropLeading, if_pos rfl]

theorem dropLeading_eq_self {lead : α} {cs : List α} (h : cs.head? ≠ some lead) :
    dropLeading lead cs = cs := by
  cases cs with
  | nil => rfl
  | cons c cs => rw [dropLeading, if_neg fun heq ↦ h (congrArg some heq)]

end

theorem occursIn_iff {needle hay : List Char} :
    occursIn needle hay = true ↔ ∃ before after, hay = before ++ needle ++ after := by
  induction hay with
  | nil =>
    simp only [occursIn, List.isEmpty_iff]
    constructor
    · rintro rfl
      exact ⟨[], [], rfl⟩
    · rintro ⟨before, after, h⟩
      have := congrArg List.length h
      simp only [List.length_nil, List.length_append] at this
      exact List.length_eq_zero_iff.1 (by omega)
  | cons c rest ih =>
    simp only [occursIn, Bool.or_eq_true, List.isPrefixOf_iff_prefix, ih]
    constructor
    · rintro (⟨after, h⟩ | ⟨before, after, h⟩)
      · exact ⟨[], after, by simp [h]⟩
      · exact ⟨c :: before, after, by simp [h]⟩
    · rintro ⟨before, after, h⟩
      cases before with
      | nil => exact .inl ⟨after, by simpa using h.symm⟩
      | cons d before =>
        simp only [List.cons_append, List.cons.injEq] at h
        exact .inr ⟨before, after, h.2⟩

end NoteQuery.Text
