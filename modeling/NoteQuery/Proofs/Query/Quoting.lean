import Mathlib.Data.List.Induction
import NoteQuery.Proofs.Query.Scanning

/-!
# Escaped quotes

Phrases and the quoted values of fields end at a quote, and take the escapes off again in two
different ways: a phrase wherever a backslash stands, a value only where it stands before a quote.
Each has its own escaping, and what is escaped so is read back, whatever text follows.
-/

namespace NoteQuery.Scan

/-! ## Phrases -/

/-- A phrase without its quotes: every quote and every backslash stands behind a backslash. -/
def escapePhrase (cs : List Char) : List Char :=
  cs.flatMap fun c ↦ if c = '"' ∨ c = '\\' then ['\\', c] else [c]

theorem readQuoted_escapePhrase (value rest : List Char) :
    readQuoted (escapePhrase value ++ '"' :: rest) = some (value, rest) := by
  induction value with
  | nil => rw [escapePhrase, List.flatMap_nil, List.nil_append, readQuoted]
  | cons c value ih =>
    rw [escapePhrase, List.flatMap_cons, ← escapePhrase, List.append_assoc]
    by_cases hc : c = '"' ∨ c = '\\'
    · rw [if_pos hc, List.cons_append, List.cons_append, List.nil_append, readQuoted, ih]
      rfl
    · obtain ⟨hquote, hback⟩ := not_or.mp hc
      rw [if_neg hc, List.cons_append, List.nil_append, readQuoted_cons hquote hback, ih]
      rfl

/-! ## Values -/

/-- The value of a field without its quotes: every quote stands behind a backslash. -/
def escapeValue (cs : List Char) : List Char :=
  cs.flatMap fun c ↦ if c = '"' then ['\\', c] else [c]

theorem escapeValue_cons (c : Char) (value : List Char) :
    escapeValue (c :: value) = (if c = '"' then ['\\', c] else [c]) ++ escapeValue value := by
  rw [escapeValue, List.flatMap_cons, ← escapeValue]

theorem escapeValue_concat (value : List Char) (c : Char) :
    escapeValue (value ++ [c]) = escapeValue value ++ if c = '"' then ['\\', c] else [c] := by
  rw [escapeValue, List.flatMap_append, ← escapeValue, List.flatMap_singleton]

theorem unescapeQuotes_escapeValue {value : List Char} (h : '\\' ∉ value) :
    unescapeQuotes (escapeValue value) = value := by
  induction value with
  | nil => rfl
  | cons c value ih =>
    obtain ⟨hback, h⟩ := not_or.mp (mt List.mem_cons.mpr h)
    rw [escapeValue_cons]
    by_cases hc : c = '"'
    · rw [if_pos hc, List.cons_append, List.cons_append, List.nil_append, hc, unescapeQuotes, ih h]
    · rw [if_neg hc, List.cons_append, List.nil_append, unescapeQuotes, ih h]
      exact fun _ he _ ↦ hback he.symm

theorem takeWhile_reverse_escapeValue {value : List Char} (h : '\\' ∉ value) :
    (escapeValue value).reverse.takeWhile (· == '\\') = [] := by
  rcases List.eq_nil_or_concat value with rfl | ⟨value, c, rfl⟩
  · rfl
  · rw [List.concat_eq_append] at h ⊢
    have hc : ¬(c == '\\') = true := by
      intro he
      exact h (List.mem_append_right _ (List.mem_singleton.mpr (beq_iff_eq.mp he).symm))
    rw [escapeValue_concat, List.reverse_append]
    split
    · exact List.takeWhile_cons_of_neg hc
    · exact List.takeWhile_cons_of_neg hc

theorem endsQuoted_of_prefix_escapeValue {pre value : List Char} (h : '\\' ∉ value)
    (hpre : pre <+: escapeValue value) : endsQuoted pre.reverse = false := by
  induction value using List.reverseRecOn with
  | nil =>
    rw [List.prefix_nil.mp hpre]
    rfl
  | append_singleton value c ih =>
    have hvalue : '\\' ∉ value := mt (List.mem_append_left _) h
    rw [escapeValue_concat] at hpre
    by_cases hc : c = '"'
    -- before the quote, between it and its backslash, or before both
    · rw [if_pos hc, hc, ← List.singleton_append, ← List.append_assoc] at hpre
      rcases List.prefix_concat_iff.mp hpre with rfl | hpre
      · rw [List.reverse_append, List.reverse_append]
        change ((('\\' :: (escapeValue value).reverse).takeWhile (· == '\\')).length % 2 == 0)
          = false
        rw [List.takeWhile_cons_of_pos rfl, takeWhile_reverse_escapeValue hvalue]
        rfl
      · rcases List.prefix_concat_iff.mp hpre with rfl | hpre
        · rw [List.reverse_append]
          rfl
        · exact ih hvalue hpre
    · rw [if_neg hc] at hpre
      rcases List.prefix_concat_iff.mp hpre with rfl | hpre
      · rw [List.reverse_append, List.reverse_singleton, List.singleton_append, endsQuoted]
        exact fun _ he ↦ hc (List.cons.inj he).1
      · exact ih hvalue hpre

theorem endsQuoted_escapeValue_append {value : List Char} (h : '\\' ∉ value) :
    endsQuoted (escapeValue value ++ ['"']).reverse = true := by
  rw [List.reverse_append]
  change ((escapeValue value).reverse.takeWhile (· == '\\')).length % 2 == 0
  rw [takeWhile_reverse_escapeValue h]
  rfl

/-- Wherever its word breaks off, a quoted value is read up to its closing quote. -/
theorem readSpanning_escapeValue {value pre post : List Char} (h : '\\' ∉ value)
    (hsplit : pre ++ post = escapeValue value ++ ['"']) (rest : List Char) :
    readSpanning pre.reverse (post ++ rest) = some (value, rest) := by
  induction post generalizing pre with
  | nil =>
    rw [List.append_nil] at hsplit
    rw [hsplit, List.nil_append, readSpanning_of_endsQuoted (endsQuoted_escapeValue_append h),
      List.reverse_append, List.reverse_singleton, List.singleton_append, List.tail_cons,
      List.reverse_reverse, unescapeQuotes_escapeValue h]
  | cons c post ih =>
    have hpre : pre <+: escapeValue value := by
      rcases List.prefix_concat_iff.mp ⟨c :: post, hsplit⟩ with rfl | hpre
      · exact nomatch List.append_right_eq_self.mp hsplit
      · exact hpre
    rw [List.cons_append, readSpanning_cons (endsQuoted_of_prefix_escapeValue h hpre),
      ← List.reverse_concat]
    exact ih (by rw [← hsplit, List.append_assoc, List.singleton_append])

end NoteQuery.Scan
