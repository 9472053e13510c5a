import NoteQuery.Matching.Text
import NoteQuery.Proofs.Text.Sigma

/-!
# Operands that occur in a text

A plain operand is compared with a text after each has been put in lower case by itself. An operand that
occurs in the text, character for character, is therefore found if its capital sigmas have the same forms
in the text as in the operand alone, and it is found in every text in which it occurs exactly if the
form of none of them is open.
-/

namespace NoteQuery

open Text

theorem matchesText_of_plain {operand : String}
    (h : PatternLiteral.ofOperand? operand.toList = none) (text : String) :
    matchesText text operand = .ok true ↔ lower operand.toList <:+: lower text.toList := by
  rw [matchesText, h, Except.ok.injEq, occursIn_iff]
  constructor
  · rintro ⟨before, after, heq⟩
    exact ⟨before, after, heq.symm⟩
  · rintro ⟨before, after, heq⟩
    exact ⟨before, after, heq.symm⟩

/-- **Operands that occur.** A plain operand matches a text in which it occurs at a place where its capital
sigmas end words exactly as they do in the operand alone. It matches every text in which it occurs exactly
if it has no capital sigma whose form is open. -/
theorem matches_where_it_occurs_iff {operand : String}
    (h : PatternLiteral.ofOperand? operand.toList = none) :
    (∀ (text : String) (before after : List Char), text.toList = before ++ operand.toList ++ after →
      KeepsSigmas before operand.toList after → matchesText text operand = .ok true) ∧
    ((∀ text : String, operand.toList <:+: text.toList → matchesText text operand = .ok true) ↔
      SettlesSigmas operand.toList) := by
  refine ⟨fun text before after htext hkeeps ↦ ?_, ?_⟩
  · rw [matchesText_of_plain h, htext]
    exact hkeeps.lower_infix_lower
  · rw [← lower_infix_lower_iff]
    constructor
    · intro hmatches text hpart
      have htext := hmatches (String.ofList text) (by rwa [String.toList_ofList])
      rwa [matchesText_of_plain h, String.toList_ofList] at htext
    · intro hlower text hpart
      rw [matchesText_of_plain h]
      exact hlower text.toList hpart

/-- In `ΟΔΟΣ 1` the sigma stands behind a letter and before a blank, so it ends a word in every text. -/
theorem matches_where_it_occurs_of_blank_behind :
    PatternLiteral.ofOperand? "ΟΔΟΣ 1".toList = none ∧
    matchesText "Η ΟΔΟΣ 12" "ΟΔΟΣ 1" = .ok true := by
  have hplain : PatternLiteral.ofOperand? "ΟΔΟΣ 1".toList = none := by decide
  have hoperand : "ΟΔΟΣ 1".toList = ['Ο', 'Δ', 'Ο', 'Σ', ' ', '1'] := by decide
  have hsettled : SettlesSigmas "ΟΔΟΣ 1".toList := by
    rw [hoperand]
    simp only [SettlesSigmas, atSigmas_cons_iff, atSigmas_nil]
    decide +kernel
  have hpart : "ΟΔΟΣ 1".toList <:+: "Η ΟΔΟΣ 12".toList := ⟨['Η', ' '], ['2'], by decide⟩
  exact ⟨hplain, (matches_where_it_occurs_iff hplain).2.mpr hsettled _ hpart⟩

/-- The operand `ΑΣ` occurs in `ΑΣΑ`, but in lower case it ends with the final form of the sigma. -/
theorem not_forall_matches_occurring :
    ¬∀ text operand : String, PatternLiteral.ofOperand? operand.toList = none →
      operand.toList <:+: text.toList → matchesText text operand = .ok true := by
  intro h
  have hplain : PatternLiteral.ofOperand? "ΑΣ".toList = none := by decide
  have hpart := (matchesText_of_plain hplain "ΑΣΑ").mp (h _ _ hplain ⟨[], ['Α'], by decide⟩)
  have hoperand : lower "ΑΣ".toList = ['α', 'ς'] := by decide +kernel
  have htext : lower "ΑΣΑ".toList = ['α', 'σ', 'α'] := by decide +kernel
  rw [hoperand, htext] at hpart
  exact absurd (hpart.subset (List.mem_cons_of_mem 'α' List.mem_cons_self)) (by decide)

end NoteQuery
