import NoteQuery.Proofs.Text.CaseRun
import NoteQuery.Proofs.Text.Trim
import NoteQuery.Text.Case

/-!
# Lower case

A character has at least one character as its lower case, so no text gets shorter in lower case, and none
but the empty one gets lost. What a text has become in lower case stays: all of its characters are their
own lower case, wherever they stand. A text begins with a blank in lower case exactly when it does so
anyway, and so it is with its end; a trimmed text stays trimmed.
-/

namespace NoteQuery.Text

/-! ## Characters -/

/-- Whether a character is its own lower case, wherever it stands. -/
def IsLower (c : Char) : Prop := c ≠ 'Σ' ∧ lowerChar c = [c]

theorem length_lowerChar {c : Char} (h : c ≠ 'İ') : (lowerChar c).length = 1 := by
  rw [lowerChar, if_neg h, List.length_singleton]

theorem toNat_ofNat {code : Nat} (h : code.isValidChar) : (Char.ofNat code).toNat = code := by
  rw [Char.ofNat, dif_pos h]
  rfl

theorem isLower_of_not_covers {c : Char} (hdotted : c ≠ 'İ')
    (h : ∀ run ∈ lowerRuns, run.covers c.toNat = false) : IsLower c := by
  constructor
  · rintro rfl
    exact absurd (h ⟨931, 939, 1, 32⟩ (by decide +kernel)) (by decide)
  · obtain ⟨run, hrun, hcovers, -⟩ | ⟨-, hmap⟩ := CaseRun.map_eq lowerRuns c.toNat
    · exact absurd hcovers (Bool.eq_false_iff.mp (h run hrun))
    · rw [lowerChar, if_neg hdotted, hmap, Char.ofNat_toNat]

theorem isLower_of_mem_exceptions {c : Char} (h : c ∈ ['i', '\u0307', 'σ', 'ς']) : IsLower c := by
  have huncovered : ['i', '\u0307', 'σ', 'ς'].all
      (fun c ↦ lowerRuns.all fun run ↦ !run.covers c.toNat) = true := by decide +kernel
  refine isLower_of_not_covers ?_ fun run hrun ↦ ?_
  · rintro rfl
    exact absurd h (by decide)
  · have hmissed := List.all_eq_true.mp (List.all_eq_true.mp huncovered c h) run hrun
    rwa [Bool.not_eq_true'] at hmissed

/-- A run of the table sends a character that is no blank to one that stays and is none either. -/
theorem isLower_ofNat_target {c : Char} {run : CaseRun} (hrun : run ∈ lowerRuns)
    (hcovers : run.covers c.toNat = true) :
    IsLower (Char.ofNat (run.target c.toNat)) ∧ isBlank c = false ∧
      isBlank (Char.ofNat (run.target c.toNat)) = false := by
  have hmissed : ∀ other ∈ avoidedRuns ++ lowerRuns,
      other.covers (Char.ofNat (run.target c.toNat)).toNat = false := by
    intro other hother
    rw [toNat_ofNat (isValidChar_target hrun hcovers)]
    exact covers_target_of_mem_lowerRuns hrun hcovers hother
  refine ⟨isLower_of_not_covers (fun hdotted ↦ ?_) fun other hother ↦ ?_, ?_, ?_⟩
  · have hnot := hmissed ⟨304, 304, 1, 0⟩ (List.mem_cons_of_mem _ List.mem_cons_self)
    rw [hdotted] at hnot
    exact absurd hnot (by decide)
  · exact hmissed other (List.mem_append_right _ hother)
  · rw [Bool.eq_false_iff, ne_eq, isBlank_iff]
    rintro ⟨blanks, hblanks, hcode⟩
    rw [covers_eq_false_of_blank hrun hblanks hcode] at hcovers
    cases hcovers
  · rw [Bool.eq_false_iff, ne_eq, isBlank_iff]
    rintro ⟨blanks, hblanks, hcode⟩
    have hmem : blanks ∈ avoidedRuns := List.mem_cons_of_mem _ (List.mem_cons_of_mem _ hblanks)
    rw [hmissed blanks (List.mem_append_left _ hmem)] at hcode
    cases hcode

/-- A character becomes two, stays, or becomes one that stays, and then neither is a blank. -/
theorem lowerChar_cases (c : Char) : c = 'İ' ∨ IsLower c ∨
    ∃ d, lowerChar c = [d] ∧ IsLower d ∧ isBlank c = false ∧ isBlank d = false := by
  by_cases hdotted : c = 'İ'
  · exact .inl hdotted
  · obtain ⟨run, hrun, hcovers, hmap⟩ | ⟨hcovers, -⟩ := CaseRun.map_eq lowerRuns c.toNat
    · refine .inr (.inr ⟨_, ?_, isLower_ofNat_target hrun hcovers⟩)
      rw [lowerChar, if_neg hdotted, hmap]
    · exact .inr (.inl (isLower_of_not_covers hdotted hcovers))

/-! ## Texts -/

/-- What a character becomes in a text: one or two characters that stay, blanks exactly if it is one. -/
theorem exists_piece (before : List Char) (c : Char) (rest : List Char) :
    ∃ d piece, lowerFrom before (c :: rest) = d :: piece ++ lowerFrom (c :: before) rest ∧
      (∀ e ∈ d :: piece, IsLower e) ∧ (∀ e ∈ d :: piece, isBlank e = isBlank c) ∧
      (d :: piece).length = (lowerChar c).length := by
  rw [lowerFrom]
  by_cases hsigma : c = 'Σ'
  · rw [if_pos hsigma]
    refine ⟨if meetsCased before && !meetsCased rest then 'ς' else 'σ', [], rfl, fun e he ↦ ?_, ?_, ?_⟩
    · rw [List.mem_singleton.mp he]
      split <;> exact isLower_of_mem_exceptions (by decide)
    · rw [hsigma, List.forall_mem_singleton]
      split <;> rfl
    · rw [hsigma, length_lowerChar (by decide), List.length_singleton]
  · rw [if_neg hsigma]
    obtain rfl | hlower | ⟨d, hd, hlower, hblank, hblank'⟩ := lowerChar_cases c
    · refine ⟨'i', ['\u0307'], by rw [lowerChar, if_pos rfl], fun e he ↦ ?_,
        List.forall_mem_cons.mpr ⟨rfl, List.forall_mem_singleton.mpr rfl⟩, ?_⟩
      · exact isLower_of_mem_exceptions (List.mem_append_left ['σ', 'ς'] he)
      · rw [lowerChar, if_pos rfl]
    · exact ⟨c, [], by rw [hlower.2], List.forall_mem_singleton.mpr hlower,
        List.forall_mem_singleton.mpr rfl, by rw [hlower.2]⟩
    · exact ⟨d, [], by rw [hd], List.forall_mem_singleton.mpr hlower,
        List.forall_mem_singleton.mpr (hblank'.trans hblank.symm), by rw [hd]⟩

/-- What stands before a text plays no part in its length. -/
theorem length_lowerFrom_eq (before before' cs : List Char) :
    (lowerFrom before cs).length = (lowerFrom before' cs).length := by
  induction cs generalizing before before' with
  | nil => rfl
  | cons c cs ih =>
    obtain ⟨d, piece, hpiece, -, -, hlength⟩ := exists_piece before c cs
    obtain ⟨d', piece', hpiece', -, -, hlength'⟩ := exists_piece before' c cs
    rw [hpiece, hpiece', List.length_append, List.length_append, hlength, hlength',
      ih (c :: before) (c :: before')]

theorem length_le_length_lowerFrom (before cs : List Char) :
    cs.length ≤ (lowerFrom before cs).length := by
  induction cs generalizing before with
  | nil => exact Nat.zero_le _
  | cons c cs ih =>
    obtain ⟨d, piece, hpiece, -⟩ := exists_piece before c cs
    rw [hpiece, List.cons_append, List.length_cons, List.length_cons, List.length_append]
    have hle := ih (c :: before)
    omega

theorem lower_eq_nil_iff {cs : List Char} : lower cs = [] ↔ cs = [] := by
  constructor
  · intro h
    have hle : cs.length ≤ (lower cs).length := length_le_length_lowerFrom [] cs
    rw [h] at hle
    exact List.length_eq_zero_iff.mp (Nat.le_zero.mp hle)
  · rintro rfl
    rfl

theorem isEmpty_lowercase (s : String) : (lowercase s).isEmpty = s.isEmpty := by
  rw [Bool.eq_iff_iff, String.isEmpty_iff, String.isEmpty_iff, lowercase, String.ofList_eq_empty_iff,
    lower_eq_nil_iff, String.toList_eq_nil_iff]

theorem isLower_of_mem_lowerFrom {before cs : List Char} {e : Char} (he : e ∈ lowerFrom before cs) :
    IsLower e := by
  induction cs generalizing before with
  | nil => exact nomatch he
  | cons c cs ih =>
    obtain ⟨d, piece, hpiece, hlower, -⟩ := exists_piece before c cs
    rw [hpiece] at he
    exact (List.mem_append.mp he).elim (hlower e) ih

theorem lowerFrom_eq_self {before cs : List Char} (h : ∀ c ∈ cs, IsLower c) :
    lowerFrom before cs = cs := by
  induction cs generalizing before with
  | nil => rfl
  | cons c cs ih =>
    obtain ⟨hsigma, hstays⟩ := h c List.mem_cons_self
    rw [lowerFrom, if_neg hsigma, hstays, ih fun d hd ↦ h d (List.mem_cons_of_mem c hd)]
    rfl

/-- **Lower case stays.** A text in lower case is its own lower case. -/
theorem lower_lower (cs : List Char) : lower (lower cs) = lower cs :=
  lowerFrom_eq_self fun _ hc ↦ isLower_of_mem_lowerFrom hc

theorem lowercase_ofList_of_lower {cs : List Char} (h : lower cs = cs) :
    lowercase (String.ofList cs) = String.ofList cs := by
  rw [lowercase, String.toList_ofList, h]

theorem length_lower_cons {c : Char} (h : c ≠ 'İ') (cs : List Char) :
    (lower (c :: cs)).length = (lower cs).length + 1 := by
  obtain ⟨d, piece, hpiece, -, -, hlength⟩ := exists_piece [] c cs
  rw [lower, hpiece, List.length_append, hlength, length_lowerChar h, length_lowerFrom_eq [c] [],
    Nat.add_comm, lower]

/-- In lower case a text begins with a blank exactly when it does so anyway. -/
theorem exists_lower_eq_cons (c : Char) (cs : List Char) :
    ∃ d rest, lower (c :: cs) = d :: rest ∧ isBlank d = isBlank c := by
  obtain ⟨d, piece, hpiece, -, hblank, -⟩ := exists_piece [] c cs
  exact ⟨d, _, hpiece, hblank d List.mem_cons_self⟩

/-- In lower case a text ends with a blank exactly when it does so anyway. -/
theorem exists_getLast?_lowerFrom (before : List Char) {cs : List Char} {c : Char}
    (h : cs.getLast? = some c) :
    ∃ d, (lowerFrom before cs).getLast? = some d ∧ isBlank d = isBlank c := by
  induction cs generalizing before with
  | nil => exact nomatch h
  | cons b cs ih =>
    obtain ⟨d, piece, hpiece, -, hblank, -⟩ := exists_piece before b cs
    rw [hpiece]
    cases cs with
    | nil =>
      cases Option.some.inj h
      refine ⟨(d :: piece).getLast (List.cons_ne_nil d piece), ?_, hblank _ (List.getLast_mem _)⟩
      rw [lowerFrom, List.append_nil, List.getLast?_eq_some_getLast]
    | cons a cs =>
      rw [List.getLast?_cons_cons] at h
      obtain ⟨e, he, heblank⟩ := ih (b :: before) h
      exact ⟨e, by rw [List.getLast?_append, he]; rfl, heblank⟩

theorem trimStart_lower_eq_self_iff {cs : List Char} :
    trimStart (lower cs) = lower cs ↔ trimStart cs = cs := by
  rw [trimStart_eq_self_iff, trimStart_eq_self_iff]
  cases cs with
  | nil => rfl
  | cons c cs =>
    obtain ⟨d, rest, hd, hblank⟩ := exists_lower_eq_cons c cs
    simp [hd, hblank]

theorem trimEnd_lower_eq_self_iff {cs : List Char} :
    trimEnd (lower cs) = lower cs ↔ trimEnd cs = cs := by
  rw [trimEnd_eq_self_iff, trimEnd_eq_self_iff]
  cases hlast : cs.getLast? with
  | none =>
    rw [List.getLast?_eq_none_iff.mp hlast]
    rfl
  | some c =>
    obtain ⟨d, hd, hblank⟩ := exists_getLast?_lowerFrom [] hlast
    simp [lower, hd, hblank]

theorem trim_lower {cs : List Char} (h : trim cs = cs) : trim (lower cs) = lower cs := by
  rw [trim_eq_self_iff, ← trimStart_eq_self_iff, ← trimEnd_eq_self_iff] at h ⊢
  exact ⟨trimStart_lower_eq_self_iff.mpr h.1, trimEnd_lower_eq_self_iff.mpr h.2⟩

end NoteQuery.Text
