import Mathlib.Data.List.Induction
import Mathlib.Data.List.TakeWhile
import NoteQuery.Pattern.Literal

/-!
# The shape of a pattern literal

An operand is a pattern literal if it is written as one: a slash, a body, a slash and flags, where the body
may not escape the slash behind it. The reader finds the shape from the end of the operand, first the flags
and then the backslashes before the slash. A flag is no slash, so the slash it finds is the last one, and an
operand is written as one literal at most (`ofOperand?_shape`).
-/

namespace NoteQuery.PatternLiteral

variable {cs flags : List Char}

/-! ## Backslashes at the end -/

/-- Whether a text ends in a run of backslashes of odd length. -/
def EndsInOddRun (cs : List Char) : Prop :=
  ∃ before n, cs = before ++ List.replicate (2 * n + 1) '\\' ∧ before.getLast? ≠ some '\\'

/-- A text is a part that does not end in a backslash, with a run of backslashes behind it. -/
theorem exists_eq_append_replicate (cs : List Char) :
    ∃ before n, cs = before ++ List.replicate n '\\' ∧ before.getLast? ≠ some '\\' := by
  induction cs using List.reverseRecOn with
  | nil => exact ⟨[], 0, rfl, by simp⟩
  | append_singleton cs c ih =>
    by_cases hc : c = '\\'
    · obtain ⟨before, n, rfl, hbefore⟩ := ih
      exact ⟨before, n + 1, by rw [hc, List.append_assoc, ← List.replicate_succ'], hbefore⟩
    · exact ⟨cs ++ [c], 0, by simp, by simpa using hc⟩

/-- The backslashes that are counted from the end of a text are those of the run there. -/
theorem takeWhile_reverse_append_replicate {before : List Char} (h : before.getLast? ≠ some '\\') (n : ℕ) :
    (before ++ List.replicate n '\\').reverse.takeWhile (· == '\\') = List.replicate n '\\' := by
  have hstop : before.reverse.takeWhile (· == '\\') = [] := by
    rw [← List.head?_reverse] at h
    cases hbefore : before.reverse with
    | nil => rfl
    | cons c rest =>
      rw [hbefore] at h
      exact List.takeWhile_cons_of_neg (by simpa using h)
  rw [List.reverse_append, List.reverse_replicate, List.takeWhile_append_of_pos (by simp), hstop,
    List.append_nil]

theorem endsEscaping_reverse_iff : endsEscaping cs.reverse = true ↔ EndsInOddRun cs := by
  constructor
  · intro h
    obtain ⟨before, n, rfl, hbefore⟩ := exists_eq_append_replicate cs
    rw [endsEscaping, takeWhile_reverse_append_replicate hbefore, List.length_replicate, beq_iff_eq] at h
    exact ⟨before, n / 2, by rw [show 2 * (n / 2) + 1 = n by omega], hbefore⟩
  · rintro ⟨before, n, rfl, hbefore⟩
    rw [endsEscaping, takeWhile_reverse_append_replicate hbefore, List.length_replicate, beq_iff_eq]
    omega

/-! ## Literals as they are written -/

/-- Whether an operand is the way a literal is written. -/
structure IsWritten (operand : List Char) (l : PatternLiteral) : Prop where
  /-- It is the body between slashes, with the flags behind it. -/
  eq_toOperand : operand = l.toOperand
  /-- The flags are flags. -/
  forall_mem_flags : ∀ c ∈ l.flags, c ∈ ['g', 'i', 'm', 's', 'u', 'y']
  /-- The second slash is not escaped. -/
  not_endsInOddRun : ¬EndsInOddRun l.body

theorem isFlag_iff {c : Char} : isFlag c = true ↔ c ∈ ['g', 'i', 'm', 's', 'u', 'y'] := by
  simp [isFlag, or_assoc]

/-- From the end of a literal, the flags come first and then the second slash. -/
theorem takeWhile_and_dropWhile_reverse (h : ∀ c ∈ flags, isFlag c = true) (body : List Char) :
    (body ++ '/' :: flags).reverse.takeWhile isFlag = flags.reverse ∧
      (body ++ '/' :: flags).reverse.dropWhile isFlag = '/' :: body.reverse := by
  have hreverse : (body ++ '/' :: flags).reverse = flags.reverse ++ '/' :: body.reverse := by simp
  have hflags : ∀ c ∈ flags.reverse, isFlag c = true := fun c hc ↦ h c (List.mem_reverse.mp hc)
  have hslash : ¬isFlag '/' = true := by decide
  rw [hreverse, List.takeWhile_append_of_pos hflags, List.dropWhile_append_of_pos hflags]
  simp [hslash]

theorem ofOperand?_eq_some_iff {operand : List Char} {l : PatternLiteral} :
    ofOperand? operand = some l ↔ IsWritten operand l := by
  constructor
  · intro h
    unfold ofOperand? at h
    split at h
    · rename_i rest
      split at h
      · rename_i body hbody
        split at h
        · cases h
        · rename_i hends
          obtain rfl := Option.some.inj h
          have hrest : rest.reverse = rest.reverse.takeWhile isFlag ++ '/' :: body := by
            rw [← hbody, List.takeWhile_append_dropWhile]
          refine ⟨?_, fun c hc ↦ ?_, ?_⟩
          · rw [List.reverse_eq_iff] at hrest
            simpa [toOperand] using hrest
          · exact isFlag_iff.mp (List.mem_takeWhile_imp (List.mem_reverse.mp hc))
          · rwa [← endsEscaping_reverse_iff, List.reverse_reverse]
      · cases h
    · cases h
  · rintro ⟨rfl, hflags, hends⟩
    obtain ⟨htake, hdrop⟩ :=
      takeWhile_and_dropWhile_reverse (fun c hc ↦ isFlag_iff.mpr (hflags c hc)) l.body
    rw [← endsEscaping_reverse_iff, Bool.not_eq_true] at hends
    simp only [toOperand, List.cons_append, ofOperand?, htake, hdrop, hends]
    simp

/-- **The shape of a pattern literal.** An operand is read as a literal exactly if it is written as that
literal, it is none exactly if it is written as no literal, and it is written as one at most. -/
theorem ofOperand?_shape (operand : List Char) :
    (∀ l, ofOperand? operand = some l ↔ IsWritten operand l) ∧
    (ofOperand? operand = none ↔ ∀ l, ¬IsWritten operand l) ∧
    ∀ l l', IsWritten operand l → IsWritten operand l' → l = l' := by
  refine ⟨fun l ↦ ofOperand?_eq_some_iff, ?_, fun l l' hl hl' ↦ ?_⟩
  · simp only [← ofOperand?_eq_some_iff, Option.eq_none_iff_forall_ne_some, ne_eq]
  · rw [← ofOperand?_eq_some_iff] at hl hl'
    exact Option.some.inj (hl.symm.trans hl')

/-- The slashes of a body are no end of it, and its flags may be letters of the body. -/
example : ofOperand? "/a\\\\/g/gi".toList = some ⟨"a\\\\/g".toList, "gi".toList⟩ := by decide

end NoteQuery.PatternLiteral
