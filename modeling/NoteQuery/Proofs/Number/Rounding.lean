import Mathlib
import NoteQuery.Number.Binary64

/-!
# Rounding

A fraction is rounded at the exponent at which it has 53 bits before the point, or at the least exponent.
That exponent is a matter of the value of the fraction alone (`IsExponentOf.unique`), and so is the result
(`ofRatio_congr`). The result is in canonical form, and a number in canonical form that is rounded again
stays (`ofRatio_eq_finite`).
-/

namespace NoteQuery.Binary64

/-- Whether a number is in canonical form: its mantissa has 53 bits, or fewer at the least exponent. -/
def IsCanonical : Binary64 → Prop
  | .finite _ m e =>
    m < 2 ^ 53 ∧ leastExponent ≤ e ∧ e ≤ greatestExponent ∧ (e = leastExponent ∨ 2 ^ 52 ≤ m)
  | _ => True

/-! ## The exponent of a value -/

/-- Whether a value has 53 bits before the point at an exponent, or fewer at the least one. -/
structure IsExponentOf (q : ℚ) (e : Int) : Prop where
  least_le : leastExponent ≤ e
  lt : q < 2 ^ (e + 53)
  eq_or_le : e = leastExponent ∨ 2 ^ (e + 52) ≤ q

namespace IsExponentOf

variable {q : ℚ} {e e' : Int}

theorem le_of_isExponentOf (h : IsExponentOf q e) (h' : IsExponentOf q e') : e ≤ e' := by
  rcases h.eq_or_le with hleast | hle
  · exact hleast ▸ h'.least_le
  · have hlt := (zpow_lt_zpow_iff_right₀ one_lt_two).mp (hle.trans_lt h'.lt)
    omega

theorem unique (h : IsExponentOf q e) (h' : IsExponentOf q e') : e = e' :=
  Int.le_antisymm (h.le_of_isExponentOf h') (h'.le_of_isExponentOf h)

end IsExponentOf

/-! ## Scaling -/

variable {num den : Nat}

theorem scaled_pos (hden : 0 < den) (num : Nat) (e : Int) : 0 < (scaled num den e).2 := by
  rw [scaled]
  split
  · exact hden
  · exact Nat.mul_pos hden (Nat.pow_pos (by decide))

theorem scaled_value (num den : Nat) (e : Int) :
    ((scaled num den e).1 : ℚ) / (scaled num den e).2 = num / den / 2 ^ e := by
  rw [scaled]
  split
  · rename_i hneg
    obtain ⟨k, hk⟩ := Int.eq_ofNat_of_zero_le (Int.neg_nonneg_of_nonpos (Int.le_of_lt hneg))
    obtain rfl : e = -(k : Int) := by omega
    rw [Int.neg_neg, Int.toNat_natCast, Nat.pow_eq, zpow_neg, zpow_natCast, div_inv_eq_mul]
    push_cast
    ring
  · rename_i hnonneg
    obtain ⟨k, rfl⟩ := Int.eq_ofNat_of_zero_le (Int.not_lt.mp hnonneg)
    rw [Int.toNat_natCast, Nat.pow_eq, zpow_natCast, div_div]
    push_cast
    rfl

theorem scaled_mul (k num den : Nat) (e : Int) :
    scaled (k * num) (k * den) e = (k * (scaled num den e).1, k * (scaled num den e).2) := by
  rw [scaled, scaled]
  split
  · rw [Nat.mul_assoc]
  · rw [Nat.mul_assoc]

theorem scaled_div_lt_iff (hden : 0 < den) (num : Nat) (e : Int) (bits : Nat) :
    (scaled num den e).1 / (scaled num den e).2 < 2 ^ bits ↔ (num : ℚ) / den < 2 ^ (e + bits) := by
  have hpos : (0 : ℚ) < (scaled num den e).2 := by exact_mod_cast scaled_pos hden num e
  rw [Nat.div_lt_iff_lt_mul (scaled_pos hden num e), zpow_add₀ two_ne_zero, zpow_natCast,
    mul_comm ((2 : ℚ) ^ e), ← div_lt_iff₀ (by positivity), ← scaled_value, div_lt_iff₀ hpos]
  exact_mod_cast Iff.rfl

/-! ## The exponent that is chosen -/

/-- The binary logarithms of both parts bound the value of a fraction from both sides. -/
theorem value_bounds (hnum : 0 < num) (hden : 0 < den) :
    (2 : ℚ) ^ ((num.log2 : Int) - den.log2 - 1) < num / den ∧
      (num : ℚ) / den < 2 ^ ((num.log2 : Int) - den.log2 + 1) := by
  have hnum' : ((2 : ℚ) ^ num.log2) ≤ num ∧ (num : ℚ) < 2 ^ (num.log2 + 1) := by
    exact_mod_cast And.intro (Nat.log2_self_le hnum.ne') Nat.lt_log2_self
  have hden' : ((2 : ℚ) ^ den.log2) ≤ den ∧ (den : ℚ) < 2 ^ (den.log2 + 1) := by
    exact_mod_cast And.intro (Nat.log2_self_le hden.ne') Nat.lt_log2_self
  have hpos : (0 : ℚ) < den := by exact_mod_cast hden
  constructor
  · rw [lt_div_iff₀ hpos]
    calc (2 : ℚ) ^ ((num.log2 : Int) - den.log2 - 1) * den
        < 2 ^ ((num.log2 : Int) - den.log2 - 1) * 2 ^ (den.log2 + 1) := by gcongr; exact hden'.2
      _ = 2 ^ num.log2 := by
        rw [← zpow_natCast, ← zpow_natCast, ← zpow_add₀ two_ne_zero]
        congr 1
        push_cast
        ring
      _ ≤ num := hnum'.1
  · rw [div_lt_iff₀ hpos]
    calc (num : ℚ) < 2 ^ (num.log2 + 1) := hnum'.2
      _ = 2 ^ ((num.log2 : Int) - den.log2 + 1) * 2 ^ den.log2 := by
        rw [← zpow_natCast, ← zpow_natCast, ← zpow_add₀ two_ne_zero]
        congr 1
        push_cast
        ring
      _ ≤ 2 ^ ((num.log2 : Int) - den.log2 + 1) * den := by gcongr; exact hden'.1

theorem exponentFor_eq (num den : Nat) : exponentFor num den =
    let guess : Int := (num.log2 : Int) - den.log2 - 52
    max (if (scaled num den guess).1 / (scaled num den guess).2 < 2 ^ 52 then guess - 1 else guess)
      leastExponent :=
  rfl

theorem isExponentOf_exponentFor (hnum : 0 < num) (hden : 0 < den) :
    IsExponentOf ((num : ℚ) / den) (exponentFor num den) := by
  obtain ⟨hlow, hhigh⟩ := value_bounds hnum hden
  rw [exponentFor_eq]
  generalize hguess : (num.log2 : Int) - den.log2 - 52 = guess
  have hlow : (2 : ℚ) ^ (guess + 51) < num / den := by
    rwa [show (num.log2 : Int) - den.log2 - 1 = guess + 51 by omega] at hlow
  have hhigh : (num : ℚ) / den < 2 ^ (guess + 53) := by
    rwa [show (num.log2 : Int) - den.log2 + 1 = guess + 53 by omega] at hhigh
  have hiff := scaled_div_lt_iff hden num guess 52
  -- the guess is right, or one too great
  obtain ⟨best, hbest, hle, hlt⟩ : ∃ best : Int,
      (if (scaled num den guess).1 / (scaled num den guess).2 < 2 ^ 52 then guess - 1 else guess)
        = best ∧ (2 : ℚ) ^ (best + 52) ≤ num / den ∧ (num : ℚ) / den < 2 ^ (best + 53) := by
    by_cases hsmall : (scaled num den guess).1 / (scaled num den guess).2 < 2 ^ 52
    · refine ⟨guess - 1, if_pos hsmall, ?_, ?_⟩
      · rw [show guess - 1 + 52 = guess + 51 by omega]
        exact hlow.le
      · rw [show guess - 1 + 53 = guess + 52 by omega]
        exact hiff.mp hsmall
    · exact ⟨guess, if_neg hsmall, not_lt.mp (mt hiff.mpr hsmall), hhigh⟩
  dsimp only
  rw [hbest]
  refine ⟨Int.le_max_right _ _, hlt.trans_le ?_, ?_⟩
  · gcongr
    · exact one_le_two
    · exact Int.le_max_left _ _
  · rcases Int.le_total best leastExponent with h | h
    · exact .inl (Int.max_eq_right h)
    · exact .inr (by rwa [Int.max_eq_left h])

/-! ## The mantissa that is chosen -/

theorem roundDiv_mul (k : Nat) {den : Nat} (hden : 0 < den) : roundDiv (k * den) den = k := by
  rw [roundDiv]
  rw [Nat.mul_div_cancel k hden, Nat.mul_mod_left, if_pos hden]

theorem roundDiv_bounds (num den : Nat) : num / den ≤ roundDiv num den ∧ roundDiv num den ≤ num / den + 1 := by
  rw [roundDiv]
  split_ifs <;> omega

theorem roundDiv_mul_mul {k : Nat} (hk : 0 < k) (num den : Nat) :
    roundDiv (k * num) (k * den) = roundDiv num den := by
  have hlt : ∀ a b, 2 * (k * a) < k * b ↔ 2 * a < b := fun a b ↦ by
    rw [Nat.mul_left_comm, Nat.mul_lt_mul_left hk]
  have hgt : ∀ a b, k * b < 2 * (k * a) ↔ b < 2 * a := fun a b ↦ by
    rw [Nat.mul_left_comm, Nat.mul_lt_mul_left hk]
  rw [roundDiv, roundDiv]
  rw [Nat.mul_div_mul_left _ _ hk, Nat.mul_mod_mul_left]
  simp only [hlt, hgt]

theorem isCanonical_settle {m : Nat} {e : Int} (negative : Bool) (hm : m ≤ 2 ^ 53)
    (hleast : leastExponent ≤ e) (hbits : e = leastExponent ∨ 2 ^ 52 ≤ m) :
    (settle negative m e).IsCanonical := by
  rw [settle]
  by_cases hcarry : m = Nat.pow 2 53
  · rw [if_pos hcarry]
    dsimp only
    split
    · exact trivial
    · rename_i hgreatest
      exact ⟨by decide, by omega, by omega, .inr (by decide)⟩
  · rw [if_neg hcarry]
    dsimp only
    split
    · exact trivial
    · rename_i hgreatest
      exact ⟨lt_of_le_of_ne hm hcarry, hleast, by omega, hbits⟩

theorem settle_of_isCanonical {m : Nat} {e : Int} {negative : Bool}
    (h : (finite negative m e).IsCanonical) : settle negative m e = .finite negative m e := by
  obtain ⟨hm, -, hgreatest, -⟩ := h
  have hcarry : m ≠ Nat.pow 2 53 := hm.ne
  rw [settle, if_neg hcarry]
  dsimp only
  rw [if_neg (Int.not_lt.mpr hgreatest)]

/-! ## Fractions -/

theorem isCanonical_zero (negative : Bool) : (finite negative 0 leastExponent).IsCanonical :=
  ⟨by decide, le_refl _, by decide, .inl rfl⟩

/-- **Canonical form.** What a fraction is rounded to is in canonical form. -/
theorem isCanonical_ofRatio (negative : Bool) (num : Nat) (hden : 0 < den) :
    (ofRatio negative num den).IsCanonical := by
  rw [ofRatio]
  split
  · exact isCanonical_zero negative
  · rename_i hnum
    have hexponent := isExponentOf_exponentFor (Nat.pos_of_ne_zero hnum) hden
    dsimp only
    have hlt := (scaled_div_lt_iff hden num (exponentFor num den) 53).mpr hexponent.lt
    obtain ⟨hle, hge⟩ := roundDiv_bounds (scaled num den (exponentFor num den)).1
      (scaled num den (exponentFor num den)).2
    refine isCanonical_settle negative (by omega) hexponent.least_le (hexponent.eq_or_le.imp_right ?_)
    intro hbits
    have hnot := mt (scaled_div_lt_iff hden num (exponentFor num den) 52).mp (not_lt.mpr hbits)
    omega

/-- **One value, one number.** Fractions of the same value are rounded to the same number. -/
theorem ofRatio_congr (negative : Bool) {num den num' den' : Nat} (hden : 0 < den) (hden' : 0 < den')
    (h : (num : ℚ) / den = num' / den') : ofRatio negative num den = ofRatio negative num' den' := by
  have hmul : ∀ {k num den : Nat}, 0 < k → 0 < den →
      ofRatio negative (k * num) (k * den) = ofRatio negative num den := by
    intro k num den hk hden
    rw [ofRatio, ofRatio]
    by_cases hnum : num = 0
    · rw [if_pos hnum, if_pos (by rw [hnum, Nat.mul_zero])]
    · have hpos := Nat.pos_of_ne_zero hnum
      have hvalue : ((k * num : Nat) : ℚ) / (k * den : Nat) = num / den := by
        push_cast
        exact mul_div_mul_left _ _ (by exact_mod_cast hk.ne')
      have hexponent := isExponentOf_exponentFor (Nat.mul_pos hk hpos) (Nat.mul_pos hk hden)
      rw [hvalue] at hexponent
      rw [if_neg hnum, if_neg (Nat.mul_pos hk hpos).ne']
      dsimp only
      rw [hexponent.unique (isExponentOf_exponentFor hpos hden), scaled_mul]
      dsimp only
      rw [roundDiv_mul_mul hk]
  -- both are a fraction with the product of the denominators
  have hcross : num * den' = num' * den := by
    rw [div_eq_div_iff (by exact_mod_cast hden.ne') (by exact_mod_cast hden'.ne')] at h
    exact_mod_cast h
  rw [← hmul hden' hden, ← hmul hden hden', Nat.mul_comm den' num, hcross, Nat.mul_comm num' den,
    Nat.mul_comm den' den]

/-- **Numbers stay.** A number in canonical form is what its value is rounded to. -/
theorem ofRatio_eq_finite {negative : Bool} {m : Nat} {e : Int} (h : (finite negative m e).IsCanonical)
    (hm : m ≠ 0) (hden : 0 < den) (hvalue : (num : ℚ) / den = m * 2 ^ e) :
    ofRatio negative num den = .finite negative m e := by
  have hpow : (0 : ℚ) < 2 ^ e := by positivity
  have hnum : num ≠ 0 := by
    rintro rfl
    rw [Nat.cast_zero, zero_div] at hvalue
    exact hm (by exact_mod_cast (mul_eq_zero.mp hvalue.symm).resolve_right hpow.ne')
  have hexponent : IsExponentOf ((num : ℚ) / den) e := by
    obtain ⟨hlt, hleast, -, hbits⟩ := h
    refine ⟨hleast, ?_, hbits.imp_right fun hle ↦ ?_⟩
    · rw [hvalue, add_comm, zpow_add₀ two_ne_zero]
      gcongr
      exact_mod_cast hlt
    · rw [hvalue, add_comm, zpow_add₀ two_ne_zero]
      gcongr
      exact_mod_cast hle
  rw [ofRatio, if_neg hnum]
  dsimp only
  rw [(isExponentOf_exponentFor (Nat.pos_of_ne_zero hnum) hden).unique hexponent]
  have hscaled : (scaled num den e).1 = m * (scaled num den e).2 := by
    have hpos : (0 : ℚ) < (scaled num den e).2 := by exact_mod_cast scaled_pos hden num e
    have hquotient := scaled_value num den e
    rw [hvalue, mul_div_cancel_right₀ _ hpow.ne', div_eq_iff hpos.ne'] at hquotient
    exact_mod_cast hquotient
  rw [hscaled, roundDiv_mul m (scaled_pos hden num e), settle_of_isCanonical h]

/-! ## Arithmetic -/

theorem isCanonical_negate {x : Binary64} (h : x.IsCanonical) : x.negate.IsCanonical := by
  cases x with
  | finite negative m e => exact h
  | _ => exact trivial

theorem ratio_pos (m : Nat) (e : Int) : 0 < (ratio m e).2 := by
  rw [ratio]
  split
  · exact Nat.two_pow_pos _
  · exact Nat.one_pos

theorem isCanonical_add (x y : Binary64) : (add x y).IsCanonical := by
  cases x with
  | nan => exact trivial
  | infinite s =>
    cases y with
    | infinite t =>
      rw [add]
      split <;> exact trivial
    | _ => exact trivial
  | finite s m e =>
    cases y with
    | finite t n f =>
      rw [add]
      dsimp only
      split
      · exact isCanonical_zero _
      · exact isCanonical_ofRatio _ _ (Nat.mul_pos (ratio_pos m e) (ratio_pos n f))
    | _ => exact trivial

end NoteQuery.Binary64
