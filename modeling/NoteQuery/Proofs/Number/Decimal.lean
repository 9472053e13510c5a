import NoteQuery.Number.Shortest
import NoteQuery.Proofs.Number.Rounding

/-!
# Decimal numerals

A decimal numeral is rounded as the fraction that it is, so numerals of one value are one number, whatever
zeros they end with. The digits that are chosen for a number stand for that number: either they were found
by reading them, or they are its exact value.
-/

namespace NoteQuery

/-! ## Digits -/

namespace Digits

theorem toDigits_mul_ten {n : Nat} (hn : 0 < n) : Nat.toDigits 10 (n * 10) = Nat.toDigits 10 n ++ ['0'] := by
  have happend := Nat.toDigits_append_toDigits (b := 10) (d := 0) (by decide) hn (by decide)
  rw [Nat.add_zero, Nat.mul_comm] at happend
  exact happend.symm

theorem length_toDigits_mul_pow {n : Nat} (hn : 0 < n) (k : Nat) :
    (Nat.toDigits 10 (n * 10 ^ k)).length = (Nat.toDigits 10 n).length + k := by
  induction k with
  | zero => rw [Nat.pow_zero, Nat.mul_one, Nat.add_zero]
  | succ k ih =>
    rw [Nat.pow_succ, ← Nat.mul_assoc, toDigits_mul_ten (Nat.mul_pos hn (Nat.pow_pos (by decide))),
      List.length_append, ih, List.length_singleton, Nat.add_assoc]

theorem length_toDigits_le {n k : Nat} (hk : 0 < k) (h : n < 10 ^ k) : (Nat.toDigits 10 n).length ≤ k :=
  (Nat.length_toDigits_le_iff (by decide) hk).mpr h

theorem lt_pow_length_toDigits (n : Nat) : n < 10 ^ (Nat.toDigits 10 n).length :=
  (Nat.length_toDigits_le_iff (by decide) Nat.length_toDigits_pos).mp (Nat.le_refl _)

theorem head?_toDigits_ne {n : Nat} (hn : n ≠ 0) : (Nat.toDigits 10 n).head? ≠ some '0' := by
  induction n using Nat.strongRecOn with
  | ind n ih =>
    rw [Nat.toDigits_eq_if (by decide)]
    split
    · rename_i hlt
      have hall : ∀ k < 10, k ≠ 0 → k.digitChar ≠ '0' := by decide
      exact mt Option.some.inj (hall n hlt hn)
    · rw [List.head?_append_of_ne_nil _ Nat.toDigits_ne_nil]
      exact ih (n / 10) (by omega) (by omega)

/-- Without the zeros at their end, the digits of a number are those of a number. -/
theorem exists_dropWhile_toDigits {n : Nat} (hn : n ≠ 0) : ∃ d k, d ≠ 0 ∧ n = d * 10 ^ k ∧
    ((Nat.toDigits 10 n).reverse.dropWhile (· == '0')).reverse = Nat.toDigits 10 d := by
  induction n using Nat.strongRecOn with
  | ind n ih =>
    by_cases hzero : n % 10 = 0
    · obtain ⟨d, k, hd, hvalue, hdigits⟩ := ih (n / 10) (by omega) (by omega)
      refine ⟨d, k + 1, hd, ?_, ?_⟩
      · rw [Nat.pow_succ, ← Nat.mul_assoc, ← hvalue]
        omega
      · rw [show n = n / 10 * 10 by omega, toDigits_mul_ten (by omega), List.reverse_concat,
          List.dropWhile_cons_of_pos (by decide), hdigits]
    · refine ⟨n, 0, hn, by rw [Nat.pow_zero, Nat.mul_one], ?_⟩
      have hall : ∀ k < 10, k ≠ 0 → (k.digitChar == '0') = false := by decide
      rw [Nat.toDigits_eq_if (by decide)]
      split
      · rename_i hlt
        rw [List.reverse_singleton, List.dropWhile_cons_of_neg (by rw [hall n hlt hn]; decide),
          List.reverse_singleton]
      · rw [List.reverse_concat, List.dropWhile_cons_of_neg
          (by rw [hall (n % 10) (Nat.mod_lt n (by decide)) hzero]; decide), List.reverse_cons,
          List.reverse_reverse]

end Digits

namespace Binary64

/-! ## Signs -/

theorem negate_settle (negative : Bool) (m : Nat) (e : Int) :
    (settle negative m e).negate = settle (!negative) m e := by
  rw [settle, settle]
  dsimp only
  split_ifs <;> rfl

theorem negate_ofRatio (negative : Bool) (num den : Nat) :
    (ofRatio negative num den).negate = ofRatio (!negative) num den := by
  rw [ofRatio, ofRatio]
  split
  · rfl
  · exact negate_settle _ _ _

theorem negate_ofDecimal (negative : Bool) (n : Nat) (x : Int) :
    (ofDecimal negative n x).negate = ofDecimal (!negative) n x := by
  rw [ofDecimal, ofDecimal]
  dsimp only
  split_ifs
  · rfl
  · rfl
  · rfl
  · exact negate_ofRatio _ _ _
  · exact negate_ofRatio _ _ _

theorem ofDecimal_eq_finite {n m : Nat} {x e : Int} (h : ofDecimal false n x = .finite false m e)
    (negative : Bool) : ofDecimal negative n x = .finite negative m e := by
  cases negative with
  | false => exact h
  | true =>
    have hnegate := negate_ofDecimal false n x
    rw [h] at hnegate
    exact hnegate.symm

/-! ## Values of numerals -/

theorem isCanonical_ofDecimal (negative : Bool) (n : Nat) (x : Int) :
    (ofDecimal negative n x).IsCanonical := by
  rw [ofDecimal]
  dsimp only
  split_ifs
  · exact isCanonical_zero negative
  · exact trivial
  · exact isCanonical_zero negative
  · exact isCanonical_ofRatio negative n (Nat.pow_pos (by decide))
  · exact isCanonical_ofRatio negative _ Nat.one_pos

/-- Whether digits with a decimal exponent are not so far out that their number alone settles them. -/
def InRange (n : Nat) (x : Int) : Prop :=
  -400 ≤ ((Nat.toDigits 10 n).length : Int) + x ∧ ((Nat.toDigits 10 n).length : Int) + x ≤ 400

theorem ofDecimal_eq_ofRatio (negative : Bool) {n a b : Nat} {x : Int} (hn : n ≠ 0) (hrange : InRange n x)
    (hb : 0 < b) (hvalue : (a : ℚ) / b = n * 10 ^ x) : ofDecimal negative n x = ofRatio negative a b := by
  obtain ⟨hlow, hhigh⟩ := hrange
  rw [ofDecimal, if_neg hn]
  dsimp only
  rw [if_neg (Int.not_lt.mpr hhigh), if_neg (Int.not_lt.mpr hlow)]
  split
  · rename_i hneg
    obtain ⟨k, rfl⟩ : ∃ k : Nat, x = -(k : Int) := ⟨(-x).toNat, by omega⟩
    refine ofRatio_congr negative (Nat.pow_pos (by decide)) hb ?_
    rw [hvalue, Int.neg_neg, Int.toNat_natCast, Nat.pow_eq, zpow_neg, zpow_natCast, div_eq_mul_inv]
    push_cast
    rfl
  · rename_i hnonneg
    obtain ⟨k, rfl⟩ := Int.eq_ofNat_of_zero_le (Int.not_lt.mp hnonneg)
    refine ofRatio_congr negative Nat.one_pos hb ?_
    rw [hvalue, Int.toNat_natCast, Nat.pow_eq, zpow_natCast, Nat.cast_one, div_one]
    push_cast
    rfl

theorem exists_fraction (n : Nat) (x : Int) : ∃ a b : Nat, 0 < b ∧ (a : ℚ) / b = n * 10 ^ x := by
  rcases Int.le_total 0 x with hx | hx
  · obtain ⟨k, rfl⟩ := Int.eq_ofNat_of_zero_le hx
    refine ⟨n * 10 ^ k, 1, Nat.one_pos, ?_⟩
    push_cast
    rw [div_one, zpow_natCast]
  · obtain ⟨k, rfl⟩ : ∃ k : Nat, x = -(k : Int) := ⟨(-x).toNat, by omega⟩
    refine ⟨n, 10 ^ k, Nat.pow_pos (by decide), ?_⟩
    push_cast
    rw [zpow_neg, zpow_natCast, div_eq_mul_inv]

/-- **Zeros at the end.** A zero more counts as an exponent greater by one. -/
theorem ofDecimal_mul_pow (negative : Bool) {n : Nat} (hn : n ≠ 0) (k : Nat) (x : Int) :
    ofDecimal negative (n * 10 ^ k) x = ofDecimal negative n (x + k) := by
  have hpos : 0 < n * 10 ^ k := Nat.mul_pos (Nat.pos_of_ne_zero hn) (Nat.pow_pos (by decide))
  have hlength := Digits.length_toDigits_mul_pow (Nat.pos_of_ne_zero hn) k
  by_cases hrange : InRange n (x + k)
  · obtain ⟨a, b, hb, hvalue⟩ := exists_fraction n (x + k)
    rw [ofDecimal_eq_ofRatio negative hn hrange hb hvalue]
    refine ofDecimal_eq_ofRatio negative hpos.ne' ?_ hb ?_
    · rw [InRange] at hrange ⊢
      rw [hlength]
      omega
    · rw [hvalue, zpow_add₀ (by norm_num), zpow_natCast]
      push_cast
      ring
  · -- out of range the two numerals have the same count of places
    rw [InRange] at hrange
    rw [ofDecimal, ofDecimal, if_neg hpos.ne', if_neg hn]
    dsimp only
    rw [hlength, show ((Nat.toDigits 10 n).length + k : Nat) + x
      = (Nat.toDigits 10 n).length + (x + k) by omega]
    split_ifs
    · rfl
    · rfl
    · omega
    · omega
    · omega
    · omega

/-! ## Digits of a number -/

variable {m : Nat} {e : Int}

theorem ofDecimal_of_firstGrid {n count fuel : Nat} {place : Int}
    (h : firstGrid m e count fuel = some (n, place)) : ofDecimal false n place = .finite false m e := by
  induction fuel generalizing count with
  | zero => exact nomatch h
  | succ fuel ih =>
    rw [firstGrid] at h
    dsimp only at h
    split at h
    · rename_i found hfound
      obtain ⟨rfl, rfl⟩ := Prod.mk.inj (Option.some.inj h)
      have htest := List.find?_some (p := fun n ↦ ofDecimal false n
        (decimalPlaces (ratio m e).1 (ratio m e).2 - count) == finite false m e) hfound
      exact eq_of_beq htest
    · exact ih h

/-- A mantissa times a power of five has digits enough for the places behind the point, but not far
more: `k` halvings make about a third as many zeros there. -/
theorem inRange_mul_five_pow {k : Nat} (hm : m ≠ 0) (hlt : m < 2 ^ 53) (hk : k ≤ 1074) :
    InRange (m * 5 ^ k) (-k) := by
  have hhigh : (Nat.toDigits 10 (m * 5 ^ k)).length ≤ 16 + k := by
    refine Digits.length_toDigits_le (by omega) ?_
    rw [Nat.pow_add]
    exact Nat.mul_lt_mul_of_lt_of_le (hlt.trans (by decide)) (Nat.pow_le_pow_left (by decide) k)
      (Nat.pow_pos (by decide))
  have hlow : k ≤ (Nat.toDigits 10 (m * 5 ^ k)).length + 400 := by
    by_contra! hfew
    have hdigits := Digits.lt_pow_length_toDigits (m * 5 ^ k)
    have hbits : 5 ^ k * 10 ^ 401 < 5 ^ k * 2 ^ 1074 :=
      calc 5 ^ k * 10 ^ 401 ≤ m * 5 ^ k * 10 ^ 401 := by
            gcongr
            exact Nat.le_mul_of_pos_left _ (Nat.pos_of_ne_zero hm)
        _ < 10 ^ (Nat.toDigits 10 (m * 5 ^ k)).length * 10 ^ 401 := by gcongr
        _ = 10 ^ ((Nat.toDigits 10 (m * 5 ^ k)).length + 401) := by rw [Nat.pow_add]
        _ ≤ 10 ^ k := Nat.pow_le_pow_right (by decide) hfew
        _ = 5 ^ k * 2 ^ k := by rw [← Nat.mul_pow]
        _ ≤ 5 ^ k * 2 ^ 1074 := by gcongr; decide
    exact absurd (Nat.lt_of_mul_lt_mul_left hbits) (by decide +kernel)
  constructor <;> omega

theorem inRange_mul_two_pow {k : Nat} (hlt : m < 2 ^ 53) (hk : k ≤ 971) : InRange (m * 2 ^ k) 0 := by
  have hhigh : (Nat.toDigits 10 (m * 2 ^ k)).length ≤ 400 := by
    refine Digits.length_toDigits_le (by decide) ?_
    calc m * 2 ^ k < 2 ^ 53 * 2 ^ k := by gcongr
      _ ≤ 2 ^ 53 * 2 ^ 971 := by gcongr; decide
      _ < 10 ^ 400 := by decide +kernel
  constructor <;> omega

theorem inRange_exactDecimal (h : (finite false m e).IsCanonical) (hm : m ≠ 0) :
    InRange (exactDecimal m e).1 (exactDecimal m e).2 := by
  obtain ⟨hlt, hleast, hgreatest, -⟩ := h
  rw [leastExponent] at hleast
  rw [greatestExponent] at hgreatest
  rw [exactDecimal]
  split
  · rename_i hneg
    obtain ⟨k, rfl⟩ : ∃ k : Nat, e = -(k : Int) := ⟨(-e).toNat, by omega⟩
    rw [Int.neg_neg, Int.toNat_natCast]
    exact inRange_mul_five_pow hm hlt (by omega)
  · rename_i hnonneg
    obtain ⟨k, rfl⟩ := Int.eq_ofNat_of_zero_le (Int.not_lt.mp hnonneg)
    rw [Int.toNat_natCast]
    exact inRange_mul_two_pow hlt (by omega)

theorem exactDecimal_value (m : Nat) (e : Int) :
    ((exactDecimal m e).1 : ℚ) * 10 ^ (exactDecimal m e).2 = m * 2 ^ e := by
  rw [exactDecimal]
  split
  · rename_i hneg
    obtain ⟨k, rfl⟩ : ∃ k : Nat, e = -(k : Int) := ⟨(-e).toNat, by omega⟩
    rw [Int.neg_neg, Int.toNat_natCast, Nat.pow_eq, zpow_neg, zpow_neg, zpow_natCast, zpow_natCast]
    push_cast
    rw [show (10 : ℚ) = 5 * 2 by norm_num, mul_pow]
    field_simp
  · rename_i hnonneg
    obtain ⟨k, rfl⟩ := Int.eq_ofNat_of_zero_le (Int.not_lt.mp hnonneg)
    rw [Int.toNat_natCast, Nat.pow_eq, zpow_zero, zpow_natCast, mul_one]
    push_cast
    rfl

/-- **The digits of a number.** Read as a numeral they are that number. -/
theorem ofDecimal_shortestDecimal (h : (finite false m e).IsCanonical) (hm : m ≠ 0) :
    (shortestDecimal m e).1 ≠ 0 ∧
      ofDecimal false (shortestDecimal m e).1 (shortestDecimal m e).2 = .finite false m e := by
  have hread : ofDecimal false (shortestDecimal m e).1 (shortestDecimal m e).2 = .finite false m e := by
    rw [shortestDecimal]
    cases hgrid : firstGrid m e 1 17 with
    | some found => exact ofDecimal_of_firstGrid hgrid
    | none =>
      have hn : (exactDecimal m e).1 ≠ 0 := by
        intro hzero
        have hvalue := exactDecimal_value m e
        rw [hzero, Nat.cast_zero, zero_mul] at hvalue
        have hpow : (2 : ℚ) ^ e ≠ 0 := by positivity
        exact hm (by exact_mod_cast (mul_eq_zero.mp hvalue.symm).resolve_right hpow)
      obtain ⟨a, b, hb, hvalue⟩ := exists_fraction (exactDecimal m e).1 (exactDecimal m e).2
      rw [Option.getD_none, ofDecimal_eq_ofRatio false hn (inRange_exactDecimal h hm) hb hvalue]
      exact ofRatio_eq_finite h hm hb (hvalue.trans (exactDecimal_value m e))
  refine ⟨fun hzero ↦ ?_, hread⟩
  rw [hzero] at hread
  exact hm (finite.inj hread).2.1.symm

end Binary64

end NoteQuery
