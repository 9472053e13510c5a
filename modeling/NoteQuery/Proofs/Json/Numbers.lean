import NoteQuery.Json.Printer
import NoteQuery.Json.Reader
import NoteQuery.Proofs.Number.Decimal

/-!
# Numbers in JSON

A number is read to the end of its text, if what follows cannot belong to it. However the digits of a
number with a fraction are laid out, what is read is a numeral of the same value, so it is that number.
-/

namespace NoteQuery

/-! ## Digits -/

namespace Number

theorem digitValue?_of_isDigit {c : Char} (h : c.isDigit = true) :
    digitValue? 10 c = some (c.toNat - '0'.toNat) := by
  have hall : ∀ k : Fin 10, digitValue? 10 (Char.ofNat ('0'.toNat + k)) = some k.val := by
    decide +kernel
  obtain ⟨hlow, hhigh⟩ := Char.isDigit_iff_toNat.mp h
  have hlt : c.toNat - '0'.toNat < 10 := by
    have hnine : '9'.toNat = '0'.toNat + 9 := rfl
    omega
  have hc := hall ⟨_, hlt⟩
  rwa [Nat.add_sub_cancel' hlow, Char.ofNat_toNat] at hc

theorem digitsFrom_of_forall_isDigit {cs : List Char} (h : ∀ c ∈ cs, c.isDigit = true) (acc : Nat) :
    digitsFrom 10 acc cs = some (Nat.ofDigitChars 10 cs acc) := by
  induction cs generalizing acc with
  | nil => rfl
  | cons c cs ih =>
    rw [digitsFrom, digitValue?_of_isDigit (h c List.mem_cons_self), Option.bind_some,
      ih fun d hd ↦ h d (List.mem_cons_of_mem c hd), Nat.ofDigitChars_cons, Nat.mul_comm]

end Number

namespace Json

/-- Whether a text goes on with nothing that may belong to a number. -/
def EndsNumber (rest : List Char) : Prop := ∀ c ∈ rest.head?, c.isDigit = false ∧ c ∉ ['.', 'e', 'E']

theorem isDigit_of_mem_toDigits {n : Nat} : ∀ c ∈ Nat.toDigits 10 n, c.isDigit = true :=
  fun _ hc ↦ Nat.isDigit_of_mem_toDigits (by decide) (by decide) hc

theorem spanDigits_append {ds rest : List Char} (hds : ∀ c ∈ ds, c.isDigit = true)
    (hrest : ∀ c ∈ rest.head?, c.isDigit = false) : spanDigits (ds ++ rest) = (ds, rest) := by
  have hnone : rest.takeWhile Char.isDigit = [] ∧ rest.dropWhile Char.isDigit = rest := by
    cases rest with
    | nil => exact ⟨rfl, rfl⟩
    | cons c rest =>
      have hc := ne_true_of_eq_false (hrest c rfl)
      exact ⟨List.takeWhile_cons_of_neg hc, List.dropWhile_cons_of_neg hc⟩
  rw [spanDigits, List.span_eq_takeWhile_dropWhile, List.takeWhile_append_of_pos hds,
    List.dropWhile_append_of_pos hds, hnone.1, hnone.2, List.append_nil]

/-! ## The parts of a number -/

section

variable {ds rest : List Char} (hds : ∀ c ∈ ds, c.isDigit = true)
include hds

theorem readWhole_append (hne : ds ≠ []) (hzero : ds = ['0'] ∨ ds.head? ≠ some '0')
    (hrest : ∀ c ∈ rest.head?, c.isDigit = false) : readWhole (ds ++ rest) = some (ds, rest) := by
  rcases hzero with rfl | hhead
  · rfl
  · obtain ⟨c, ds, rfl⟩ := List.exists_cons_of_ne_nil hne
    rw [List.cons_append, readWhole, ← List.cons_append, spanDigits_append hds hrest]
    · rfl
    · exact fun _ h ↦ hhead (congrArg some (List.cons.inj h).1)

theorem readFraction_append (hne : ds ≠ []) (hrest : ∀ c ∈ rest.head?, c.isDigit = false) :
    readFraction ('.' :: (ds ++ rest)) = (some ds, rest) := by
  rw [readFraction, spanDigits_append hds hrest]
  exact if_neg (mt List.isEmpty_iff.mp hne)

end

theorem readFraction_of_head?_ne {rest : List Char} (h : rest.head? ≠ some '.') :
    readFraction rest = (none, rest) := by
  cases rest with
  | nil => rfl
  | cons c rest =>
    rw [readFraction]
    exact fun tail htail ↦ h (congrArg some (List.cons.inj htail).1)

theorem digits?_exponentText (e : Int) : ∃ ds, Binary64.exponentText e = (if e < 0 then '-' else '+') :: ds ∧
    (∀ c ∈ ds, c.isDigit = true) ∧ Number.digits? 10 ds = some e.natAbs := by
  have hvalue : ∀ ds, ds = Nat.toDigits 10 e.natAbs ∨ ds = '0' :: Nat.toDigits 10 e.natAbs →
      (∀ c ∈ ds, c.isDigit = true) ∧ Number.digits? 10 ds = some e.natAbs := by
    intro ds hds
    have hdigits : ∀ c ∈ ds, c.isDigit = true := by
      rcases hds with rfl | rfl
      · exact isDigit_of_mem_toDigits
      · exact List.forall_mem_cons.mpr ⟨rfl, isDigit_of_mem_toDigits⟩
    refine ⟨hdigits, ?_⟩
    rw [Number.digits?, Number.digitsFrom_of_forall_isDigit hdigits]
    rcases hds with rfl | rfl
    · rw [if_neg (mt List.isEmpty_iff.mp Nat.toDigits_ne_nil), Nat.ofDigitChars_ten_toDigits]
    · exact congrArg some Nat.ofDigitChars_ten_toDigits
  refine ⟨_, rfl, hvalue _ ?_⟩
  split
  · exact .inr rfl
  · exact .inl rfl

theorem readExponent_append (e : Int) {rest : List Char} (hrest : ∀ c ∈ rest.head?, c.isDigit = false) :
    readExponent ('e' :: (Binary64.exponentText e ++ rest)) = (some e, rest) := by
  obtain ⟨ds, htext, hds, hvalue⟩ := digits?_exponentText e
  have hsign : Number.splitSign (Binary64.exponentText e ++ rest) = (decide (e < 0), ds ++ rest) := by
    rw [htext, List.cons_append]
    split
    · rename_i hneg
      rw [decide_eq_true hneg]
      rfl
    · rename_i hneg
      rw [decide_eq_false hneg]
      rfl
  rw [readExponent, if_pos (by decide), hsign]
  dsimp only
  rw [spanDigits_append hds hrest]
  dsimp only
  rw [hvalue]
  refine congrArg (fun n ↦ (some n, rest)) ?_
  split
  · rename_i hneg
    have hneg := of_decide_eq_true hneg
    omega
  · rename_i hneg
    have hneg := of_decide_eq_false (Bool.eq_false_iff.mpr hneg)
    omega

theorem readExponent_of_head?_ne {rest : List Char} (h : ∀ c ∈ rest.head?, c ∉ ['e', 'E']) :
    readExponent rest = (none, rest) := by
  cases rest with
  | nil => rfl
  | cons c rest =>
    have hc := h c rfl
    rw [readExponent, if_neg]
    simpa using hc

/-! ## Numerals -/

/-- An exponent, if there is one. -/
def exponentChars : Option Int → List Char
  | none => []
  | some e => 'e' :: Binary64.exponentText e

/-- A numeral: a whole part, a fraction unless that is empty, and an exponent if there is one. -/
def numeralChars (whole fraction : List Char) (exponent : Option Int) : List Char :=
  whole ++ ((if fraction = [] then [] else '.' :: fraction) ++ exponentChars exponent)

/-- Whether parts make a numeral that is no integer. -/
structure IsNumeral (whole fraction : List Char) (exponent : Option Int) : Prop where
  whole_ne_nil : whole ≠ []
  /-- The whole part is a zero, or does not begin with one. -/
  zero : whole = ['0'] ∨ whole.head? ≠ some '0'
  whole_digits : ∀ c ∈ whole, c.isDigit = true
  fraction_digits : ∀ c ∈ fraction, c.isDigit = true
  /-- There is a fraction or an exponent. -/
  float : fraction ≠ [] ∨ exponent ≠ none

/-- An exponent is read to its end, and nothing in front of it belongs to it. -/
theorem readExponent_exponentChars (exponent : Option Int) {rest : List Char} (hrest : EndsNumber rest) :
    readExponent (exponentChars exponent ++ rest) = (exponent, rest) ∧
      ∀ c ∈ (exponentChars exponent ++ rest).head?, c.isDigit = false ∧ c ≠ '.' := by
  cases exponent with
  | none =>
    refine ⟨readExponent_of_head?_ne fun c hc hmem ↦ (hrest c hc).2 (List.mem_cons_of_mem _ hmem),
      fun c hc ↦ ⟨(hrest c hc).1, ?_⟩⟩
    rintro rfl
    exact (hrest _ hc).2 List.mem_cons_self
  | some e =>
    refine ⟨readExponent_append e fun c hc ↦ (hrest c hc).1, fun c hc ↦ ?_⟩
    cases Option.mem_some.mp hc
    decide

/-- **Numerals.** A numeral is read as the number that its digits and its exponent are. -/
theorem readNumber_numeralChars {whole fraction : List Char} {exponent : Option Int}
    (h : IsNumeral whole fraction exponent) (negative : Bool) {rest : List Char} (hrest : EndsNumber rest) :
    readNumber negative (numeralChars whole fraction exponent ++ rest)
      = some (.float (.ofDecimal negative (Nat.ofDigitChars 10 (whole ++ fraction) 0)
          (exponent.getD 0 - fraction.length)), rest) := by
  have hdigits : ∀ c ∈ whole ++ fraction, c.isDigit = true := fun c hc ↦
    (List.mem_append.mp hc).elim (h.whole_digits c) (h.fraction_digits c)
  obtain ⟨hexponent, hhead⟩ := readExponent_exponentChars exponent hrest
  rw [numeralChars, List.append_assoc, List.append_assoc, readNumber]
  by_cases hfraction : fraction = []
  · have hpoint : (exponentChars exponent ++ rest).head? ≠ some '.' := fun hc ↦ (hhead _ hc).2 rfl
    rw [if_pos hfraction, List.nil_append, readWhole_append h.whole_digits h.whole_ne_nil h.zero
      fun c hc ↦ (hhead c hc).1]
    dsimp only [Option.bind_some]
    rw [readFraction_of_head?_ne hpoint]
    dsimp only
    rw [hexponent]
    dsimp only [Option.getD_none]
    rw [hfraction, List.append_nil] at hdigits ⊢
    rw [Number.digitsFrom_of_forall_isDigit hdigits]
    have hnone : exponent.isNone = false := by
      rw [Option.isNone_eq_false_iff, Option.isSome_iff_ne_none]
      exact h.float.resolve_left (not_not_intro hfraction)
    dsimp only [Option.bind_some]
    rw [hnone]
    rfl
  · rw [if_neg hfraction, List.cons_append, readWhole_append h.whole_digits h.whole_ne_nil h.zero]
    · dsimp only [Option.bind_some]
      rw [readFraction_append h.fraction_digits hfraction fun c hc ↦ (hhead c hc).1]
      dsimp only
      rw [hexponent]
      dsimp only [Option.getD_some]
      rw [Number.digitsFrom_of_forall_isDigit hdigits]
      rfl
    · intro c hc
      cases Option.mem_some.mp hc
      rfl

theorem readNumber_toDigits (negative : Bool) {n : Nat} (hn : (Nat.toDigits 10 n).length ≤ Number.mostDigits)
    {rest : List Char} (hrest : EndsNumber rest) :
    readNumber negative (Nat.toDigits 10 n ++ rest)
      = some (.int (if negative then -(n : Int) else n), rest) := by
  have hzero : Nat.toDigits 10 n = ['0'] ∨ (Nat.toDigits 10 n).head? ≠ some '0' := by
    by_cases hn : n = 0
    · rw [hn]
      exact .inl rfl
    · exact .inr (Digits.head?_toDigits_ne hn)
  obtain ⟨hexponent, hhead⟩ := readExponent_exponentChars none hrest
  rw [exponentChars, List.nil_append] at hexponent hhead
  rw [readNumber, readWhole_append isDigit_of_mem_toDigits Nat.toDigits_ne_nil hzero
    fun c hc ↦ (hhead c hc).1]
  dsimp only [Option.bind_some]
  rw [readFraction_of_head?_ne fun hc ↦ (hhead _ hc).2 rfl]
  dsimp only
  rw [hexponent]
  dsimp only [Option.getD_none]
  rw [List.append_nil, Number.digitsFrom_of_forall_isDigit isDigit_of_mem_toDigits,
    Nat.ofDigitChars_ten_toDigits]
  change (if Number.mostDigits < (Nat.toDigits 10 n).length then none else _) = _
  exact if_neg (Nat.not_lt.mpr hn)

/-! ## Layouts -/

/-- Whether a text is a numeral of the value of digits with a decimal exponent. -/
def IsNumeralOf (n : Nat) (x : Int) (cs : List Char) : Prop :=
  ∃ whole fraction exponent, cs = numeralChars whole fraction exponent ∧
    IsNumeral whole fraction exponent ∧
    ∀ negative, Binary64.ofDecimal negative (Nat.ofDigitChars 10 (whole ++ fraction) 0)
      (exponent.getD 0 - fraction.length) = .ofDecimal negative n x

theorem isDigit_of_mem_replicate {k : Nat} : ∀ c ∈ List.replicate k '0', c.isDigit = true := by
  intro c hc
  rw [List.eq_of_mem_replicate hc]
  rfl

section

variable {ds : List Char} (hdigits : ∀ c ∈ ds, c.isDigit = true) (hhead : ds.head? ≠ some '0')
include hdigits

theorem isNumeralOf_zeros_append (hne : ds ≠ []) (k : Nat) :
    IsNumeralOf (Nat.ofDigitChars 10 ds 0) (-k - ds.length)
      ('0' :: '.' :: (List.replicate k '0' ++ ds)) := by
  have hfraction : List.replicate k '0' ++ ds ≠ [] := List.append_ne_nil_of_right_ne_nil _ hne
  refine ⟨['0'], List.replicate k '0' ++ ds, none, ?_, ?_, fun negative ↦ ?_⟩
  · rw [numeralChars, if_neg hfraction, exponentChars, List.append_nil]
    rfl
  · exact ⟨List.cons_ne_nil _ [], .inl rfl, List.forall_mem_singleton.mpr rfl,
      fun c hc ↦ (List.mem_append.mp hc).elim (isDigit_of_mem_replicate c) (hdigits c), .inl hfraction⟩
  · rw [List.singleton_append, Nat.ofDigitChars_cons, Nat.ofDigitChars_append,
      Nat.ofDigitChars_replicate_zero, Nat.mul_zero, Nat.sub_self, Nat.add_zero, Nat.mul_zero,
      Option.getD_none, List.length_append, List.length_replicate]
    congr 1
    omega

include hhead

theorem isNumeralOf_scientific {d : Char} {tail : List Char} (hds : ds = d :: tail) (point : Int) :
    IsNumeralOf (Nat.ofDigitChars 10 ds 0) (point - ds.length)
      (numeralChars [d] tail (some (point - 1))) := by
  subst hds
  obtain ⟨hd, htail⟩ := List.forall_mem_cons.mp hdigits
  refine ⟨[d], tail, some (point - 1), rfl, ?_, fun negative ↦ ?_⟩
  · exact ⟨List.cons_ne_nil d [], .inr hhead, List.forall_mem_singleton.mpr hd, htail, .inr nofun⟩
  · rw [List.singleton_append, Option.getD_some, List.length_cons]
    congr 1
    omega

theorem isNumeralOf_append_zeros (hvalue : Nat.ofDigitChars 10 ds 0 ≠ 0) (hne : ds ≠ []) (k : Nat) :
    IsNumeralOf (Nat.ofDigitChars 10 ds 0) k (ds ++ List.replicate k '0' ++ ['.', '0']) := by
  refine ⟨ds ++ List.replicate k '0', ['0'], none, ?_, ?_, fun negative ↦ ?_⟩
  · rw [numeralChars, if_neg (List.cons_ne_nil _ []), exponentChars, List.append_nil]
  · refine ⟨List.append_ne_nil_of_left_ne_nil hne _, .inr ?_,
      fun c hc ↦ (List.mem_append.mp hc).elim (hdigits c) (isDigit_of_mem_replicate c),
      List.forall_mem_singleton.mpr rfl, .inl (List.cons_ne_nil _ [])⟩
    rwa [List.head?_append_of_ne_nil _ hne]
  · rw [List.append_assoc, Nat.ofDigitChars_append, ← List.replicate_succ',
      Nat.ofDigitChars_replicate_zero, Nat.mul_comm, Option.getD_none, List.length_singleton,
      Binary64.ofDecimal_mul_pow negative hvalue]
    congr 1
    omega

theorem isNumeralOf_take_drop {k : Nat} (hpos : 0 < k) (hlt : k < ds.length) :
    IsNumeralOf (Nat.ofDigitChars 10 ds 0) (k - ds.length) (ds.take k ++ '.' :: ds.drop k) := by
  have htake : ds.take k ≠ [] := by
    rw [ne_eq, List.take_eq_nil_iff, ← List.length_eq_zero_iff]
    omega
  have hdrop : ds.drop k ≠ [] := by
    rw [ne_eq, List.drop_eq_nil_iff]
    omega
  refine ⟨ds.take k, ds.drop k, none, ?_, ?_, fun negative ↦ ?_⟩
  · rw [numeralChars, if_neg hdrop, exponentChars, List.append_nil]
  · refine ⟨htake, .inr ?_, fun c hc ↦ hdigits c (List.mem_of_mem_take hc),
      fun c hc ↦ hdigits c (List.mem_of_mem_drop hc), .inl hdrop⟩
    rwa [← List.take_append_drop k ds, List.head?_append_of_ne_nil _ htake] at hhead
  · rw [List.take_append_drop, Option.getD_none, List.length_drop]
    congr 1
    omega

/-- **Layouts.** However digits are laid out, the text is a numeral of them. -/
theorem isNumeralOf_layout (hvalue : Nat.ofDigitChars 10 ds 0 ≠ 0) (hne : ds ≠ []) (point : Int) :
    IsNumeralOf (Nat.ofDigitChars 10 ds 0) (point - ds.length) (Binary64.layout ds point) := by
  rw [Binary64.layout.eq_def]
  split_ifs with hscientific hsmall hwhole
  · obtain ⟨d, tail, rfl⟩ := List.exists_cons_of_ne_nil hne
    have hshown := isNumeralOf_scientific hdigits hhead rfl point
    cases tail <;> exact hshown
  · have hzeros := isNumeralOf_zeros_append hdigits hne (-point).toNat
    rwa [Int.toNat_of_nonneg (by omega), Int.neg_neg] at hzeros
  · have hzeros := isNumeralOf_append_zeros hdigits hhead hvalue hne (point.toNat - ds.length)
    rwa [show ((point.toNat - ds.length : Nat) : Int) = point - ds.length by omega] at hzeros
  · have hpoint := isNumeralOf_take_drop hdigits hhead (k := point.toNat) (by omega) (by omega)
    rwa [Int.toNat_of_nonneg (by omega)] at hpoint

end

/-- **Texts of numbers.** The text of a positive number in canonical form is read as that number, with
either sign. -/
theorem exists_toText_eq {m : Nat} {e : Int} (h : (Binary64.finite false m e).IsCanonical) (hm : m ≠ 0) :
    ∃ whole fraction exponent, IsNumeral whole fraction exponent ∧
      (∀ negative, (Binary64.finite negative m e).toText.toList
        = (if negative then ['-'] else []) ++ numeralChars whole fraction exponent) ∧
      ∀ negative, Binary64.ofDecimal negative (Nat.ofDigitChars 10 (whole ++ fraction) 0)
        (exponent.getD 0 - fraction.length) = .finite negative m e := by
  obtain ⟨hn, hread⟩ := Binary64.ofDecimal_shortestDecimal h hm
  obtain ⟨d, k, hd, hvalue, hstripped⟩ := Digits.exists_dropWhile_toDigits hn
  have hlength := Digits.length_toDigits_mul_pow (Nat.pos_of_ne_zero hd) k
  rw [← hvalue] at hlength
  have hlayout := isNumeralOf_layout isDigit_of_mem_toDigits (Digits.head?_toDigits_ne hd)
    (by rwa [Nat.ofDigitChars_ten_toDigits]) Nat.toDigits_ne_nil
    ((Nat.toDigits 10 (Binary64.shortestDecimal m e).1).length + (Binary64.shortestDecimal m e).2)
  rw [Nat.ofDigitChars_ten_toDigits] at hlayout
  obtain ⟨whole, fraction, exponent, htext, hnumeral, hnumber⟩ := hlayout
  refine ⟨whole, fraction, exponent, hnumeral, fun negative ↦ ?_, fun negative ↦ ?_⟩
  · rw [Binary64.toText, if_neg hm, String.toList_ofList, ← htext, ← hstripped]
    cases negative <;> rfl
  · rw [hnumber, hlength, ← Binary64.ofDecimal_eq_finite hread negative, hvalue,
      Binary64.ofDecimal_mul_pow negative hd]
    congr 1
    push_cast
    ring

/-! ## Numbers as values -/

/-- What begins with no letter of a word and with no sign is read as a number. -/
theorem readScalar_of_notMem {c : Char} (h : c ∉ ['n', 't', 'f', 'N', 'I', '-']) (cs : List Char) :
    readScalar (c :: cs) = readNumber false (c :: cs) := by
  have hne : ∀ d ∈ ['n', 't', 'f', 'N', 'I', '-'], ∀ tail, c :: cs = d :: tail → False := by
    intro d hd tail heq
    rw [(List.cons.inj heq).1] at h
    exact h hd
  exact readScalar.eq_8 _ (hne 'n' (by decide)) (hne 't' (by decide)) (hne 'f' (by decide))
    (hne 'N' (by decide)) (hne 'I' (by decide)) (fun tail ↦ hne '-' (by decide) _) (hne '-' (by decide))

theorem readScalar_of_isDigit {c : Char} (h : c.isDigit = true) (cs : List Char) :
    readScalar (c :: cs) = readNumber false (c :: cs) ∧
      readScalar ('-' :: c :: cs) = readNumber true (c :: cs) := by
  have hletters : ∀ d ∈ ['n', 't', 'f', 'N', 'I', '-'], d.isDigit = false := by simp
  have hmem : c ∉ ['n', 't', 'f', 'N', 'I', '-'] := by
    intro hmem
    rw [hletters c hmem] at h
    cases h
  refine ⟨readScalar_of_notMem hmem cs, readScalar.eq_7 _ fun tail heq ↦ hmem ?_⟩
  rw [(List.cons.inj heq).1]
  decide

theorem readScalar_numeralChars {whole fraction : List Char} {exponent : Option Int}
    (h : IsNumeral whole fraction exponent) (negative : Bool) {rest : List Char} (hrest : EndsNumber rest) :
    readScalar ((if negative then ['-'] else []) ++ numeralChars whole fraction exponent ++ rest)
      = some (.float (.ofDecimal negative (Nat.ofDigitChars 10 (whole ++ fraction) 0)
          (exponent.getD 0 - fraction.length)), rest) := by
  have hread := readNumber_numeralChars h negative hrest
  obtain ⟨c, whole, rfl⟩ := List.exists_cons_of_ne_nil h.whole_ne_nil
  have hdigit := readScalar_of_isDigit (h.whole_digits c List.mem_cons_self)
  cases negative with
  | false => exact (hdigit _).1.trans hread
  | true => exact (hdigit _).2.trans hread

/-- **Integers.** An integer that is not too long is read up to its last digit. -/
theorem readScalar_intChars {n : Int} (hn : (Nat.toDigits 10 n.natAbs).length ≤ Number.mostDigits)
    {rest : List Char} (hrest : EndsNumber rest) : readScalar (intChars n ++ rest) = some (.int n, rest) := by
  obtain ⟨c, ds, hds⟩ := List.exists_cons_of_ne_nil (Nat.toDigits_ne_nil (n := n.natAbs) (b := 10))
  have hdigit := readScalar_of_isDigit
    (isDigit_of_mem_toDigits (n := n.natAbs) c (hds ▸ List.mem_cons_self)) (ds ++ rest)
  rw [← List.cons_append, ← hds] at hdigit
  rw [intChars]
  split
  · rename_i hneg
    rw [List.cons_append, hdigit.2, readNumber_toDigits true hn hrest, if_pos rfl]
    congr 3
    omega
  · rename_i hneg
    rw [hdigit.1, readNumber_toDigits false hn hrest, if_neg Bool.false_ne_true]
    congr 3
    omega

/-- **Numbers with a fraction.** A number in canonical form is read as it is written. -/
theorem readScalar_floatText {x : Binary64} (h : x.IsCanonical) {rest : List Char} (hrest : EndsNumber rest) :
    readScalar ((floatText x).toList ++ rest) = some (.float x, rest) := by
  cases x with
  | nan => rfl
  | infinite negative => cases negative <;> rfl
  | finite negative m e =>
    change readScalar ((Binary64.finite negative m e).toText.toList ++ rest) = _
    by_cases hm : m = 0
    · have he : e = Binary64.leastExponent := by
        rcases h.2.2.2 with he | hle
        · exact he
        · omega
      subst hm
      have hdigit : ∀ c ∈ ['0'], c.isDigit = true := List.forall_mem_singleton.mpr rfl
      have hzero : IsNumeral ['0'] ['0'] none := ⟨by decide, .inl rfl, hdigit, hdigit, .inl (by decide)⟩
      have hread := readScalar_numeralChars hzero negative hrest
      rw [he]
      cases negative with
      | false => exact hread
      | true => exact hread
    · obtain ⟨whole, fraction, exponent, hnumeral, htext, hnumber⟩ := exists_toText_eq h hm
      rw [htext, readScalar_numeralChars hnumeral negative hrest, hnumber]

/-! ## Words and numbers in a text -/

theorem isDelimiter_of_isDigit {c : Char} (h : c.isDigit = true) : isDelimiter c = false := by
  refine Bool.eq_false_iff.mpr fun hc ↦ ?_
  simp only [isDelimiter, isSpace, Bool.or_eq_true, beq_iff_eq] at hc
  rcases hc with (((((rfl | rfl) | rfl) | rfl) | rfl) | rfl) | rfl
  all_goals cases h

theorem isDelimiter_of_mem_digits {ds : List Char} (h : ∀ c ∈ ds, c.isDigit = true) :
    ∀ c ∈ ds, isDelimiter c = false := fun c hc ↦ isDelimiter_of_isDigit (h c hc)

theorem isDelimiter_of_mem_numeralChars {whole fraction : List Char} {exponent : Option Int}
    (h : IsNumeral whole fraction exponent) :
    ∀ c ∈ numeralChars whole fraction exponent, isDelimiter c = false := by
  rw [numeralChars]
  simp only [List.forall_mem_append]
  refine ⟨isDelimiter_of_mem_digits h.whole_digits, ?_, ?_⟩
  · split
    · exact nofun
    · exact List.forall_mem_cons.mpr ⟨rfl, isDelimiter_of_mem_digits h.fraction_digits⟩
  · cases exponent with
    | none => exact nofun
    | some e =>
      obtain ⟨ds, htext, hds, -⟩ := digits?_exponentText e
      rw [exponentChars, htext]
      simp only [List.forall_mem_cons]
      refine ⟨rfl, ?_, isDelimiter_of_mem_digits hds⟩
      split <;> rfl

theorem isDelimiter_of_mem_intChars {n : Int} : ∀ c ∈ intChars n, isDelimiter c = false := by
  rw [intChars]
  split
  · exact List.forall_mem_cons.mpr ⟨rfl, isDelimiter_of_mem_digits isDigit_of_mem_toDigits⟩
  · exact isDelimiter_of_mem_digits isDigit_of_mem_toDigits

theorem delimiter_free_iff {cs : List Char} :
    (cs.all fun c ↦ !isDelimiter c) = true ↔ ∀ c ∈ cs, isDelimiter c = false := by
  simp

theorem isDelimiter_of_mem_floatText {x : Binary64} (h : x.IsCanonical) :
    ∀ c ∈ (floatText x).toList, isDelimiter c = false := by
  cases x with
  | nan => exact delimiter_free_iff.mp rfl
  | infinite negative => cases negative <;> exact delimiter_free_iff.mp rfl
  | finite negative m e =>
    by_cases hm : m = 0
    · have htext : floatText (.finite negative m e) = if negative then "-0.0" else "0.0" := by
        subst hm
        cases negative <;> rfl
      rw [htext]
      cases negative <;> exact delimiter_free_iff.mp rfl
    · obtain ⟨whole, fraction, exponent, hnumeral, htext, -⟩ := exists_toText_eq h hm
      have hchars := htext negative
      change ∀ c ∈ (Binary64.finite negative m e).toText.toList, _
      rw [hchars]
      refine List.forall_mem_append.mpr ⟨?_, isDelimiter_of_mem_numeralChars hnumeral⟩
      cases negative <;> exact delimiter_free_iff.mp rfl

/-- Whether a word or a number ends before a text. -/
def EndsLeaf (cs : List CodePoint) : Prop := (spanLeaf cs).1 = []

theorem spanLeaf_of_endsLeaf {cs : List CodePoint} (h : EndsLeaf cs) : spanLeaf cs = ([], cs) := by
  match cs with
  | [] => rfl
  | .half d :: cs => rfl
  | .char c :: cs =>
    rw [EndsLeaf, spanLeaf] at h
    rw [spanLeaf]
    split at h
    · next hc => rw [if_pos hc]
    · cases h

/-- A word or a number is read as it would be alone, if it ends before what follows it. -/
theorem readLeaf_map_append (cs : List Char) {j : Json} (hread : readScalar cs = some (j, []))
    (h : ∀ c ∈ cs, isDelimiter c = false) {rest : List CodePoint} (hrest : EndsLeaf rest) :
    readLeaf (cs.map .char ++ rest) = some (j, rest) := by
  have hspan : spanLeaf (cs.map .char ++ rest) = (cs, rest) := by
    clear hread
    induction cs with
    | nil => exact spanLeaf_of_endsLeaf hrest
    | cons c cs ih =>
      obtain ⟨hc, h⟩ := List.forall_mem_cons.mp h
      rw [List.map_cons, List.cons_append, spanLeaf, hc, ih h]
      rfl
  rw [readLeaf, hspan, hread]
  rfl

theorem endsNumber_nil : EndsNumber [] := by
  rintro c ⟨⟩

theorem readLeaf_intChars {n : Int} (hn : (Nat.toDigits 10 n.natAbs).length ≤ Number.mostDigits)
    {rest : List CodePoint} (hrest : EndsLeaf rest) :
    readLeaf ((intChars n).map .char ++ rest) = some (.int n, rest) := by
  have hread := readScalar_intChars hn endsNumber_nil
  rw [List.append_nil] at hread
  exact readLeaf_map_append _ hread isDelimiter_of_mem_intChars hrest

theorem readLeaf_floatText {x : Binary64} (h : x.IsCanonical) {rest : List CodePoint} (hrest : EndsLeaf rest) :
    readLeaf ((floatText x).toList.map .char ++ rest) = some (.float x, rest) := by
  have hread := readScalar_floatText h endsNumber_nil
  rw [List.append_nil] at hread
  exact readLeaf_map_append _ hread (isDelimiter_of_mem_floatText h) hrest

end Json

end NoteQuery
