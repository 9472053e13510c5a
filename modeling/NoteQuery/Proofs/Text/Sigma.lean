import NoteQuery.Proofs.Text.Case

/-!
# Lower case of a part of a text

In lower case every character stands for itself, whatever stands around it, but for the capital sigma:
it takes its final form at the end of a word. So the lower case of a part of a text is a part of the
lower case of the text, unless what stands around the part changes the form of a sigma in it.

Whether that can happen is seen from the part alone. A sigma ends a word if the nearest character
before it that is not passed over is a letter and the nearest one behind it is none. Its form is open
if the part ends on one side before that character is met, while the other side does not settle the
form by itself (`IsOpen`). The parts without such a sigma are those that keep their lower case whatever
stands around them (`settlesSigmas_iff`).
-/

namespace NoteQuery.Text

/-! ## The form of a sigma -/

/-- Whether a capital sigma ends a word between two texts, the first of which is given backwards. -/
def endsWord (before after : List Char) : Bool := meetsCased before && !meetsCased after

/-- The small sigma at the end of a word, or elsewhere. -/
def smallSigma (final : Bool) : Char := if final then 'ς' else 'σ'

theorem smallSigma_inj {final final' : Bool} : smallSigma final = smallSigma final' ↔ final = final' := by
  cases final <;> cases final' <;> decide

/-- The lower case of a character between two texts. -/
def lowerPiece (before after : List Char) (c : Char) : List Char :=
  if c = 'Σ' then [smallSigma (endsWord before after)] else lowerChar c

/-- The lower case of a text between two others, the first of which is given backwards. -/
def lowerBetween (before after : List Char) : List Char → List Char
  | [] => []
  | c :: rest => lowerPiece before (rest ++ after) c ++ lowerBetween (c :: before) after rest

theorem lowerFrom_append (before cs after : List Char) :
    lowerFrom before (cs ++ after)
      = lowerBetween before after cs ++ lowerFrom (cs.reverse ++ before) after := by
  induction cs generalizing before with
  | nil => rfl
  | cons c cs ih =>
    have hbefore : (c :: cs).reverse ++ before = cs.reverse ++ c :: before := by simp
    rw [List.cons_append, lowerFrom, lowerBetween, ih, hbefore, List.append_assoc]
    rfl

theorem lower_eq_lowerBetween (cs : List Char) : lower cs = lowerBetween [] [] cs := by
  have happend := lowerFrom_append [] cs []
  rwa [List.append_nil, lowerFrom, List.append_nil] at happend

theorem lowerBetween_infix_lower (before cs after : List Char) :
    lowerBetween before.reverse after cs <:+: lower (before ++ cs ++ after) := by
  rw [lower, List.append_assoc, lowerFrom_append, lowerFrom_append, List.append_nil, ← List.append_assoc]
  exact List.infix_append _ _ _

/-! ## Two surroundings of one text -/

/-- Whether something holds at every capital sigma of a text, of what stands before it, backwards, and
what stands behind it. -/
def AtSigmas (P : List Char → List Char → Prop) (cs : List Char) : Prop :=
  ∀ left right, cs = left ++ 'Σ' :: right → P left.reverse right

theorem atSigmas_nil (P : List Char → List Char → Prop) : AtSigmas P [] := by
  intro left right heq
  exact absurd heq.symm (List.append_ne_nil_of_right_ne_nil left (List.cons_ne_nil _ _))

theorem atSigmas_cons_iff {P : List Char → List Char → Prop} {c : Char} {cs : List Char} :
    AtSigmas P (c :: cs) ↔
      (c = 'Σ' → P [] cs) ∧ AtSigmas (fun left right ↦ P (left ++ [c]) right) cs := by
  constructor
  · intro h
    refine ⟨fun hc ↦ h [] cs (by rw [hc, List.nil_append]), fun left right heq ↦ ?_⟩
    have hcons := h (c :: left) right (by rw [heq, List.cons_append])
    rwa [List.reverse_cons] at hcons
  · rintro ⟨hhead, htail⟩ left right heq
    rcases List.cons_eq_append_iff.mp heq with ⟨rfl, hsigma⟩ | ⟨left, rfl, hright⟩
    · obtain ⟨rfl, rfl⟩ := List.cons.inj hsigma
      exact hhead rfl
    · rw [List.reverse_cons]
      exact htail left right hright

variable {before after before' after' cs : List Char}

/-- The forms of its sigmas are all that a text takes from its surroundings. -/
theorem lowerBetween_congr (h : AtSigmas (fun left right ↦
      endsWord (left ++ before) (right ++ after) = endsWord (left ++ before') (right ++ after')) cs) :
    lowerBetween before after cs = lowerBetween before' after' cs := by
  induction cs generalizing before before' with
  | nil => rfl
  | cons c cs ih =>
    have htail : lowerBetween (c :: before) after cs = lowerBetween (c :: before') after' cs :=
      ih (by simpa using (atSigmas_cons_iff.mp h).2)
    rw [lowerBetween, lowerBetween, htail, lowerPiece, lowerPiece]
    by_cases hc : c = 'Σ'
    · subst hc
      have hhead : endsWord before (cs ++ after) = endsWord before' (cs ++ after') :=
        (atSigmas_cons_iff.mp h).1 rfl
      rw [hhead]
    · rw [if_neg hc, if_neg hc]

/-- A form that a sigma keeps, or that no sigma takes, occurs at least as often. -/
theorem count_lowerPiece_le {form : Bool} {c : Char} {rest rest' : List Char}
    (h : c = 'Σ' → endsWord before rest = form → endsWord before' rest' = form) :
    (lowerPiece before rest c).count (smallSigma form)
      ≤ (lowerPiece before' rest' c).count (smallSigma form) := by
  by_cases hc : c = 'Σ'
  · rw [lowerPiece, lowerPiece, if_pos hc, if_pos hc]
    by_cases hform : endsWord before rest = form
    · rw [hform, h hc hform]
    · have hnone : [smallSigma (endsWord before rest)].count (smallSigma form) = 0 :=
        List.count_eq_zero.mpr (by simpa [smallSigma_inj] using Ne.symm hform)
      rw [hnone]
      exact Nat.zero_le _
  · rw [lowerPiece, lowerPiece, if_neg hc, if_neg hc]

theorem count_lowerBetween_le {form : Bool} (h : AtSigmas (fun left right ↦
      endsWord (left ++ before) (right ++ after) = form →
        endsWord (left ++ before') (right ++ after') = form) cs) :
    (lowerBetween before after cs).count (smallSigma form)
      ≤ (lowerBetween before' after' cs).count (smallSigma form) := by
  induction cs generalizing before before' with
  | nil => exact Nat.le_refl _
  | cons c cs ih =>
    rw [lowerBetween, lowerBetween, List.count_append, List.count_append]
    refine Nat.add_le_add (count_lowerPiece_le ?_) (ih (by simpa using (atSigmas_cons_iff.mp h).2))
    exact (atSigmas_cons_iff.mp h).1

theorem count_lowerBetween_lt {form : Bool} {left right : List Char} (h : AtSigmas (fun left right ↦
      endsWord (left ++ before) (right ++ after) = form →
        endsWord (left ++ before') (right ++ after') = form) (left ++ 'Σ' :: right))
    (hother : endsWord (left.reverse ++ before) (right ++ after) ≠ form)
    (hnew : endsWord (left.reverse ++ before') (right ++ after') = form) :
    (lowerBetween before after (left ++ 'Σ' :: right)).count (smallSigma form)
      < (lowerBetween before' after' (left ++ 'Σ' :: right)).count (smallSigma form) := by
  induction left generalizing before before' with
  | nil =>
    have htail : (lowerBetween ('Σ' :: before) after right).count (smallSigma form)
        ≤ (lowerBetween ('Σ' :: before') after' right).count (smallSigma form) :=
      count_lowerBetween_le (by simpa using (atSigmas_cons_iff.mp h).2)
    have hzero : (lowerPiece before (right ++ after) 'Σ').count (smallSigma form) = 0 :=
      List.count_eq_zero.mpr (by simpa [lowerPiece, smallSigma_inj] using Ne.symm hother)
    have hone : (lowerPiece before' (right ++ after') 'Σ').count (smallSigma form) = 1 := by
      rw [lowerPiece, if_pos rfl]
      exact hnew ▸ List.count_singleton_self
    rw [List.nil_append, lowerBetween, lowerBetween, List.count_append, List.count_append, hzero, hone]
    omega
  | cons c left ih =>
    -- before the sigma that takes the form nothing loses it
    rw [List.cons_append, lowerBetween, lowerBetween, List.count_append, List.count_append]
    refine Nat.add_lt_add_of_le_of_lt (count_lowerPiece_le ?_)
      (ih (by simpa using (atSigmas_cons_iff.mp h).2) (by simpa using hother) (by simpa using hnew))
    exact (atSigmas_cons_iff.mp h).1

/-! ## Parts that settle the form of their sigmas -/

section

variable {left right more : List Char}

theorem meetsCased_of_all (h : left.all isCaseIgnorable = true) : meetsCased left = false := by
  rw [meetsCased, List.dropWhile_eq_nil_iff.mpr (List.all_eq_true.mp h)]

theorem meetsCased_append_of_all (h : left.all isCaseIgnorable = true) :
    meetsCased (left ++ more) = meetsCased more := by
  rw [meetsCased, List.dropWhile_append_of_pos (List.all_eq_true.mp h), meetsCased]

theorem meetsCased_append_of_not_all (h : ¬left.all isCaseIgnorable = true) :
    meetsCased (left ++ more) = meetsCased left := by
  have hne : left.dropWhile isCaseIgnorable ≠ [] := by
    rwa [ne_eq, List.dropWhile_eq_nil_iff, ← List.all_eq_true]
  obtain ⟨c, rest, hcons⟩ := List.exists_cons_of_ne_nil hne
  rw [meetsCased, List.dropWhile_append, hcons, meetsCased, hcons]
  rfl

theorem meetsCased_append_of_meetsCased (h : meetsCased left = true) : meetsCased (left ++ more) = true := by
  rw [meetsCased_append_of_not_all, h]
  intro hall
  rw [meetsCased_of_all hall] at h
  cases h

/-- Whether what stands further out can change the form of a sigma between two texts, the first of which
is given backwards: a letter before them, if all before the sigma is passed over and no letter follows,
or a letter behind them, if one stands before the sigma and all behind it is passed over. -/
def IsOpen (left right : List Char) : Prop :=
  (left.all isCaseIgnorable = true ∧ meetsCased right = false) ∨
    (meetsCased left = true ∧ right.all isCaseIgnorable = true)

instance (left right : List Char) : Decidable (IsOpen left right) :=
  inferInstanceAs (Decidable (_ ∨ _))

theorem endsWord_append_of_not_isOpen (h : ¬IsOpen left right) (before after : List Char) :
    endsWord (left ++ before) (right ++ after) = endsWord left right := by
  obtain ⟨hbefore, hafter⟩ := not_or.mp h
  by_cases hleft : left.all isCaseIgnorable = true
  · -- a letter follows, so no letter before can make a difference
    have hright : meetsCased right = true := by
      rw [← Bool.not_eq_false]
      exact fun hfalse ↦ hbefore ⟨hleft, hfalse⟩
    simp [endsWord, hright, meetsCased_append_of_meetsCased hright]
  · rw [endsWord, endsWord, meetsCased_append_of_not_all hleft]
    by_cases hright : right.all isCaseIgnorable = true
    · have hnone : meetsCased left = false := by
        rw [← Bool.not_eq_true]
        exact fun htrue ↦ hafter ⟨htrue, hright⟩
      simp [hnone]
    · rw [meetsCased_append_of_not_all hright]

end

/-- Whether the sigmas of a text have the same forms between two others as in the text alone. -/
def KeepsSigmas (before cs after : List Char) : Prop :=
  AtSigmas (fun left right ↦
    endsWord (left ++ before.reverse) (right ++ after) = endsWord left right) cs

/-- Whether the form of no sigma of a text is open. -/
def SettlesSigmas (cs : List Char) : Prop := AtSigmas (fun left right ↦ ¬IsOpen left right) cs

theorem SettlesSigmas.keepsSigmas (h : SettlesSigmas cs) (before after : List Char) :
    KeepsSigmas before cs after :=
  fun left right heq ↦ endsWord_append_of_not_isOpen (h left right heq) before.reverse after

/-- The lower case of a text is a part of that of every text in which it keeps the forms of its sigmas. -/
theorem KeepsSigmas.lower_infix_lower (h : KeepsSigmas before cs after) :
    lower cs <:+: lower (before ++ cs ++ after) := by
  have hcongr : lowerBetween before.reverse after cs = lowerBetween [] [] cs :=
    lowerBetween_congr (by simpa [KeepsSigmas] using h)
  rw [lower_eq_lowerBetween cs, ← hcongr]
  exact lowerBetween_infix_lower before cs after

/-! ### Texts that do not keep them -/

theorem lowerChar_letter : lowerChar 'a' = ['a'] := by decide +kernel

theorem meetsCased_letter : meetsCased ['a'] = true := by decide +kernel

theorem lower_letter_append (cs : List Char) : lower ('a' :: cs) = 'a' :: lowerBetween ['a'] [] cs := by
  have happend := lowerFrom_append ['a'] cs []
  rw [List.append_nil, lowerFrom, List.append_nil] at happend
  rw [lower, lowerFrom, if_neg (by decide), lowerChar_letter, happend, List.singleton_append]

theorem lower_append_letter (cs : List Char) : lower (cs ++ ['a']) = lowerBetween [] ['a'] cs ++ ['a'] := by
  rw [lower, lowerFrom_append, lowerFrom, if_neg (by decide), lowerChar_letter, lowerFrom]
  rfl

/-- Behind a letter, a sigma with nothing before it and no letter behind it ends a word. -/
theorem count_lt_of_letter_before {left right : List Char}
    (hleft : left.reverse.all isCaseIgnorable = true) (hright : meetsCased right = false) :
    (lowerBetween ['a'] [] (left ++ 'Σ' :: right)).count (smallSigma false)
      < (lowerBetween [] [] (left ++ 'Σ' :: right)).count (smallSigma false) := by
  refine count_lowerBetween_lt (fun l r _ h ↦ ?_) ?_ ?_
  · -- a sigma that ended a word before still does
    rw [← Bool.not_eq_true] at h ⊢
    simp only [endsWord, Bool.and_eq_true, List.append_nil] at h ⊢
    exact fun hends ↦ h ⟨meetsCased_append_of_meetsCased hends.1, hends.2⟩
  · simp [endsWord, meetsCased_append_of_all hleft, meetsCased_letter, hright]
  · simp [endsWord, meetsCased_of_all hleft]

/-- Before a letter, a sigma with a letter before it and nothing behind it does not end a word any more. -/
theorem count_lt_of_letter_behind {left right : List Char} (hleft : meetsCased left.reverse = true)
    (hright : right.all isCaseIgnorable = true) :
    (lowerBetween [] ['a'] (left ++ 'Σ' :: right)).count (smallSigma true)
      < (lowerBetween [] [] (left ++ 'Σ' :: right)).count (smallSigma true) := by
  refine count_lowerBetween_lt (fun l r _ h ↦ ?_) ?_ ?_
  · -- one that ends a word before the letter did so without it
    simp only [endsWord, Bool.and_eq_true, Bool.not_eq_true', List.append_nil] at h ⊢
    refine ⟨h.1, ?_⟩
    rw [← Bool.not_eq_true]
    exact fun hcased ↦ absurd (meetsCased_append_of_meetsCased hcased) (ne_true_of_eq_false h.2)
  · simp [endsWord, meetsCased_append_of_all hright, meetsCased_letter]
  · simp [endsWord, meetsCased_of_all hright, hleft]

/-- **Parts of a text.** The lower case of a text is a part of the lower case of every text of which it is
a part exactly if the form of none of its sigmas is open. -/
theorem lower_infix_lower_iff {cs : List Char} :
    (∀ text, cs <:+: text → lower cs <:+: lower text) ↔ SettlesSigmas cs := by
  constructor
  · rintro h left right rfl (⟨hleft, hright⟩ | ⟨hleft, hright⟩)
    · have hpart := h ('a' :: (left ++ 'Σ' :: right)) (List.suffix_cons 'a' _).isInfix
      have hle := hpart.sublist.count_le (smallSigma false)
      have hlt := count_lt_of_letter_before hleft hright
      rw [lower_letter_append, List.count_cons_of_ne (by decide), lower_eq_lowerBetween] at hle
      omega
    · have hpart := h (left ++ 'Σ' :: right ++ ['a']) (List.prefix_append _ ['a']).isInfix
      have hle := hpart.sublist.count_le (smallSigma true)
      have hlt := count_lt_of_letter_behind hleft hright
      rw [lower_append_letter, List.count_append, List.count_singleton, lower_eq_lowerBetween] at hle
      rw [if_neg (by decide)] at hle
      omega
  · rintro h text ⟨before, after, rfl⟩
    exact (h.keepsSigmas before after).lower_infix_lower

end NoteQuery.Text
