import Mathlib.Data.List.DropRight
import Mathlib.Data.List.TakeWhile
import NoteQuery.Text.Blank

/-!
# Trimming

A text is its own trimmed form exactly when it has no blank at either end, and has nothing left exactly
when it holds nothing but blanks.
-/

namespace NoteQuery.Text

theorem trimStart_cons_of_blank {c : Char} (h : isBlank c = true) (cs : List Char) :
    trimStart (c :: cs) = trimStart cs :=
  List.dropWhile_cons_of_pos h

theorem trimStart_cons_of_not_blank {c : Char} (h : isBlank c = false) (cs : List Char) :
    trimStart (c :: cs) = c :: cs :=
  List.dropWhile_cons_of_neg (ne_true_of_eq_false h)

theorem trimStart_append_of_eq_nil {cs : List Char} (h : trimStart cs = []) (more : List Char) :
    trimStart (cs ++ more) = trimStart more := by
  rw [trimStart] at h
  rw [trimStart, List.dropWhile_append, h, List.isEmpty_nil, if_pos rfl, trimStart]

theorem trimStart_append_of_eq_cons {cs tail : List Char} {c : Char}
    (h : trimStart cs = c :: tail) (more : List Char) :
    trimStart (cs ++ more) = c :: (tail ++ more) := by
  rw [trimStart] at h
  rw [trimStart, List.dropWhile_append, h, List.isEmpty_cons, if_neg Bool.false_ne_true,
    List.cons_append]

theorem trimStart_append_of_forall_blank {cs : List Char} (h : ∀ c ∈ cs, isBlank c = true)
    (more : List Char) : trimStart (cs ++ more) = trimStart more :=
  List.dropWhile_append_of_pos h

theorem trimEnd_eq_nil_iff {cs : List Char} : trimEnd cs = [] ↔ ∀ c ∈ cs, isBlank c = true := by
  rw [trimEnd, List.reverse_eq_nil_iff, List.dropWhile_eq_nil_iff]
  exact forall_congr' fun c ↦ imp_congr_left List.mem_reverse

/-- A character at the front is lost only if nothing is left behind it. -/
theorem trimEnd_cons {c : Char} {cs : List Char} (h : isBlank c = false ∨ trimEnd cs ≠ []) :
    trimEnd (c :: cs) = c :: trimEnd cs := by
  rw [trimEnd, List.reverse_cons, List.dropWhile_append]
  by_cases hempty : cs.reverse.dropWhile isBlank = []
  · have hnil : trimEnd cs = [] := by rw [trimEnd, hempty, List.reverse_nil]
    have hblank : ¬isBlank c = true := ne_true_of_eq_false (h.resolve_right (not_not_intro hnil))
    rw [hempty, List.isEmpty_nil, if_pos rfl, List.dropWhile_cons_of_neg hblank, hnil]
    rfl
  · rw [if_neg (mt List.isEmpty_iff.mp hempty), List.reverse_append, trimEnd]
    rfl

/-- Nothing is lost up to a character that is no blank. -/
theorem trimEnd_append_cons {c : Char} (h : isBlank c = false) (before after : List Char) :
    trimEnd (before ++ c :: after) = before ++ c :: trimEnd after := by
  induction before with
  | nil => exact trimEnd_cons (.inl h)
  | cons d before ih =>
    rw [List.cons_append, trimEnd_cons, ih, List.cons_append]
    rw [ih]
    exact .inr (List.append_ne_nil_of_right_ne_nil _ (List.cons_ne_nil _ _))

theorem length_trimEnd_le (cs : List Char) : (trimEnd cs).length ≤ cs.length := by
  have hle := (List.dropWhile_sublist isBlank (l := cs.reverse)).length_le
  rw [List.length_reverse] at hle
  rwa [trimEnd, List.length_reverse]

theorem trim_cons_of_blank {c : Char} (h : isBlank c = true) (cs : List Char) :
    trim (c :: cs) = trim cs := by
  rw [trim, trimStart_cons_of_blank h, trim]

theorem trimStart_eq_self_iff {cs : List Char} :
    trimStart cs = cs ↔ ∀ c ∈ cs.head?, isBlank c = false := by
  cases cs with
  | nil => exact ⟨fun _ c hc ↦ (nomatch hc), fun _ ↦ rfl⟩
  | cons c cs =>
    refine ⟨fun h d hd ↦ ?_, fun h ↦ trimStart_cons_of_not_blank (h c rfl) cs⟩
    cases Option.mem_some.mp hd
    cases hblank : isBlank c with
    | false => rfl
    | true =>
      rw [trimStart_cons_of_blank hblank] at h
      have hle : (trimStart cs).length ≤ cs.length := (List.dropWhile_sublist _).length_le
      rw [h, List.length_cons] at hle
      omega

theorem trimEnd_eq_self_iff {cs : List Char} :
    trimEnd cs = cs ↔ ∀ c ∈ cs.getLast?, isBlank c = false := by
  rw [trimEnd, List.reverse_eq_iff, ← List.head?_reverse]
  exact trimStart_eq_self_iff

theorem trim_eq_self_iff {cs : List Char} :
    trim cs = cs ↔
      (∀ c ∈ cs.head?, isBlank c = false) ∧ ∀ c ∈ cs.getLast?, isBlank c = false := by
  rw [← trimStart_eq_self_iff, ← trimEnd_eq_self_iff]
  refine ⟨fun h ↦ ?_, fun ⟨hstart, hend⟩ ↦ by rw [trim, hstart, hend]⟩
  -- neither end can lose a character if both together lose none
  have hstart : trimStart cs = cs := by
    refine (List.dropWhile_sublist _).eq_of_length_le ?_
    have hle := length_trimEnd_le (trimStart cs)
    rwa [← trim, h] at hle
  exact ⟨hstart, by rwa [trim, hstart] at h⟩

theorem trim_of_forall_not_blank {cs : List Char} (h : ∀ c ∈ cs, isBlank c = false) :
    trim cs = cs :=
  trim_eq_self_iff.mpr
    ⟨fun c hc ↦ h c (List.mem_of_mem_head? hc), fun c hc ↦ h c (List.mem_of_getLast? hc)⟩

/-! ## Blank texts -/

theorem trim_eq_nil_iff {cs : List Char} : trim cs = [] ↔ ∀ c ∈ cs, isBlank c = true := by
  rw [trim, trimEnd_eq_nil_iff, ← List.dropWhile_eq_nil_iff (l := cs), ← trimStart]
  constructor
  · intro h
    by_contra hne
    -- what is left would begin with a character that is no blank
    have hhead : isBlank ((trimStart cs).head hne) = false := List.head_dropWhile_not isBlank hne
    rw [h _ (List.head_mem hne)] at hhead
    cases hhead
  · intro h c hc
    rw [h] at hc
    cases hc

/-- What is left of a text that is not blank begins with a character that is no blank. -/
theorem exists_trimStart_eq_cons {cs : List Char} (h : trim cs ≠ []) :
    ∃ c rest, trimStart cs = c :: rest ∧ isBlank c = false ∧ trim cs = c :: trimEnd rest := by
  have hne : cs.dropWhile isBlank ≠ [] := by
    rw [ne_eq, List.dropWhile_eq_nil_iff, ← trim_eq_nil_iff]
    exact h
  have hhead : isBlank ((cs.dropWhile isBlank).head hne) = false := List.head_dropWhile_not isBlank hne
  have hcons : trimStart cs = (cs.dropWhile isBlank).head hne :: (cs.dropWhile isBlank).tail :=
    (List.cons_head_tail hne).symm
  exact ⟨_, _, hcons, hhead, by rw [trim, hcons, trimEnd_cons (.inl hhead)]⟩

/-- **Trimming once is enough.** What is left of a text has no blank at either end. -/
theorem trim_trim (cs : List Char) : trim (trim cs) = trim cs := by
  refine trim_eq_self_iff.mpr ⟨fun c hc ↦ ?_, fun c hc ↦ ?_⟩
  · have hne : trim cs ≠ [] := fun hnil ↦ by
      rw [hnil] at hc
      exact nomatch hc
    obtain ⟨d, rest, -, hblank, htrim⟩ := exists_trimStart_eq_cons hne
    rw [htrim] at hc
    exact Option.mem_some.mp hc ▸ hblank
  · rw [trim, trimEnd, List.getLast?_reverse] at hc
    have hhead := List.head?_dropWhile_not isBlank (trimStart cs).reverse
    rw [Option.mem_def.mp hc] at hhead
    exact hhead

/-! ## What is lost -/

theorem exists_eq_append_trim (cs : List Char) :
    ∃ before after, cs = before ++ trim cs ++ after ∧ (∀ c ∈ before, isBlank c = true) ∧
      ∀ c ∈ after, isBlank c = true := by
  have hstart : cs.takeWhile isBlank ++ trimStart cs = cs := List.takeWhile_append_dropWhile
  have hend : trim cs ++ ((trimStart cs).reverse.takeWhile isBlank).reverse = trimStart cs := by
    rw [trim, trimEnd, ← List.reverse_append, List.takeWhile_append_dropWhile, List.reverse_reverse]
  refine ⟨cs.takeWhile isBlank, ((trimStart cs).reverse.takeWhile isBlank).reverse, ?_,
    fun c hc ↦ List.mem_takeWhile_imp hc, fun c hc ↦ ?_⟩
  · rw [List.append_assoc, hend, hstart]
  · exact List.mem_takeWhile_imp (List.mem_reverse.mp hc)

/-- Trimming loses none of the characters that are counted, if blanks are not. -/
theorem countP_trim {p : Char → Bool} (hp : ∀ c, isBlank c = true → p c = false) (cs : List Char) :
    (trim cs).countP p = cs.countP p := by
  obtain ⟨before, after, hcs, hbefore, hafter⟩ := exists_eq_append_trim cs
  have hzero : ∀ blanks : List Char, (∀ c ∈ blanks, isBlank c = true) → blanks.countP p = 0 := by
    intro blanks hblanks
    rw [List.countP_eq_zero]
    intro c hc
    rw [hp c (hblanks c hc)]
    exact Bool.false_ne_true
  have hcount := congrArg (List.countP p) hcs
  rwa [List.countP_append, List.countP_append, hzero before hbefore, hzero after hafter, Nat.zero_add,
    Nat.add_zero, eq_comm] at hcount

/-! ## Parts -/

theorem trimStart_trimStart (cs : List Char) : trimStart (trimStart cs) = trimStart cs :=
  List.dropWhile_idempotent _ cs

theorem trim_trimStart (cs : List Char) : trim (trimStart cs) = trim cs := by
  rw [trim, trimStart_trimStart, trim]

/-- Around a character that is no blank, each side loses the blanks at its own end. -/
theorem trim_append_cons {c : Char} (h : isBlank c = false) (before after : List Char) :
    trim (before ++ c :: after) = trimStart before ++ c :: trimEnd after := by
  rw [trim]
  cases hbefore : trimStart before with
  | nil => rw [trimStart_append_of_eq_nil hbefore, trimStart_cons_of_not_blank h, trimEnd_cons (.inl h),
      List.nil_append]
  | cons d tail =>
    rw [trimStart_append_of_eq_cons hbefore, ← List.cons_append, trimEnd_append_cons h]

theorem mem_trim_of_mem {c : Char} {cs : List Char} (hblank : isBlank c = false) (hmem : c ∈ cs) :
    c ∈ trim cs := by
  obtain ⟨before, after, rfl⟩ := List.append_of_mem hmem
  rw [trim_append_cons hblank]
  simp

theorem trimEnd_trimEnd (cs : List Char) : trimEnd (trimEnd cs) = trimEnd cs := by
  rw [trimEnd, trimEnd, List.reverse_reverse, List.dropWhile_idempotent]

theorem trim_trimEnd (cs : List Char) : trim (trimEnd cs) = trim cs := by
  by_cases hblank : trim cs = []
  · rw [hblank, trimEnd_eq_nil_iff.mpr (trim_eq_nil_iff.mp hblank)]
    rfl
  · obtain ⟨c, rest, hstart, hc, -⟩ := exists_trimStart_eq_cons hblank
    have hcs : cs.takeWhile isBlank ++ c :: rest = cs := hstart ▸ List.takeWhile_append_dropWhile
    rw [← hcs, trimEnd_append_cons hc, trim_append_cons hc, trim_append_cons hc, trimEnd_trimEnd]

/-! ## Texts -/

theorem isEmpty_trimmed (s : String) : (trimmed s).isEmpty = isBlankText s := by
  rw [Bool.eq_iff_iff, String.isEmpty_iff, trimmed, String.ofList_eq_empty_iff, trim_eq_nil_iff,
    isBlankText, List.all_eq_true]

end NoteQuery.Text
