import NoteQuery.Proofs.Text.Sigma
import NoteQuery.Proofs.Text.Trim
import NoteQuery.Text.CodePoint

/-!
# Texts by their code points, trimmed and in lower case

The characters that a text counts as are trimmed and put in lower case as the text is. For trimming a half of
a character is as good as its replacement, which is no blank. For lower case it is too: the replacement has no
case and is not passed over, so it ends a word on both sides.
-/

namespace NoteQuery

/-! ## Lower case on both sides of a character -/

namespace Text

section

variable {c : Char} (hcased : isCased c = false) (hignorable : isCaseIgnorable c = false)
include hcased hignorable

theorem meetsCased_append_cons (cs rest : List Char) : meetsCased (cs ++ c :: rest) = meetsCased cs := by
  by_cases hall : cs.all isCaseIgnorable = true
  · rw [meetsCased_append_of_all hall, meetsCased_of_all hall, meetsCased,
      List.dropWhile_cons_of_neg (ne_true_of_eq_false hignorable)]
    exact hcased
  · exact meetsCased_append_of_not_all hall

theorem lowerFrom_append_cons_left (run run' cs : List Char) :
    lowerFrom (run ++ c :: run') cs = lowerFrom run cs := by
  induction cs generalizing run with
  | nil => rfl
  | cons d cs ih => rw [lowerFrom, lowerFrom, meetsCased_append_cons hcased hignorable, ← List.cons_append, ih]

theorem lowerFrom_append_cons (run cs rest : List Char) :
    lowerFrom run (cs ++ c :: rest) = lowerFrom run cs ++ lowerFrom (cs.reverse ++ run) (c :: rest) := by
  induction cs generalizing run with
  | nil => rfl
  | cons d cs ih =>
    rw [List.cons_append, lowerFrom, lowerFrom, meetsCased_append_cons hcased hignorable, ih, List.reverse_cons,
      List.append_assoc, List.append_assoc, List.singleton_append]

/-- A character that has no case and is not passed over parts what stands before it from what stands behind. -/
theorem lower_append_cons (hlower : IsLower c) (cs rest : List Char) :
    lower (cs ++ c :: rest) = lower cs ++ c :: lower rest := by
  have hbehind : lowerFrom (c :: (cs.reverse ++ [])) rest = lower rest :=
    lowerFrom_append_cons_left hcased hignorable [] _ rest
  rw [lower, lowerFrom_append_cons hcased hignorable, lowerFrom, if_neg hlower.1, hlower.2, hbehind]
  rfl

end

end Text

namespace CodeText

/-! ## Whole texts -/

theorem trimmed_ofChars (cs : List Char) : (ofChars cs).trimmed = ofChars (Text.trim cs) := by
  have hblank : isBlankCode ∘ CodePoint.char = Text.isBlank := rfl
  rw [trimmed, ofChars, List.dropWhile_map, hblank, ← List.map_reverse, List.dropWhile_map, hblank,
    ← List.map_reverse]
  rfl

theorem lowerFrom_map_char (run cs : List Char) :
    lowerFrom run (cs.map .char) = (Text.lower (run.reverse ++ cs)).map .char := by
  induction cs generalizing run with
  | nil => rw [List.map_nil, lowerFrom, List.append_nil]
  | cons c cs ih => rw [List.map_cons, lowerFrom, ih, List.reverse_cons, List.append_assoc, List.singleton_append]

theorem lowercase_ofChars (cs : List Char) : (ofChars cs).lowercase = ofChars (Text.lower cs) :=
  congrArg mk (lowerFrom_map_char [] cs)

/-! ## The characters that a text counts as -/

theorem characters_trimmed (t : CodeText) : t.trimmed.characters = Text.trim t.characters := by
  have hblank : Text.isBlank ∘ CodePoint.mended = isBlankCode := rfl
  rw [Text.trim, Text.trimEnd, Text.trimStart, characters, characters, List.dropWhile_map, hblank,
    ← List.map_reverse, List.dropWhile_map, hblank, ← List.map_reverse]
  rfl

theorem map_mended_map_char (cs : List Char) : (cs.map CodePoint.char).map CodePoint.mended = cs :=
  characters_ofChars cs

theorem map_mended_lowerFrom (run : List Char) (codes : List CodePoint) :
    (lowerFrom run codes).map CodePoint.mended = Text.lower (run.reverse ++ codes.map CodePoint.mended) := by
  fun_induction lowerFrom run codes with
  | case1 run => rw [map_mended_map_char, List.map_nil, List.append_nil]
  | case2 run c rest ih =>
    rw [ih, List.reverse_cons, List.append_assoc]
    rfl
  | case3 run h rest ih =>
    have hreplaced : Text.lower (run.reverse ++ '\uFFFD' :: rest.map CodePoint.mended)
        = Text.lower run.reverse ++ '\uFFFD' :: Text.lower (rest.map CodePoint.mended) :=
      Text.lower_append_cons (by decide +kernel) (by decide +kernel) (by constructor <;> decide +kernel) _ _
    rw [List.map_append, map_mended_map_char, List.map_cons, ih]
    exact hreplaced.symm

theorem characters_lowercase (t : CodeText) : t.lowercase.characters = Text.lower t.characters :=
  map_mended_lowerFrom [] t.codes

theorem characters_eq_nil_iff {t : CodeText} : t.characters = [] ↔ t.codes = [] := List.map_eq_nil_iff

/-! ## Texts that stay as they are -/

theorem trimmed_eq_self_iff {t : CodeText} : t.trimmed = t ↔ Text.trim t.characters = t.characters := by
  rw [← characters_trimmed]
  refine ⟨congrArg characters, fun h ↦ ?_⟩
  have hsublist : t.trimmed.codes.Sublist t.codes := by
    have hend := (List.dropWhile_sublist (l := (t.codes.dropWhile isBlankCode).reverse) isBlankCode).reverse
    rw [List.reverse_reverse] at hend
    exact hend.trans (List.dropWhile_sublist _)
  have hlength := congrArg List.length h
  rw [length_characters, length_characters] at hlength
  exact congrArg mk (hsublist.eq_of_length hlength)

/-- Whether a code point is in lower case, whatever stands around it. Halves are. -/
def IsLowerCode : CodePoint → Prop
  | .char c => Text.IsLower c
  | .half _ => True

theorem isLowerCode_of_mem_lowerFrom {run : List Char} {codes : List CodePoint} :
    ∀ p ∈ lowerFrom run codes, IsLowerCode p := by
  have hlower : ∀ cs : List Char, ∀ p ∈ (Text.lower cs).map CodePoint.char, IsLowerCode p := fun cs ↦
    List.forall_mem_map.mpr fun c hc ↦ Text.isLower_of_mem_lowerFrom hc
  fun_induction lowerFrom run codes with
  | case1 run => exact hlower _
  | case2 run c rest ih => exact ih
  | case3 run h rest ih =>
    exact List.forall_mem_append.mpr ⟨hlower _, List.forall_mem_cons.mpr ⟨trivial, ih⟩⟩

theorem lowerFrom_of_isLowerCode {run : List Char} {codes : List CodePoint} (hrun : ∀ c ∈ run, Text.IsLower c)
    (hcodes : ∀ p ∈ codes, IsLowerCode p) : lowerFrom run codes = run.reverse.map .char ++ codes := by
  have hlower : ∀ cs : List Char, (∀ c ∈ cs, Text.IsLower c) → Text.lower cs.reverse = cs.reverse := fun cs h ↦
    Text.lowerFrom_eq_self fun c hc ↦ h c (List.mem_reverse.mp hc)
  fun_induction lowerFrom run codes with
  | case1 run => rw [hlower run hrun, List.append_nil]
  | case2 run c rest ih =>
    obtain ⟨hc, hcodes⟩ := List.forall_mem_cons.mp hcodes
    rw [ih (List.forall_mem_cons.mpr ⟨hc, hrun⟩) hcodes, List.reverse_cons, List.map_append, List.append_assoc]
    rfl
  | case3 run h rest ih =>
    rw [hlower run hrun, ih nofun (List.forall_mem_cons.mp hcodes).2]
    rfl

theorem lowercase_lowercase (t : CodeText) : t.lowercase.lowercase = t.lowercase :=
  congrArg mk (lowerFrom_of_isLowerCode nofun isLowerCode_of_mem_lowerFrom)

end CodeText

end NoteQuery
