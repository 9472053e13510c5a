import NoteQuery.Proofs.Matching.Tags

/-!
# The form of the tags of a note

The tags of a note are filled, in lower case, without a blank at their end, and none is kept twice. They
are also meant to have no number sign and no blank at their start. This is so for every tag that is
written in the body, where a tag holds neither. A text that is listed in the front matter loses one number
sign, after it is trimmed, and so what stands behind the sign begins the tag, whatever it is.
-/

namespace NoteQuery

/-! ## Number signs in lower case -/

namespace Text

theorem lowerRuns_above_sign : ∀ run ∈ lowerRuns, 35 < run.first ∧ 35 < run.target run.first := by
  decide +kernel

theorem ofNat_map_lowerRuns_eq_sign_iff {c : Char} :
    Char.ofNat (CaseRun.map lowerRuns c.toNat) = '#' ↔ c = '#' := by
  obtain ⟨run, hrun, hcovers, hmap⟩ | ⟨-, hmap⟩ := CaseRun.map_eq lowerRuns c.toNat
  · have habove := lowerRuns_above_sign run hrun
    have hfirst := (CaseRun.covers_iff.mp hcovers).1
    have hsign : '#'.toNat = 35 := rfl
    rw [hmap]
    constructor
    · intro h
      have htarget := toNat_ofNat (isValidChar_target hrun hcovers)
      rw [h, hsign] at htarget
      rw [CaseRun.target] at htarget habove
      omega
    · rintro rfl
      omega
  · rw [hmap, Char.ofNat_toNat]

/-- In lower case a text begins with a number sign exactly when it does so anyway. -/
theorem head?_lower_eq_sign_iff {cs : List Char} : (lower cs).head? = some '#' ↔ cs.head? = some '#' := by
  cases cs with
  | nil => rfl
  | cons c cs =>
    rw [lower, lowerFrom, lowerChar]
    split
    · next hsigma =>
      rw [hsigma]
      split <;> simp
    · split
      · next hdotted => simp [hdotted]
      · simp [ofNat_map_lowerRuns_eq_sign_iff]

end Text

namespace Tags

/-- Whether a tag has the form in which tags are compared. -/
structure IsNormal (tag : CodeText) : Prop where
  /-- It is not empty. -/
  filled : tag ≠ ""
  /-- It is its own lower case. -/
  lower : tag.lowercase = tag
  /-- It does not begin with a number sign. -/
  unsigned : tag.codes.head? ≠ some '#'
  /-- It has no blank at either end. -/
  trimmed : tag.trimmed = tag

variable {cs : List Char}

/-- Whether a number sign that begins a text, blanks apart, has neither a number sign nor a blank behind
it. -/
def SignIsSingle (cs : List Char) : Prop :=
  ∀ c rest, Text.trim cs = '#' :: c :: rest → c ≠ '#' ∧ Text.isBlank c = false

/-! ## Tags in the body -/

theorem isTagChar_of_mem_written {before : Option Char} {tag : List Char} (h : tag ∈ written before cs) :
    ∀ c ∈ tag, isTagChar c = true := by
  induction cs generalizing before with
  | nil => simp [written] at h
  | cons d rest ih =>
    rw [written] at h
    split at h
    · rcases List.mem_cons.mp h with rfl | h
      · intro c hc
        exact List.mem_takeWhile_imp hc
      · exact ih h
    · exact ih h

theorem isTagChar_of_mem_inBody {body tag : List Char} (h : tag ∈ inBody body) :
    ∀ c ∈ tag, isTagChar c = true := by
  obtain ⟨run, hrun, rfl⟩ := List.mem_map.mp h
  intro c hc
  have hsub : c ∈ run := by
    rw [dropFinalPoints, List.mem_reverse] at hc
    exact List.mem_reverse.mp ((List.dropWhile_sublist _).subset hc)
  exact isTagChar_of_mem_written hrun c hsub

theorem signIsSingle_of_mem_inBody {body : List Char} (h : cs ∈ inBody body) : SignIsSingle cs := by
  intro c rest htrim
  obtain ⟨before, after, hcs, -, -⟩ := Text.exists_eq_append_trim cs
  have hsign : '#' ∈ cs := by
    rw [hcs, htrim]
    simp
  exact absurd (isTagChar_of_mem_inBody h '#' hsign) (by decide)

/-! ## What is kept of a text -/

theorem trimEnd_dropLeading_trim (cs : List Char) :
    Text.trimEnd (Text.dropLeading '#' (Text.trim cs)) = Text.dropLeading '#' (Text.trim cs) := by
  have hend := Text.trim_eq_self_iff.mp (Text.trim_trim cs)
  rw [Text.trimEnd_eq_self_iff]
  intro c hc
  refine hend.2 c ?_
  cases htrim : Text.trim cs with
  | nil => simp [htrim, Text.dropLeading] at hc
  | cons d rest =>
    rw [htrim, Text.dropLeading] at hc
    split at hc
    · rw [List.getLast?_cons, Option.mem_def.mp hc]
      rfl
    · exact hc

theorem head?_characters_eq_sign_iff {t : CodeText} :
    t.characters.head? = some '#' ↔ t.codes.head? = some '#' := by
  obtain ⟨codes⟩ := t
  cases codes with
  | nil => simp [CodeText.characters]
  | cons p codes =>
    cases p with
    | char c => simp [CodeText.characters, CodePoint.mended]
    | half d => simp [CodeText.characters, CodePoint.mended]

theorem ne_empty_iff {t : CodeText} : t ≠ "" ↔ t.characters ≠ [] :=
  not_congr ⟨fun h ↦ h ▸ rfl, fun h ↦ congrArg CodeText.mk (CodeText.characters_eq_nil_iff.mp h)⟩

/-- Lower case spoils nothing and mends nothing, so the start of what is left decides. -/
theorem isNormal_lowercase_iff {t : CodeText} (hfilled : t.characters ≠ [])
    (hend : Text.trimEnd t.characters = t.characters) :
    IsNormal t.lowercase ↔ t.characters.head? ≠ some '#' ∧ Text.trimStart t.characters = t.characters := by
  constructor
  · rintro ⟨-, -, hunsigned, htrimmed⟩
    rw [ne_eq, ← head?_characters_eq_sign_iff, CodeText.characters_lowercase, Text.head?_lower_eq_sign_iff]
      at hunsigned
    rw [CodeText.trimmed_eq_self_iff, CodeText.characters_lowercase, Text.trim_eq_self_iff,
      ← Text.trimStart_eq_self_iff, Text.trimStart_lower_eq_self_iff] at htrimmed
    exact ⟨hunsigned, htrimmed.1⟩
  · rintro ⟨hunsigned, hstart⟩
    have htrim : Text.trim (Text.lower t.characters) = Text.lower t.characters :=
      Text.trim_lower (by rw [Text.trim, hstart, hend])
    constructor
    · rwa [ne_empty_iff, CodeText.characters_lowercase, ne_eq, Text.lower_eq_nil_iff]
    · exact t.lowercase_lowercase
    · rwa [ne_eq, ← head?_characters_eq_sign_iff, CodeText.characters_lowercase, Text.head?_lower_eq_sign_iff]
    · rwa [CodeText.trimmed_eq_self_iff, CodeText.characters_lowercase]

theorem characters_bare (t : CodeText) : (bare t).characters = Text.dropLeading '#' (Text.trim t.characters) := by
  rw [bare, ← CodeText.characters_trimmed]
  obtain ⟨codes⟩ := t.trimmed
  cases codes with
  | nil => rfl
  | cons p codes =>
    cases p with
    | half d => rfl
    | char c =>
      by_cases hc : c = '#'
      · rw [hc, Text.dropLeading_cons_self]
        exact (Text.dropLeading_cons_self _ _).symm
      · rw [Text.dropLeading, if_neg (mt CodePoint.char.inj hc)]
        exact (if_neg hc).symm

/-- What is kept of a text is a normal tag exactly when the sign that it loses is a single one. -/
theorem isNormal_bare_iff {t : CodeText} (h : Text.dropLeading '#' (Text.trim t.characters) ≠ []) :
    IsNormal (bare t).lowercase ↔ SignIsSingle t.characters := by
  have hend := trimEnd_dropLeading_trim t.characters
  rw [← characters_bare] at h hend
  rw [isNormal_lowercase_iff h hend]
  rw [characters_bare] at h ⊢
  by_cases hhead : (Text.trim t.characters).head? = some '#'
  · obtain ⟨left, htrim⟩ := List.head?_eq_some_iff.mp hhead
    rw [htrim, Text.dropLeading_cons_self] at h ⊢
    obtain ⟨c, rest, rfl⟩ := List.exists_cons_of_ne_nil h
    simp [SignIsSingle, htrim, Text.trimStart_eq_self_iff]
  · rw [Text.dropLeading_eq_self hhead]
    have hstart := (Text.trim_eq_self_iff.mp (Text.trim_trim t.characters)).1
    refine iff_of_true ⟨hhead, Text.trimStart_eq_self_iff.mpr hstart⟩ fun c rest htrim ↦ ?_
    exact absurd (by rw [htrim]; rfl) hhead

/-! ## The tags of a note -/

variable {body : String} {frontmatter : Mapping}

theorem mem_ofNote_iff {tag : CodeText} : tag ∈ ofNote body frontmatter ↔
    ∃ t ∈ listed body frontmatter,
      Text.dropLeading '#' (Text.trim t.characters) ≠ [] ∧ tag = (bare t).lowercase := by
  have hempty : ∀ t, (bare t).isEmpty = true ↔ Text.dropLeading '#' (Text.trim t.characters) = [] := fun t ↦ by
    rw [← characters_bare, CodeText.characters_eq_nil_iff, CodeText.isEmpty, List.isEmpty_iff]
  simp only [ofNote, Text.mem_distinct, List.mem_filterMap, normal?, hempty, Option.ite_none_left_eq_some,
    Option.some.injEq, eq_comm (a := tag)]

/-- Every tag was made of some text in the body or in the front matter, and that text decides its form. -/
theorem forall_isNormal_iff : (∀ tag ∈ ofNote body frontmatter, IsNormal tag) ↔
    ∀ t ∈ listed body frontmatter, SignIsSingle t.characters := by
  constructor
  · intro h t ht c rest htrim
    have hleft : Text.dropLeading '#' (Text.trim t.characters) ≠ [] := by
      rw [htrim, Text.dropLeading_cons_self]
      exact List.cons_ne_nil c rest
    have hnormal := h _ (mem_ofNote_iff.mpr ⟨t, ht, hleft, rfl⟩)
    exact (isNormal_bare_iff hleft).mp hnormal c rest htrim
  · intro h tag htag
    obtain ⟨t, ht, hleft, rfl⟩ := mem_ofNote_iff.mp htag
    exact (isNormal_bare_iff hleft).mpr (h t ht)

/-- **The form of tags.** No tag of a note is kept twice, whatever its body and its front matter are, and
each is filled, is its own lower case and has no blank at its end. All of them have no number sign and no
blank at their start either exactly when this is so of what stands behind the sign in every text that the
front matter lists; those of the body always do. -/
theorem ofNote_isNormal_iff (body : String) (frontmatter : Mapping) :
    (ofNote body frontmatter).Nodup ∧
    (∀ tag ∈ ofNote body frontmatter, tag ≠ "" ∧ tag.lowercase = tag ∧
      Text.trimEnd tag.characters = tag.characters) ∧
    ((∀ tag ∈ ofNote body frontmatter, IsNormal tag) ↔
      ∀ t ∈ inFrontmatter frontmatter, SignIsSingle t.characters) := by
  refine ⟨Text.nodup_distinct _, fun tag htag ↦ ?_, ?_⟩
  · obtain ⟨t, -, hleft, rfl⟩ := mem_ofNote_iff.mp htag
    rw [← characters_bare] at hleft
    refine ⟨?_, (bare t).lowercase_lowercase, ?_⟩
    · rwa [ne_empty_iff, CodeText.characters_lowercase, ne_eq, Text.lower_eq_nil_iff]
    · rw [CodeText.characters_lowercase, Text.trimEnd_lower_eq_self_iff, characters_bare]
      exact trimEnd_dropLeading_trim t.characters
  · have hbody : ∀ t ∈ (inBody body.toList).map CodeText.ofChars, SignIsSingle t.characters :=
      List.forall_mem_map.mpr fun cs hcs ↦ (CodeText.characters_ofChars cs).symm ▸ signIsSingle_of_mem_inBody hcs
    rw [forall_isNormal_iff, listed, List.forall_mem_append, and_iff_right hbody]

/-- Of two number signs one is kept. -/
theorem not_forall_isNormal_of_mem_ofNote :
    ¬∀ (body : String) (frontmatter : Mapping), ∀ tag ∈ ofNote body frontmatter, IsNormal tag := by
  intro h
  have htags : ofNote "" (listing "##a") = [("#a" : CodeText)] := by
    rw [ofNote_listing (by decide) (by decide)]
    cbv
  have hnormal := h "" (listing "##a") "#a" (by rw [htags]; exact List.mem_singleton_self _)
  exact hnormal.unsigned rfl

end Tags

end NoteQuery
