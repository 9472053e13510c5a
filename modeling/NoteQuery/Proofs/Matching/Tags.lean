import Mathlib
import NoteQuery.Matching.Evaluate
import NoteQuery.Note.Reading
import NoteQuery.Proofs.Text.CodePoint

/-!
# Tags as they are listed and as they are asked for

A tag is trimmed and then loses its number sign when a note is read, but loses its number sign and is
then trimmed when a query asks for it. Both put it in lower case. The two orders agree on all texts but
those with a blank before or behind the number sign that begins them: of these the note keeps what the
query does not ask for, so that a tag is not found as it was listed.
-/

namespace NoteQuery

/-! ## Two normal forms of a text -/

namespace Tags

/-- Whether a number sign that begins a text, blanks apart, has no blank before it and none behind it. -/
def SignIsTight (cs : List Char) : Prop :=
  ∀ rest, Text.trimStart cs = '#' :: rest →
    cs = '#' :: rest ∧ ∀ c ∈ rest.head?, Text.isBlank c = false

/-- What a note keeps of a text, if that is anything. -/
def kept (cs : List Char) : List Char := Text.lower (Text.dropLeading '#' (Text.trim cs))

variable {cs : List Char}

theorem trimStart_of_sign (rest : List Char) : Text.trimStart ('#' :: rest) = '#' :: rest :=
  Text.trimStart_cons_of_not_blank (by decide) rest

theorem trim_of_sign {rest : List Char} (h : Text.trimStart cs = '#' :: rest) :
    Text.trim cs = '#' :: Text.trimEnd rest := by
  rw [Text.trim, h, Text.trimEnd_cons (.inl (by decide))]

theorem bare_ofChars (cs : List Char) : bare (.ofChars cs) = .ofChars (Text.dropLeading '#' (Text.trim cs)) := by
  rw [bare, CodeText.trimmed_ofChars]
  cases Text.trim cs with
  | nil => rfl
  | cons c rest =>
    by_cases hc : c = '#'
    · rw [hc, Text.dropLeading_cons_self]
      exact congrArg CodeText.mk (Text.dropLeading_cons_self _ _)
    · rw [Text.dropLeading, if_neg hc]
      exact congrArg CodeText.mk (if_neg (mt CodePoint.char.inj hc))

theorem normal?_eq_some (hblank : Text.trim cs ≠ []) (hsign : Text.trim cs ≠ ['#']) :
    normal? (.ofChars cs) = some (.ofChars (kept cs)) := by
  have hne : Text.dropLeading '#' (Text.trim cs) ≠ [] := by
    by_cases hhead : (Text.trim cs).head? = some '#'
    · obtain ⟨rest, hrest⟩ := List.head?_eq_some_iff.mp hhead
      rw [hrest, Text.dropLeading_cons_self]
      rintro rfl
      exact hsign hrest
    · rwa [Text.dropLeading_eq_self hhead]
  have hfilled : (bare (.ofChars cs)).isEmpty = false := by
    rw [bare_ofChars, CodeText.isEmpty, CodeText.ofChars, List.isEmpty_map]
    exact List.isEmpty_eq_false_iff.mpr hne
  rw [normal?, hfilled, bare_ofChars, CodeText.lowercase_ofChars]
  rfl

theorem tagOperand_ne_nil (hblank : Text.trim cs ≠ []) (hsign : Text.trim cs ≠ ['#']) :
    Matching.tagOperand cs ≠ [] := by
  rw [Matching.tagOperand, ne_eq, Text.lower_eq_nil_iff]
  by_cases hhead : cs.head? = some '#'
  · obtain ⟨rest, rfl⟩ := List.head?_eq_some_iff.mp hhead
    rw [Text.dropLeading_cons_self, Text.trim_eq_nil_iff, ← Text.trimEnd_eq_nil_iff]
    intro hnil
    exact hsign (by rw [trim_of_sign (trimStart_of_sign rest), hnil])
  · rwa [Text.dropLeading_eq_self hhead]

theorem tagOperand_eq_kept (h : SignIsTight cs) : Matching.tagOperand cs = kept cs := by
  rw [Matching.tagOperand, kept]
  by_cases hhead : cs.head? = some '#'
  · obtain ⟨rest, rfl⟩ := List.head?_eq_some_iff.mp hhead
    have hstart := Text.trimStart_eq_self_iff.mpr (h rest (trimStart_of_sign rest)).2
    rw [trim_of_sign (trimStart_of_sign rest), Text.dropLeading_cons_self, Text.dropLeading_cons_self,
      Text.trim, hstart]
  · have hkept : (Text.trim cs).head? ≠ some '#' := by
      intro htrim
      have hne : Text.trim cs ≠ [] := by
        intro hnil
        rw [hnil] at htrim
        cases htrim
      obtain ⟨c, rest, hstart, -, hcons⟩ := Text.exists_trimStart_eq_cons hne
      rw [hcons, List.head?_cons] at htrim
      obtain rfl : c = '#' := Option.some.inj htrim
      exact hhead (by rw [(h rest hstart).1]; rfl)
    rw [Text.dropLeading_eq_self hhead, Text.dropLeading_eq_self hkept]

theorem begins_of_tagUnder {operand tag : List Char} (h : Matching.tagUnder operand tag = true) :
    operand <+: tag := by
  rw [Matching.tagUnder, Bool.or_eq_true, beq_iff_eq, List.isPrefixOf_iff_prefix] at h
  rcases h with rfl | hprefix
  · exact List.prefix_refl tag
  · exact (List.prefix_append operand ['/']).trans hprefix

theorem blank_beside_of_not_tight (h : ¬SignIsTight cs) :
    (∃ rest, Text.trimStart cs = '#' :: rest ∧ cs.head? ≠ some '#') ∨
      ∃ b rest, cs = '#' :: b :: rest ∧ Text.isBlank b = true := by
  rw [SignIsTight, not_forall] at h
  obtain ⟨rest, h⟩ := h
  obtain ⟨hstart, h⟩ := Classical.not_imp.mp h
  by_cases hhead : cs.head? = some '#'
  · obtain ⟨rest, rfl⟩ := List.head?_eq_some_iff.mp hhead
    obtain rfl := (List.cons.inj ((trimStart_of_sign _).symm.trans hstart)).2
    cases rest with
    | nil => exact absurd ⟨rfl, fun c hc ↦ nomatch hc⟩ h
    | cons b rest =>
      refine .inr ⟨b, rest, rfl, eq_true_of_ne_false fun hb ↦ h ⟨rfl, fun c hc ↦ ?_⟩⟩
      obtain rfl : b = c := Option.some.inj hc
      exact hb
  · exact .inl ⟨rest, hstart, hhead⟩

theorem tagUnder_of_blank_before {rest : List Char} (hstart : Text.trimStart cs = '#' :: rest)
    (hhead : cs.head? ≠ some '#') :
    Matching.tagUnder (Matching.tagOperand cs) (kept cs) = false := by
  rw [kept, Matching.tagOperand, Text.dropLeading_eq_self hhead, trim_of_sign hstart,
    Text.dropLeading_cons_self, Bool.eq_false_iff]
  intro hunder
  have hlength := (begins_of_tagUnder hunder).length_le
  rw [Text.length_lower_cons (by decide)] at hlength
  omega

/-- A blank behind the sign stays in the tag, and nothing that is asked for begins with one. -/
theorem tagUnder_of_blank_behind {b : Char} {rest : List Char} (hb : Text.isBlank b = true)
    (hsign : Text.trim ('#' :: b :: rest) ≠ ['#']) :
    Matching.tagUnder (Matching.tagOperand ('#' :: b :: rest)) (kept ('#' :: b :: rest)) = false := by
  rw [trim_of_sign (trimStart_of_sign _)] at hsign
  have hkept : Text.trimEnd (b :: rest) ≠ [] := fun hnil ↦ hsign (by rw [hnil])
  have hcons : Text.trimEnd (b :: rest) = b :: Text.trimEnd rest := by
    refine Text.trimEnd_cons (.inr fun hnil ↦ hkept ?_)
    rw [Text.trimEnd_eq_nil_iff] at hnil ⊢
    exact List.forall_mem_cons.mpr ⟨hb, hnil⟩
  rw [ne_eq, Text.trimEnd_eq_nil_iff, ← Text.trim_eq_nil_iff] at hkept
  obtain ⟨c, tail, -, hc, hasked⟩ := Text.exists_trimStart_eq_cons hkept
  obtain ⟨d, asked, hd, hdc⟩ := Text.exists_lower_eq_cons c (Text.trimEnd tail)
  obtain ⟨e, listed, he, heb⟩ := Text.exists_lower_eq_cons b (Text.trimEnd rest)
  rw [kept, Matching.tagOperand, trim_of_sign (trimStart_of_sign _), Text.dropLeading_cons_self,
    Text.dropLeading_cons_self, hcons, hasked, hd, he, Bool.eq_false_iff]
  intro hunder
  have hde : d = e := (List.cons_prefix_cons.mp (begins_of_tagUnder hunder)).1
  rw [← hde, hdc, hc, hb] at heb
  cases heb

theorem tagUnder_eq_false (hsign : Text.trim cs ≠ ['#']) (h : ¬SignIsTight cs) :
    Matching.tagUnder (Matching.tagOperand cs) (kept cs) = false := by
  obtain ⟨rest, hstart, hhead⟩ | ⟨b, rest, rfl, hb⟩ := blank_beside_of_not_tight h
  · exact tagUnder_of_blank_before hstart hhead
  · exact tagUnder_of_blank_behind hb hsign

/-! ## Tags of a note -/

theorem mem_textsOfAll {xs : List Value} {x : Value} (hx : x ∈ xs) {text : CodeText}
    (htext : text ∈ texts x) : text ∈ textsOfAll xs := by
  induction xs with
  | nil => exact nomatch hx
  | cons y ys ih =>
    rw [textsOfAll, List.mem_append]
    rcases List.mem_cons.mp hx with rfl | hx
    · exact .inl htext
    · exact .inr (ih hx)

theorem mem_inFrontmatter {frontmatter : Mapping} {xs : List Value} {s : String}
    (hlisted : listed? frontmatter = some (.list xs)) (hs : .str s ∈ xs) :
    (s : CodeText) ∈ inFrontmatter frontmatter := by
  rw [inFrontmatter, hlisted]
  exact mem_textsOfAll hs (List.mem_singleton.mpr rfl)

theorem mem_ofNote {body : String} {frontmatter : Mapping}
    (hcs : .ofChars cs ∈ inFrontmatter frontmatter) (hblank : Text.trim cs ≠ []) (hsign : Text.trim cs ≠ ['#']) :
    .ofChars (kept cs) ∈ ofNote body frontmatter := by
  rw [ofNote, Text.mem_distinct, List.mem_filterMap]
  exact ⟨_, List.mem_append_right _ hcs, normal?_eq_some hblank hsign⟩

/-- The front matter that lists one tag and nothing else. -/
def listing (s : String) : Mapping := [(.str "tags", .list [.str s])]

theorem listed?_listing (s : String) : listed? (listing s) = some (.list [.str s]) := by
  have hname : ((Value.str "tags").text.lowercase == ("tags" : CodeText)) = true := by cbv
  rw [listed?, listing]
  simp only [List.find?_cons, hname, Option.map_some]

theorem ofNote_listing {s : String} (hblank : Text.trim s.toList ≠ [])
    (hsign : Text.trim s.toList ≠ ['#']) :
    ofNote "" (listing s) = [.ofChars (kept s.toList)] := by
  have hbody : inBody "".toList = [] := by cbv
  have hlisted : inFrontmatter (listing s) = [.ofChars s.toList] := by
    rw [inFrontmatter, listed?_listing]
    rfl
  rw [ofNote, listed, hbody, hlisted, List.map_nil, List.nil_append,
    List.filterMap_cons_some (normal?_eq_some hblank hsign)]
  rfl

end Tags

namespace Matching

theorem eq_nil_of_parts?_eq_some {value : Value} {parts : List Value} (hfilled : value.isFilled = false)
    (hparts : value.parts? = some parts) : parts = [] := by
  cases value with
  | str _ | list _ | tuple _ | set _ | map _ | bytes _ => simp_all [Value.isFilled, Value.parts?, CodeText.isEmpty]
  | _ => cases hparts

/-- Texts are tested in lower case, whatever they are the parts of. -/
theorem testTags_of_parts {value : Value} {tags : List CodeText}
    (h : value.parts? = some (tags.map .str)) (operand : String) :
    testTags value operand = tagsMatch (tags.map fun tag ↦ Text.lower tag.characters) operand.toList := by
  rw [testTags]
  split
  · rw [h]
    simp only [List.map_map]
    rfl
  · rename_i hfilled
    have hnil := eq_nil_of_parts?_eq_some (eq_false_of_ne_true hfilled) h
    rw [List.map_eq_nil_iff.mp hnil, List.map_nil]

theorem tagsMatch_of_plain {operand : List Char} (hplain : PatternLiteral.ofOperand? operand = none)
    (tags : List (List Char)) :
    tagsMatch tags operand
      = .ok ((tagOperand operand).isEmpty || tags.any (tagUnder (tagOperand operand))) := by
  rw [tagsMatch, hplain]
  rfl

theorem termHolds_tag_eq_testTags {operand : String} (hblank : Text.trim operand.toList ≠ [])
    (defaultKey : String) (s : Subject) :
    termHolds defaultKey s ⟨"tag", operand, false⟩ = testTags (s.get "tags") operand := by
  have hfilled : ¬("tag" ≠ "prop" ∧ Text.isBlankText operand = true) := by
    rintro ⟨-, hall⟩
    rw [Text.isBlankText, List.all_eq_true, ← Text.trim_eq_nil_iff] at hall
    exact hblank hall
  have hfield : testField s "tag" operand = testTags (s.get "tags") operand := rfl
  have hkey : resolvedKey defaultKey ⟨"tag", operand, false⟩ = "tag" := rfl
  rw [termHolds, hkey, if_neg hfilled, hfield]
  cases testTags (s.get "tags") operand with
  | error fault => rfl
  | ok found => exact congrArg Except.ok (Bool.bne_false found)

/-- A tag term that is no pattern holds if what it asks for is one of the tags or above one. -/
theorem termHolds_tag {s : String} (hblank : Text.trim s.toList ≠ [])
    (hplain : PatternLiteral.ofOperand? s.toList = none) (defaultKey : String) (r : Record) :
    termHolds defaultKey (.ofRecord r) ⟨"tag", s, false⟩
      = .ok ((tagOperand s.toList).isEmpty ||
          r.tags.any fun tag ↦ tagUnder (tagOperand s.toList) (Text.lower tag.characters)) := by
  have htags : (Subject.ofRecord r).get "tags" = .tuple (r.tags.map .str) := rfl
  rw [termHolds_tag_eq_testTags hblank, htags, testTags_of_parts rfl, tagsMatch_of_plain hplain, List.any_map]
  rfl

/-- **A tag as it is listed.** A text in the list of tags of a note, with more to it than blanks and one
number sign, is found by the tag term with that text exactly when its sign, if it begins with one, is
tight. -/
theorem termHolds_listed_tag_iff {s : String} (hblank : Text.trim s.toList ≠ [])
    (hsign : Text.trim s.toList ≠ ['#']) (hplain : PatternLiteral.ofOperand? s.toList = none) :
    (∀ (path : String) (f : Frontmatter) (xs : List Value) (defaultKey : String),
      Tags.listed? f.entries = some (.list xs) → .str s ∈ xs →
        termHolds defaultKey (.ofRecord (f.record path)) ⟨"tag", s, false⟩ = .ok true) ↔
      Tags.SignIsTight s.toList := by
  constructor
  · intro h
    by_contra htight
    -- in a note with no other tag nothing is found
    have hheld := h "n.md" ⟨Tags.listing s, "", none⟩ [.str s] "content" (Tags.listed?_listing s)
      (List.mem_singleton.mpr rfl)
    have hasked : (tagOperand s.toList).isEmpty = false :=
      List.isEmpty_eq_false_iff.mpr (Tags.tagOperand_ne_nil hblank hsign)
    have htags : (Frontmatter.record "n.md" ⟨Tags.listing s, "", none⟩).tags
        = [.ofChars (Tags.kept s.toList)] := Tags.ofNote_listing hblank hsign
    rw [termHolds_tag hblank hplain, htags, hasked, List.any_cons, List.any_nil, CodeText.characters_ofChars,
      Tags.kept, Text.lower_lower, ← Tags.kept, Tags.tagUnder_eq_false hsign htight] at hheld
    cases hheld
  · intro htight path f xs defaultKey hlisted hs
    have hmem : .ofChars (Tags.kept s.toList) ∈ (f.record path).tags :=
      Tags.mem_ofNote (Tags.mem_inFrontmatter hlisted hs) hblank hsign
    have hunder : (f.record path).tags.any (fun tag ↦
        tagUnder (Tags.kept s.toList) (Text.lower tag.characters)) = true := by
      rw [List.any_eq_true]
      refine ⟨_, hmem, ?_⟩
      rw [CodeText.characters_ofChars, Tags.kept, Text.lower_lower, tagUnder, beq_self_eq_true, Bool.true_or]
    rw [termHolds_tag hblank hplain, Tags.tagOperand_eq_kept htight, hunder, Bool.or_true]

theorem termHolds_listed_tag_iff_in_capitals :
    Text.trim "#Work".toList ≠ [] ∧ Text.trim "#Work".toList ≠ ['#'] ∧
    PatternLiteral.ofOperand? "#Work".toList = none ∧
    termHolds "content" (.ofRecord (Frontmatter.record "n.md" ⟨Tags.listing "#Work", "body", none⟩))
      ⟨"tag", "#Work", false⟩ = .ok true := by
  have hblank : Text.trim "#Work".toList ≠ [] := by decide
  have hsign : Text.trim "#Work".toList ≠ ['#'] := by decide
  have hplain : PatternLiteral.ofOperand? "#Work".toList = none := rfl
  have htight : Tags.SignIsTight "#Work".toList := by
    have htext : "#Work".toList = '#' :: "Work".toList := by decide
    intro rest hrest
    rw [htext, Tags.trimStart_of_sign, List.cons.injEq] at hrest
    rw [htext, ← hrest.2]
    refine ⟨rfl, fun c hc ↦ ?_⟩
    obtain rfl : 'W' = c := Option.some.inj hc
    rfl
  exact ⟨hblank, hsign, hplain, (termHolds_listed_tag_iff hblank hsign hplain).mpr htight "n.md" _ _
    "content" (Tags.listed?_listing "#Work") (List.mem_singleton.mpr rfl)⟩

/-- Not every tag is found as it was listed: the blank before the sign is not expected in a query. -/
theorem not_forall_termHolds_listed_tag :
    ¬∀ s : String, Text.trim s.toList ≠ [] → Text.trim s.toList ≠ ['#'] →
      PatternLiteral.ofOperand? s.toList = none →
        ∀ (path : String) (f : Frontmatter) (xs : List Value) (defaultKey : String),
          Tags.listed? f.entries = some (.list xs) → .str s ∈ xs →
            termHolds defaultKey (.ofRecord (f.record path)) ⟨"tag", s, false⟩ = .ok true := by
  intro h
  have hheld := h " #a" (by decide) (by decide) rfl "n.md" ⟨Tags.listing " #a", "", none⟩ [.str " #a"]
    "content" (Tags.listed?_listing " #a") (List.mem_singleton.mpr rfl)
  have hmissed : termHolds "content"
      (.ofRecord (Frontmatter.record "n.md" ⟨Tags.listing " #a", "", none⟩)) ⟨"tag", " #a", false⟩
        = .ok false := by cbv
  cases hheld.symm.trans hmissed

end Matching

end NoteQuery
