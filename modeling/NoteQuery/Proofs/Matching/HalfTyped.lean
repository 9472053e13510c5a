import NoteQuery.Proofs.Json.Numbers
import NoteQuery.Proofs.Matching.Property
import NoteQuery.Proofs.Matching.Tags
import NoteQuery.Proofs.Outcome

/-!
# Half-typed terms

A term that has a field but no operand yet is meant to hide nothing, whichever sign it has, so that a query
can be applied while it is being typed. There are three such terms: one whose operand is blank, a tag term
with nothing behind its number sign, and a property term whose name is blank.

Only the first is passed over before the sign is regarded. The test of the field finds that the other two
hold, and the sign is regarded after that, so a negated one hides everything. A blank bare word hides
everything too, if bare words are tested as properties: it is then a malformed payload.
-/

namespace NoteQuery

/-! ## Blank payloads -/

namespace Json

open CodePoint (char)

theorem isDigit_of_isBlank {c : Char} (h : Text.isBlank c = true) : c.isDigit = false := by
  have hzero : '0'.toNat = 48 := rfl
  have hnine : '9'.toNat = 57 := rfl
  rw [Bool.eq_false_iff, ne_eq, Char.isDigit_iff_toNat, hzero, hnine]
  simp only [Text.isBlank, Bool.or_eq_true, Bool.and_eq_true, decide_eq_true_eq, beq_iff_eq] at h
  omega

theorem readScalar_of_isBlank {c : Char} (hblank : Text.isBlank c = true) (rest : List Char) :
    readScalar (c :: rest) = none := by
  have hne : ∀ d, Text.isBlank d = false → ∀ tail, c :: rest = d :: tail → False := by
    intro d hd tail heq
    rw [← (List.cons.inj heq).1, hblank] at hd
    cases hd
  have hletters : ∀ d ∈ ['n', 't', 'f', 'N', 'I', '-'], Text.isBlank d = false := by simp [Text.isBlank]
  have hmem : c ∉ ['n', 't', 'f', 'N', 'I', '-'] := fun hmem ↦ hne c (hletters c hmem) rest rfl
  have hspan : spanDigits (c :: rest) = ([], c :: rest) :=
    spanDigits_append (List.forall_mem_nil _) (by simpa using isDigit_of_isBlank hblank)
  have hwhole : readWhole (c :: rest) = none := by
    rw [readWhole, hspan]
    · rfl
    · exact hne '0' rfl
  rw [readScalar_of_notMem hmem, readNumber, hwhole]
  rfl

/-- No value begins with a blank, of whatever kind. -/
theorem readValue_of_isBlank {c : Char} (hblank : Text.isBlank c = true) (fuel : Nat) (rest : List CodePoint) :
    readValue fuel (char c :: rest) = none := by
  have hne : ∀ d, Text.isBlank d = false → ∀ tail, char c :: rest = char d :: tail → False := by
    intro d hd tail heq
    rw [← CodePoint.char.inj (List.cons.inj heq).1, hblank] at hd
    cases hd
  have hleaf : readLeaf (char c :: rest) = none := by
    have hspan : readScalar (spanLeaf (char c :: rest)).1 = none := by
      rw [spanLeaf]
      split
      · rfl
      · exact readScalar_of_isBlank hblank _
    rw [readLeaf, hspan]
    rfl
  cases fuel with
  | zero => rfl
  | succ fuel =>
    rw [readValue, hleaf]
    · exact hne '"' rfl
    · exact hne '[' rfl
    · exact hne '\x7b' rfl

theorem parse?_of_isBlankText {s : String} (h : Text.isBlankText s = true) : parse? s = none := by
  have hcodes : ∀ p ∈ (s : CodeText).codes, ∃ c, p = char c ∧ Text.isBlank c = true := by
    intro p hp
    obtain ⟨c, hc, rfl⟩ := List.mem_map.mp hp
    exact ⟨c, rfl, List.all_eq_true.mp h c hc⟩
  have hnone : ∀ fuel, readValue fuel (skipSpace (s : CodeText).codes) = none := by
    intro fuel
    cases hcs : skipSpace (s : CodeText).codes with
    | nil => cases fuel <;> rfl
    | cons p rest =>
      have hmem : p ∈ skipSpace (s : CodeText).codes := hcs ▸ List.mem_cons_self
      obtain ⟨c, rfl, hblank⟩ := hcodes p ((List.dropWhile_sublist _).subset hmem)
      exact readValue_of_isBlank hblank fuel rest
  rw [parse?]
  simp only [hnone]

end Json

namespace Matching

variable {key : String} {s : Subject} {t : Term}

theorem testProperty_of_isBlankText {payload : String} (h : Text.isBlankText payload = true)
    (frontmatter : Value) : testProperty frontmatter payload = .ok false := by
  rw [testProperty, request?, Json.parse?_of_isBlankText h]

/-- Everything has a property whose name is blank, whatever the front matter is. -/
theorem testProperty_of_nameless {payload : String} {entries : List (CodeText × Json)}
    (h : Json.parse? payload = some (.obj entries))
    (hname : Text.isBlankText (payloadText entries "name") = true) (frontmatter : Value) :
    testProperty frontmatter payload = .ok true := by
  rw [testProperty, request?, h]
  simp [requestHolds, Text.isEmpty_lowercase, Text.isEmpty_trimmed, hname]

/-! ## Number signs -/

theorem tagOperand_of_sign {rest : List Char} (h : ∀ c ∈ rest, Text.isBlank c = true) :
    tagOperand ('#' :: rest) = [] := by
  rw [tagOperand, Text.dropLeading_cons_self, Text.trim_eq_nil_iff.mpr h]
  rfl

/-- Whether the tags of a subject, if it has any, can be gone through. -/
def ListsTags (s : Subject) : Prop :=
  (s.get "tags").isFilled = true → (s.get "tags").parts?.isSome = true

theorem listsTags_ofRecord (r : Record) : ListsTags (.ofRecord r) := fun _ ↦ rfl

/-- Every list of tags has one that a lone number sign asks for, the empty list included. -/
theorem testTags_of_sign {operand : String} {rest : List Char} (hs : ListsTags s)
    (h : operand.toList = '#' :: rest) (hrest : ∀ c ∈ rest, Text.isBlank c = true) :
    testTags (s.get "tags") operand = .ok true := by
  have hplain : PatternLiteral.ofOperand? ('#' :: rest) = none := rfl
  have hall : ∀ tags, tagsMatch tags operand.toList = .ok true := by
    intro tags
    rw [h, tagsMatch_of_plain hplain, tagOperand_of_sign hrest]
    rfl
  rw [testTags]
  split
  · next hfilled =>
    obtain ⟨parts, hparts⟩ := Option.isSome_iff_exists.mp (hs hfilled)
    rw [hparts]
    exact hall _
  · exact hall []

/-! ## Terms -/

/-- Whether a term has no operand yet, when bare words are tested under a key. -/
inductive IsHalfTyped (key : String) (t : Term) : Prop
  /-- Nothing but blanks behind a field that is no property. -/
  | blank (hkey : t.key ≠ "prop") (h : Text.isBlankText t.value = true)
  /-- Nothing but blanks behind the number sign of a tag. -/
  | sign (hkey : resolvedKey key t = "tag") {rest : List Char} (h : t.value.toList = '#' :: rest)
      (hrest : ∀ c ∈ rest, Text.isBlank c = true)
  /-- A property with a blank name. -/
  | nameless (hkey : resolvedKey key t = "prop") {entries : List (CodeText × Json)}
      (h : Json.parse? t.value = some (.obj entries))
      (hname : Text.isBlankText (payloadText entries "name") = true)

/-- Whether a half-typed term hides everything: a negated one whose operand is not blank does, and a blank
bare word that is tested as a property. -/
def hides (key : String) (t : Term) : Bool :=
  if Text.isBlankText t.value then !t.neg && resolvedKey key t == "prop" else t.neg

theorem termHolds_of_isBlankText (hkey : resolvedKey key t ≠ "prop") (h : Text.isBlankText t.value = true) :
    termHolds key s t = .ok true := by
  rw [termHolds]
  exact if_pos ⟨hkey, h⟩

theorem termHolds_of_testField {found : Bool}
    (h : resolvedKey key t = "prop" ∨ Text.isBlankText t.value = false)
    (hfield : testField s (resolvedKey key t) t.value = .ok found) :
    termHolds key s t = .ok (found != t.neg) := by
  have hneg : ¬(resolvedKey key t ≠ "prop" ∧ Text.isBlankText t.value = true) := by
    rintro ⟨hkey, hblank⟩
    simp [hkey, hblank] at h
  rw [termHolds]
  simp only [if_neg hneg, hfield]
  rfl

theorem IsHalfTyped.termHolds_eq (hs : ListsTags s) (ht : IsHalfTyped key t) :
    termHolds key s t = .ok (!hides key t) := by
  rcases ht with ⟨hkey, hblank⟩ | ⟨hkey, hsign, hrest⟩ | ⟨hkey, hparse, hname⟩
  · by_cases hprop : resolvedKey key t = "prop"
    · have hfield : testField s (resolvedKey key t) t.value = .ok false := by
        rw [hprop]
        exact testProperty_of_isBlankText hblank (s.get "frontmatter")
      rw [termHolds_of_testField (.inl hprop) hfield]
      simp [hides, hblank, hprop]
    · rw [termHolds_of_isBlankText hprop hblank]
      simp [hides, hblank, hprop]
  · have hblank : Text.isBlankText t.value = false := by
      rw [Text.isBlankText, hsign]
      rfl
    have hfield : testField s (resolvedKey key t) t.value = .ok true := by
      rw [hkey]
      exact testTags_of_sign hs hsign hrest
    rw [termHolds_of_testField (.inr hblank) hfield]
    simp [hides, hblank]
  · have hblank : Text.isBlankText t.value = false := by
      rw [Bool.eq_false_iff]
      intro hblank
      rw [Json.parse?_of_isBlankText hblank] at hparse
      cases hparse
    have hfield : testField s (resolvedKey key t) t.value = .ok true := by
      rw [hkey]
      exact testProperty_of_nameless hparse hname (s.get "frontmatter")
    rw [termHolds_of_testField (.inr hblank) hfield]
    simp [hides, hblank]

/-! ## Queries -/

/-- A term that holds can be left out of a query, wherever it stands and whatever else goes wrong. -/
theorem holds_insert_of_termHolds {defaultKey : String} (h : termHolds (normalKey defaultKey) s t = .ok true)
    (before after : List (Clause Term)) (left right : Clause Term) :
    holds (before ++ (left ++ t :: right) :: after) defaultKey s
      = holds (before ++ (left ++ right) :: after) defaultKey s := by
  have hempty : ∀ clause : Clause Term, (before ++ clause :: after).isEmpty = false := by simp
  simp only [holds, hempty, anyM_append, List.anyM_cons, allM_append_cons h]

/-- **Half-typed terms.** A half-typed term holds for every subject, unless it is one that hides everything,
and then it holds for none. So a query keeps its answer when a half-typed term is put into one of its
clauses, at any place, except for the terms that hide everything: each of these changes some answer. -/
theorem halfTyped_neutral_iff (hs : ListsTags s) (ht : IsHalfTyped key t) :
    (termHolds key s t = .ok true ↔ hides key t = false) ∧
    (termHolds key s t = .ok false ↔ hides key t = true) ∧
    ∀ defaultKey, normalKey defaultKey = key →
      ((∀ before after left right, holds (before ++ (left ++ t :: right) :: after) defaultKey s
          = holds (before ++ (left ++ right) :: after) defaultKey s) ↔ hides key t = false) := by
  have hterm := ht.termHolds_eq hs
  refine ⟨by simp [hterm], by simp [hterm], ?_⟩
  rintro defaultKey rfl
  constructor
  · intro h
    by_contra hhides
    have hlone : holds [[t]] defaultKey s = .ok false := by
      simp only [holds, List.anyM_cons, List.allM_cons, hterm, Bool.eq_true_of_not_eq_false hhides]
      rfl
    cases hlone.symm.trans (h [] [] [] [])
  · intro hhides
    rw [hhides] at hterm
    exact holds_insert_of_termHolds hterm

/-- A number sign and a blank make no difference to any query, on a note without tags. -/
theorem halfTyped_neutral_iff_of_lone_sign :
    ListsTags (.ofRecord ⟨"n.md", "", none, [], [], []⟩) ∧ IsHalfTyped "content" ⟨"tag", "# ", false⟩ ∧
    ∀ before after left right,
      holds (before ++ (left ++ ⟨"tag", "# ", false⟩ :: right) :: after) "Content"
          (.ofRecord ⟨"n.md", "", none, [], [], []⟩)
        = holds (before ++ (left ++ right) :: after) "Content" (.ofRecord ⟨"n.md", "", none, [], [], []⟩) := by
  have htags := listsTags_ofRecord ⟨"n.md", "", none, [], [], []⟩
  have hsign : "# ".toList = ['#', ' '] := rfl
  have hterm : IsHalfTyped "content" ⟨"tag", "# ", false⟩ :=
    .sign (by decide) hsign (List.forall_mem_singleton.mpr (by decide))
  exact ⟨htags, hterm, ((halfTyped_neutral_iff htags hterm).2.2 "Content" (by cbv)).mpr (by decide)⟩

/-- A negated number sign hides a note without tags. -/
theorem not_forall_termHolds_of_isHalfTyped :
    ¬∀ (key : String) (r : Record) (t : Term), IsHalfTyped key t → termHolds key (.ofRecord r) t = .ok true := by
  intro h
  have hsign : "#".toList = ['#'] := rfl
  have hterm : IsHalfTyped "content" ⟨"tag", "#", true⟩ := .sign (by decide) hsign (List.forall_mem_nil _)
  have hfalse : termHolds "content" (.ofRecord ⟨"n.md", "", none, [], [], []⟩) ⟨"tag", "#", true⟩
      = .ok false := by
    cbv
  cases hfalse.symm.trans (h _ _ _ hterm)

end Matching

end NoteQuery
