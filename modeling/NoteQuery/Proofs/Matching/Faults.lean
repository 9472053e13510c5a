import Mathlib
import NoteQuery.Matching.Evaluate
import NoteQuery.Note.Reading
import NoteQuery.Proofs.Matching.Property
import NoteQuery.Proofs.Note.Frontmatter
import NoteQuery.Proofs.Value.Json

/-!
# What goes wrong when a query is applied

Applying a query to a note goes wrong for two reasons only. An operand may be a pattern that is neither
read nor malformed: a repetition count that is too large or too long, or options that exclude each other.
And a value in the front matter may have no JSON form. Malformed patterns, malformed payloads and
expressions that are no queries are answers, and no field of a note has the wrong type.
-/

namespace NoteQuery

/-! ## Refused patterns -/

/-- Whether an operand is a pattern that is refused with a fault other than being malformed. -/
def Refused (operand : String) (fault : PatternFault) : Prop :=
  ∃ literal, PatternLiteral.ofOperand? operand.toList = some literal ∧
    literal.compile = .error fault ∧ PatternLiteral.isHarmless fault = false

theorem PatternLiteral.test_eq_error_iff {literal : PatternLiteral} {text : List Char}
    {fault : PatternFault} :
    literal.test text = .error fault ↔ literal.compile = .error fault ∧ isHarmless fault = false := by
  rw [test]
  cases hcompile : literal.compile with
  | ok p =>
    constructor
    · exact fun h ↦ nomatch h
    · rintro ⟨h, -⟩
      exact nomatch h
  | error met =>
    change (if isHarmless met then Except.ok false else .error met) = _ ↔ _
    by_cases hharmless : isHarmless met = true
    · rw [if_pos hharmless]
      constructor
      · exact fun h ↦ nomatch h
      · rintro ⟨h, hfault⟩
        rw [← Except.error.inj h, hharmless] at hfault
        exact nomatch hfault
    · rw [if_neg hharmless]
      constructor
      · intro h
        obtain rfl : met = fault := Except.error.inj h
        exact ⟨rfl, Bool.eq_false_iff.mpr hharmless⟩
      · rintro ⟨h, -⟩
        rw [Except.error.inj h]

/-- Matching an operand against a text goes wrong exactly when the operand is refused. -/
theorem matchesText_eq_error_iff {text operand : String} {fault : PatternFault} :
    matchesText text operand = .error fault ↔ Refused operand fault := by
  rw [matchesText, Refused]
  cases PatternLiteral.ofOperand? operand.toList with
  | none =>
    constructor
    · intro h
      cases h
    · rintro ⟨literal, h, -⟩
      cases h
  | some literal =>
    constructor
    · exact fun h ↦ ⟨literal, rfl, PatternLiteral.test_eq_error_iff.mp h⟩
    · rintro ⟨found, h, hrefused⟩
      obtain rfl : literal = found := Option.some.inj h
      exact PatternLiteral.test_eq_error_iff.mpr hrefused

namespace Matching

/-! ## Causes -/

/-- Whether some operands or front matter are to blame for a fault. -/
def Blames (frontmatter : Mapping) (operands : List String) : MatchFault → Prop
  | .pattern fault => ∃ operand ∈ operands, Refused operand fault
  | .json _ => ∃ e ∈ frontmatter, e.2.hasJson = false
  | .noParts _ | .noLookup _ => False

/-- The operands that a term is matched by: its own, or those of the expression that a property term
asks for. -/
def operandsOf (key : String) (t : Term) : List String :=
  if key = "prop" then
    match request? t.value with
    | none => []
    | some r =>
      match Query.parse r.expression Query.anyField none with
      | .ok nested => nested.clauses.flatMap fun clause ↦ clause.map Term.value
      | .error _ => []
  else [t.value]

variable {frontmatter : Mapping} {operands : List String} {operand : String} {fault : MatchFault}

theorem blames_of_refused {refused : PatternFault} (hmem : operand ∈ operands)
    (h : Refused operand refused) : Blames frontmatter operands (.pattern refused) :=
  ⟨operand, hmem, h⟩

theorem blames_of_textMatches {text : String} (hmem : operand ∈ operands)
    (h : textMatches text operand = .error fault) : Blames frontmatter operands fault := by
  obtain ⟨refused, hrefused, rfl⟩ := exists_of_mapError_eq_error h
  exact blames_of_refused hmem (matchesText_eq_error_iff.mp hrefused)

/-- A fault met in turning a value into JSON or text is that of a value without a JSON form. -/
theorem exists_of_liftJson_eq_error {α : Type} {x : Except JsonFault α} (h : liftJson x = .error fault) :
    ∃ found, fault = .json found ∧ x.isOk = false := by
  obtain ⟨found, hfound, rfl⟩ := exists_of_mapError_eq_error h
  exact ⟨found, rfl, by rw [hfound]; rfl⟩

/-! ## Fields of a record -/

variable {r : Record}

/-- If the values in its front matter have JSON forms, all attributes of a record have. -/
theorem hasJson_get_ofRecord (hkeys : ∀ e ∈ r.frontmatter, ∃ s, e.1 = .str s)
    (hvalues : ∀ e ∈ r.frontmatter, e.2.hasJson = true) (name : String) :
    ((Subject.ofRecord r).get name).hasJson = true := by
  have hall : ∀ field ∈ (Subject.ofRecord r).attributes, field.2.hasJson = true := by
    intro field hfield
    rw [Subject.ofRecord] at hfield
    simp only [List.mem_cons, List.not_mem_nil, or_false] at hfield
    rcases hfield with rfl | rfl | rfl | rfl | rfl | rfl | rfl
    · rfl
    · rfl
    · cases r.title <;> rfl
    · exact Value.entriesHaveJson_of_text_keys hkeys hvalues
    · exact Value.haveJson_map_str id r.tags
    · exact Value.haveJson_map_str CodeText.ofString r.references
    · rfl
  rw [Subject.get]
  cases hlookup : (Subject.ofRecord r).attributes.lookup name with
  | none => rfl
  | some v =>
    obtain ⟨before, after, hsplit, -⟩ := List.lookup_eq_some_iff.mp hlookup
    exact hall (name, v) (hsplit ▸ List.mem_append_right _ List.mem_cons_self)

theorem blames_of_testAttribute (hkeys : ∀ e ∈ r.frontmatter, ∃ s, e.1 = .str s) {name : String}
    (hmem : operand ∈ operands) (h : testAttribute (.ofRecord r) name operand = .error fault) :
    Blames r.frontmatter operands fault := by
  rcases error_or_exists_of_bind_eq_error h with h | ⟨text, -, h⟩
  · obtain ⟨found, rfl, hfailed⟩ := exists_of_liftJson_eq_error h
    rw [Value.isOk_plain] at hfailed
    by_contra hnone
    have hvalues : ∀ e ∈ r.frontmatter, e.2.hasJson = true :=
      fun e he ↦ Bool.of_not_eq_false fun hfalse ↦ hnone ⟨e, he, hfalse⟩
    rw [hasJson_get_ofRecord hkeys hvalues] at hfailed
    exact nomatch hfailed
  · exact blames_of_textMatches hmem h

theorem blames_of_tagsMatch {tags : List (List Char)} (hmem : operand ∈ operands)
    (h : tagsMatch tags operand.toList = .error fault) : Blames frontmatter operands fault := by
  rw [tagsMatch] at h
  split at h
  · rename_i literal hliteral
    have hrefused : ∀ text : List Char, (literal.test text).mapError .pattern = .error fault →
        Blames frontmatter operands fault := by
      intro text htest
      obtain ⟨refused, hrefused, rfl⟩ := exists_of_mapError_eq_error htest
      exact blames_of_refused hmem ⟨literal, hliteral, PatternLiteral.test_eq_error_iff.mp hrefused⟩
    obtain ⟨tag, -, h⟩ := exists_of_anyM_eq_error h
    rcases error_or_exists_of_bind_eq_error h with h | ⟨found, -, h⟩
    · exact hrefused _ h
    · cases found with
      | true => exact nomatch h
      | false => exact hrefused _ h
  · exact nomatch h

theorem blames_of_testTags (hmem : operand ∈ operands)
    (h : testTags ((Subject.ofRecord r).get "tags") operand = .error fault) :
    Blames frontmatter operands fault := by
  change testTags (.tuple (r.tags.map .str)) operand = _ at h
  rw [testTags] at h
  split at h
  · exact blames_of_tagsMatch hmem h
  · exact blames_of_tagsMatch hmem h

theorem blames_of_testReferences (hmem : operand ∈ operands)
    (h : testReferences ((Subject.ofRecord r).get "references") operand = .error fault) :
    Blames frontmatter operands fault := by
  change testReferences (.tuple (r.references.map fun s : String ↦ .str s)) operand = _ at h
  have hflat : (Value.tuple (r.references.map fun s : String ↦ .str s)).flatten.isOk = true :=
    (Value.isOk_flatten _).trans (Value.haveJson_map_str CodeText.ofString r.references)
  obtain ⟨texts, htexts⟩ := isOk_eq_true.mp hflat
  have hmatch : ∀ texts : List String,
      texts.anyM (fun text ↦ textMatches text operand) = .error fault →
        Blames frontmatter operands fault := by
    intro texts h
    obtain ⟨text, -, h⟩ := exists_of_anyM_eq_error h
    exact blames_of_textMatches hmem h
  rw [testReferences, htexts] at h
  split at h
  · exact hmatch _ h
  · exact hmatch _ h

/-! ## Properties -/

theorem blames_of_clausesHold {clauses : List (Clause Term)} {texts : List String}
    (hmem : ∀ clause ∈ clauses, ∀ t ∈ clause, t.value ∈ operands)
    (h : clausesHold clauses texts = .error fault) : Blames frontmatter operands fault := by
  obtain ⟨clause, hclause, h⟩ := exists_of_anyM_eq_error h
  obtain ⟨text, -, h⟩ := exists_of_anyM_eq_error h
  obtain ⟨t, ht, h⟩ := exists_of_allM_eq_error h
  rcases error_or_exists_of_bind_eq_error h with h | ⟨found, -, h⟩
  · exact blames_of_textMatches (hmem clause hclause t ht) h
  · exact nomatch h

theorem valueNamed_eq_null_or_exists (m : Mapping) (name : String) :
    valueNamed m name = .null ∨ ∃ e ∈ m, valueNamed m name = e.2 := by
  rw [valueNamed]
  cases hfind : List.find? (fun e ↦ e.1.text.lowercase == (name : CodeText)) m with
  | none => exact .inl rfl
  | some e => exact .inr ⟨e, List.mem_of_find?_eq_some hfind, rfl⟩

theorem blames_of_propertyHolds {name expression : String}
    (hmem : ∀ nested, Query.parse expression Query.anyField none = .ok nested →
      ∀ clause ∈ nested.clauses, ∀ t ∈ clause, t.value ∈ operands)
    (h : propertyHolds (valueNamed frontmatter name) expression = .error fault) :
    Blames frontmatter operands fault := by
  rw [propertyHolds] at h
  split at h
  · cases h
  · rename_i nested hnested
    rcases error_or_exists_of_bind_eq_error h with h | ⟨texts, -, h⟩
    · obtain ⟨found, rfl, hfailed⟩ := exists_of_liftJson_eq_error h
      rw [Value.isOk_flatten] at hfailed
      rcases valueNamed_eq_null_or_exists frontmatter name with hvalue | ⟨e, he, hvalue⟩
      · rw [hvalue] at hfailed
        cases hfailed
      · rw [hvalue] at hfailed
        exact ⟨e, he, hfailed⟩
    · exact blames_of_clausesHold (hmem nested hnested) h

theorem blames_of_testProperty {t : Term}
    (h : testProperty (.map frontmatter) t.value = .error fault) :
    Blames frontmatter (operandsOf "prop" t) fault := by
  rw [testProperty] at h
  split at h
  · rename_i request hrequest
    have hmem : ∀ nested, Query.parse request.expression Query.anyField none = .ok nested →
        ∀ clause ∈ nested.clauses, ∀ t' ∈ clause, t'.value ∈ operandsOf "prop" t := by
      intro nested hnested clause hclause t' ht'
      rw [operandsOf, if_pos rfl, hrequest]
      simp only [hnested]
      exact List.mem_flatMap.mpr ⟨clause, hclause, List.mem_map_of_mem ht'⟩
    rw [requestHolds, ite_isFilled_map] at h
    split at h
    · cases h
    · simp only [Value.parts?] at h
      split at h
      · cases h
      · cases h
      · split at h
        · cases h
        · exact blames_of_propertyHolds hmem h
  · cases h

/-! ## Terms -/

theorem blames_of_testField (hkeys : ∀ e ∈ r.frontmatter, ∃ s, e.1 = .str s) {key : String} {t : Term}
    (h : testField (.ofRecord r) key t.value = .error fault) :
    Blames r.frontmatter (operandsOf key t) fault := by
  by_cases hprop : key = "prop"
  · rw [hprop] at h ⊢
    exact blames_of_testProperty h
  · have hmem : t.value ∈ operandsOf key t := by
      rw [operandsOf, if_neg hprop]
      exact List.mem_cons_self
    rw [testField] at h
    split at h
    · exact blames_of_testAttribute hkeys hmem h
    split at h
    · exact blames_of_textMatches hmem h
    split at h
    · exact blames_of_testAttribute hkeys hmem h
    split at h
    · exact blames_of_testTags hmem h
    split at h
    · exact blames_of_testReferences hmem h
    split at h
    · rcases error_or_exists_of_bind_eq_error h with h | ⟨found, -, h⟩
      · exact blames_of_testAttribute hkeys hmem h
      · cases found with
        | true => cases h
        | false => exact blames_of_textMatches hmem h
    · exact blames_of_testAttribute hkeys hmem h

theorem blames_of_termHolds (hkeys : ∀ e ∈ r.frontmatter, ∃ s, e.1 = .str s) {defaultKey : String}
    {t : Term} (h : termHolds defaultKey (.ofRecord r) t = .error fault) :
    Blames r.frontmatter (operandsOf (resolvedKey defaultKey t) t) fault := by
  rw [termHolds] at h
  split at h
  · cases h
  · rcases error_or_exists_of_bind_eq_error h with h | ⟨found, -, h⟩
    · exact blames_of_testField hkeys h
    · cases h

/-! ## Queries -/

/-- **Applying a query to a note.** Whatever its clauses are, a query gives an answer for a note unless
one of its operands is a refused pattern or a value in the front matter has no JSON form; and that is
then the fault. -/
theorem holds_or_blames_of_read {path text : String} {note : Note} (hnote : Note.read path text = .ok note)
    (clauses : List (Clause Term)) (defaultKey : String) :
    (∃ found, holds clauses defaultKey (.ofRecord note.record) = .ok found) ∨
    ∃ fault, holds clauses defaultKey (.ofRecord note.record) = .error fault ∧
      ∃ clause ∈ clauses, ∃ t ∈ clause, Blames note.record.frontmatter
        (operandsOf (resolvedKey (normalKey defaultKey) t) t) fault := by
  have hkeys : ∀ e ∈ note.record.frontmatter, ∃ s, e.1 = .str s := by
    obtain ⟨f, hf, h⟩ := exists_of_bind_eq_ok hnote
    split at h
    · obtain rfl := Except.ok.inj h
      exact fun e he ↦ Frontmatter.exists_str_of_mem_entries hf he
    · exact nomatch h
  refine (exists_ok_or_exists_error _).imp_right fun ⟨fault, h⟩ ↦ ⟨fault, h, ?_⟩
  rw [holds] at h
  split at h
  · exact nomatch h
  · obtain ⟨clause, hclause, h⟩ := exists_of_anyM_eq_error h
    obtain ⟨t, ht, h⟩ := exists_of_allM_eq_error h
    exact ⟨clause, hclause, t, ht, blames_of_termHolds hkeys h⟩

/-! ### A repetition that is too large -/

theorem read_empty_note : Note.read "n.md" "" = .ok ⟨⟨"n.md", "", none, [], [], []⟩, none⟩ := by cbv

theorem holds_too_many : holds [[⟨"default", "/a{99999999999}/", false⟩]] "content"
    (.ofRecord ⟨"n.md", "", none, [], [], []⟩) = .error (.pattern .repetition) := by
  decide +kernel

/-- The fault of the pattern `a{99999999999}` is blamed on it. -/
theorem holds_or_blames_of_read_empty_note :
    Note.read "n.md" "" = .ok ⟨⟨"n.md", "", none, [], [], []⟩, none⟩ ∧
    ∃ clause ∈ [[Term.mk "default" "/a{99999999999}/" false]], ∃ t ∈ clause,
      ∃ operand ∈ operandsOf (resolvedKey (normalKey "content") t) t, Refused operand .repetition := by
  refine ⟨read_empty_note, ?_⟩
  obtain ⟨found, h⟩ | ⟨fault, h, hblames⟩ :=
    holds_or_blames_of_read read_empty_note [[⟨"default", "/a{99999999999}/", false⟩]] "content"
  · exact nomatch holds_too_many.symm.trans h
  · obtain rfl : MatchFault.pattern .repetition = fault :=
      Except.error.inj (holds_too_many.symm.trans h)
    exact hblames

/-- Applying a query to a note does not always give an answer. -/
theorem not_forall_exists_holds_of_read :
    ¬∀ (text : String) (q : Query) (path content : String) (note : Note) (defaultKey : String),
      Query.parse text Query.anyField none = .ok q → Note.read path content = .ok note →
        ∃ found, holds q.clauses defaultKey (.ofRecord note.record) = .ok found := by
  intro h
  have hparse : Query.parse "/a{99999999999}/" Query.anyField none
      = .ok ⟨[[⟨"default", "/a{99999999999}/", false⟩]]⟩ := by cbv
  obtain ⟨found, hfound⟩ := h _ _ _ _ _ "content" hparse read_empty_note
  cases holds_too_many.symm.trans hfound

end Matching

end NoteQuery
