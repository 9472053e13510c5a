import Mathlib
import NoteQuery.Proofs.Json.Texts
import NoteQuery.Proofs.Matching.Trace
import NoteQuery.Proofs.Text.Case
import NoteQuery.Proofs.Text.Trim

/-!
# Property terms

The operand of a property term is written and read by different hands: a filter is written as JSON when a
query is scanned, and read when the query is applied. Nothing is lost on the way, whatever characters the
name and the expression have, so what a property term asks for is what stands in its brackets, and the
answer follows from the front matter: from the first entry whose key is named, if there is one.

The one exception is a key that is no value. Its text can be named like any other, but it is taken for the
absence of a key.
-/

namespace NoteQuery

/-! ## Payloads -/

theorem Property.isWhole_compact (name : String) (expression : Option String) :
    (Json.obj (("name", .str name) ::
      (expression.map fun e : String ↦ (("expr" : CodeText), Json.str e)).toList)).compact.isWhole = true := by
  rw [CodeText.isWhole]
  cases expression
  all_goals
    simp only [Json.compact, Json.compactCodes, Option.map, Option.toList, Json.compactEntries,
      List.all_append, List.all_cons, Json.all_isChar_quoteCodes, CodeText.isWhole_ofString]
    rfl

/-- **Payloads survive.** The name and the expression are read back as they were written. -/
theorem Property.parse?_payload (name : String) (expression : Option String) :
    Json.parse? (payload name expression)
      = some (.obj
          (("name", .str name) :: (expression.map fun e : String ↦ (("expr" : CodeText), Json.str e)).toList)) := by
  have hpayload : (payload name expression : CodeText)
      = (Json.obj (("name", .str name)
          :: (expression.map fun e : String ↦ (("expr" : CodeText), Json.str e)).toList)).compact := by
    rw [← CodeText.ofString_mended (isWhole_compact name expression)]
    cases expression <;> rfl
  rw [hpayload]
  refine Json.parse?_compact (Json.readsAs_obj ?_ ?_)
  · cases expression with
    | none => exact List.forall_mem_singleton.mpr (Json.readsAs_str name)
    | some expression =>
      exact List.forall_mem_cons.mpr
        ⟨Json.readsAs_str name, List.forall_mem_singleton.mpr (Json.readsAs_str expression)⟩
  · cases expression with
    | none => exact List.nodup_singleton _
    | some expression =>
      have hkeys : (["name", "expr"].map CodeText.ofString).Nodup :=
        List.Nodup.map (fun _ _ ↦ CodeText.ofString_inj.mp) (by decide)
      exact hkeys

namespace Matching

theorem payloadText_of_lookup_eq_some_str {entries : List (CodeText × Json)} {key : CodeText} {s : String}
    (h : entries.lookup key = some (.str s)) : payloadText entries key = s := by
  have htext : (Json.str s).toValue.text.mended = s := CodeText.mended_ofString s
  rw [payloadText, h]
  dsimp only
  rw [htext]
  split
  · rfl
  · next hfilled =>
    rw [Json.toValue, Value.isFilled, CodeText.isEmpty_ofString, Bool.not_eq_true, Bool.not_eq_false'] at hfilled
    exact (String.isEmpty_iff.mp hfilled).symm

theorem request?_payload (name : String) (expression : Option String) :
    request? (Property.payload name expression)
      = some ⟨Text.lowercase (Text.trimmed name), Text.trimmed (expression.getD "")⟩ := by
  have hname : ∀ rest, payloadText (("name", .str name) :: rest) "name" = name :=
    fun rest ↦ payloadText_of_lookup_eq_some_str rfl
  have hexpression : payloadText
      (("name", .str name) :: (expression.map fun e : String ↦ (("expr" : CodeText), Json.str e)).toList) "expr"
        = expression.getD "" := by
    cases expression with
    | none => rfl
    | some expression => exact payloadText_of_lookup_eq_some_str rfl
  rw [request?, Property.parse?_payload]
  simp only [hname, hexpression]

/-! ## Front matter -/

variable {fm : Mapping} {key value : Value} {r : Request}

/-- Whether an entry is the first of a mapping whose key, as text in lower case, is a name. -/
def IsFirstNamed (fm : Mapping) (name : String) (key value : Value) : Prop :=
  ∃ before after, fm = before ++ (key, value) :: after ∧ key.text.lowercase = name ∧
    ∀ e ∈ before, e.1.text.lowercase ≠ name

theorem ite_isFilled_map (fm : Mapping) :
    (if (Value.map fm).isFilled then Value.map fm else .map []) = .map fm := by
  cases fm <;> rfl

theorem requestHolds_map (hname : r.name.isEmpty = false) :
    requestHolds (.map fm) r
      = match keyNamed? (fm.map Prod.fst) r.name with
        | none | some .null => .ok false
        | some _ =>
          if r.expression.isEmpty then .ok true else propertyHolds (valueNamed fm r.name) r.expression := by
  rw [requestHolds, hname, ite_isFilled_map]
  rfl

theorem requestHolds_of_absent (hname : r.name.isEmpty = false)
    (h : ∀ e ∈ fm, e.1.text.lowercase ≠ r.name) : requestHolds (.map fm) r = .ok false := by
  have hkey : keyNamed? (fm.map Prod.fst) r.name = none := by
    rw [keyNamed?, List.find?_map, Option.map_eq_none_iff, List.find?_eq_none]
    exact fun e he ↦ mt eq_of_beq (h e he)
  rw [requestHolds_map hname, hkey]

namespace IsFirstNamed

variable {name : String}

theorem find?_eq_some (h : IsFirstNamed fm name key value) :
    List.find? (fun e ↦ e.1.text.lowercase == (name : CodeText)) fm = some (key, value) := by
  obtain ⟨before, after, rfl, hkey, hbefore⟩ := h
  rw [List.find?_eq_some_iff_append]
  refine ⟨beq_iff_eq.mpr hkey, before, after, rfl, fun e he ↦ ?_⟩
  simpa using hbefore e he

theorem keyNamed?_eq_some (h : IsFirstNamed fm name key value) :
    keyNamed? (fm.map Prod.fst) name = some key := by
  rw [keyNamed?, List.find?_map]
  exact congrArg (Option.map Prod.fst) h.find?_eq_some

theorem valueNamed_eq (h : IsFirstNamed fm name key value) : valueNamed fm name = value := by
  rw [valueNamed, h.find?_eq_some]
  rfl

end IsFirstNamed

theorem requestHolds_of_null (hname : r.name.isEmpty = false) (h : IsFirstNamed fm r.name .null value) :
    requestHolds (.map fm) r = .ok false := by
  rw [requestHolds_map hname, h.keyNamed?_eq_some]

theorem requestHolds_of_found (hname : r.name.isEmpty = false) (hkey : key ≠ .null)
    (h : IsFirstNamed fm r.name key value) :
    requestHolds (.map fm) r
      = if r.expression.isEmpty then .ok true else propertyHolds value r.expression := by
  rw [requestHolds_map hname, h.keyNamed?_eq_some, h.valueNamed_eq]
  cases key with
  | null => exact absurd rfl hkey
  | _ => rfl

/-! ## What happens meanwhile -/

namespace Trace

variable {payload reason : String}

theorem malformed_notMem_ofProperty (value : Value) (expression : String) :
    .malformed payload reason ∉ ofProperty value expression := by
  intro h
  rw [ofProperty, List.mem_append] at h
  rcases h with h | h
  · cases hq : Query.parse expression Query.anyField none with
    | ok q =>
      rw [hq] at h
      cases List.mem_singleton.mp h
    | error fault =>
      rw [hq] at h
      cases List.mem_singleton.mp h
  · split at h
    · exact nomatch isRejection_of_mem_ofClauses h
    · cases h

theorem malformed_notMem_ofRequest (frontmatter : Value) (r : Request) :
    .malformed payload reason ∉ ofRequest frontmatter r := by
  intro h
  unfold ofRequest at h
  split at h
  · cases h
  · split at h
    · split at h
      · cases h
      · cases h
      · exact malformed_notMem_ofProperty _ _ h
    · cases h

/-- No payload that was written for a property filter is found to be malformed. -/
theorem malformed_notMem_ofTerm (defaultKey : String) (s : Subject) (name : String)
    (expression : Option String) (neg : Bool) :
    .malformed payload reason ∉
      ofTerm defaultKey s ⟨"prop", Property.payload name expression, neg⟩ := by
  change .malformed payload reason ∉ ofPayload (s.get "frontmatter") (Property.payload name expression)
  rw [ofPayload, request?_payload]
  exact malformed_notMem_ofRequest _ _

end Trace

/-! ## The answer -/

theorem testProperty_payload (frontmatter : Value) (name : String) (expression : Option String) :
    testProperty frontmatter (Property.payload name expression)
      = requestHolds frontmatter
          ⟨Text.lowercase (Text.trimmed name), Text.trimmed (expression.getD "")⟩ := by
  rw [testProperty, request?_payload]

theorem termHolds_prop (defaultKey : String) (s : Subject) (payload : String) (neg : Bool) :
    termHolds defaultKey s ⟨"prop", payload, neg⟩
      = (testProperty (s.get "frontmatter") payload).map (· != neg) := by
  change (testProperty (s.get "frontmatter") payload >>= fun found ↦ .ok (found != neg)) = _
  cases testProperty (s.get "frontmatter") payload <;> rfl

/-- **Property terms.** The operand that is written for a name and an expression is read back as these and
is never malformed. On front matter that is a mapping the answer, before the sign, is this: everything
has a property whose name is blank. A name that is the text of no key, in lower case, is not found, nor
is a key that is no value. Any other key is found where it comes first; a blank expression holds then,
and any other is applied to the value of that first key. -/
theorem termHolds_payload {s : Subject} {fm : Mapping} (hfm : s.get "frontmatter" = .map fm)
    (defaultKey name : String) (expression : Option String) (neg : Bool) :
    Json.parse? (Property.payload name expression)
        = some (.obj
            (("name", .str name) :: (expression.map fun e : String ↦ (("expr" : CodeText), Json.str e)).toList)) ∧
    (∀ payload reason, .malformed payload reason ∉
      Trace.ofTerm defaultKey s ⟨"prop", Property.payload name expression, neg⟩) ∧
    ∃ found : Answer Bool,
      termHolds defaultKey s ⟨"prop", Property.payload name expression, neg⟩ = found.map (· != neg) ∧
      (Text.isBlankText name = true → found = .ok true) ∧
      (Text.isBlankText name = false →
        ((∀ e ∈ fm, e.1.text.lowercase ≠ Text.lowercase (Text.trimmed name)) → found = .ok false) ∧
        ∀ key value, IsFirstNamed fm (Text.lowercase (Text.trimmed name)) key value →
          (key = .null → found = .ok false) ∧
          (key ≠ .null →
            ((∀ e ∈ expression, Text.isBlankText e = true) → found = .ok true) ∧
            ∀ e ∈ expression, Text.isBlankText e = false →
              found = propertyHolds value (Text.trimmed e))) := by
  refine ⟨Property.parse?_payload name expression,
    fun payload reason ↦ Trace.malformed_notMem_ofTerm defaultKey s name expression neg, ?_⟩
  generalize hrequest : Request.mk (Text.lowercase (Text.trimmed name))
    (Text.trimmed (expression.getD "")) = r
  have hname : Text.lowercase (Text.trimmed name) = r.name := by rw [← hrequest]
  have hexpression : Text.trimmed (expression.getD "") = r.expression := by rw [← hrequest]
  have hempty : r.name.isEmpty = Text.isBlankText name := by
    rw [← hname, Text.isEmpty_lowercase, Text.isEmpty_trimmed]
  rw [hname]
  refine ⟨requestHolds (.map fm) r, ?_, fun hblank ↦ ?_, fun hblank ↦ ?_⟩
  · rw [termHolds_prop, hfm, testProperty_payload, hrequest]
  · rw [requestHolds, hempty, hblank]
    rfl
  · have hfilled : r.name.isEmpty = false := hempty.trans hblank
    refine ⟨requestHolds_of_absent hfilled, fun key value hfirst ↦ ⟨?_, fun hkey ↦ ?_⟩⟩
    · rintro rfl
      exact requestHolds_of_null hfilled hfirst
    · rw [requestHolds_of_found hfilled hkey hfirst, ← hexpression, Text.isEmpty_trimmed]
      constructor
      · intro hnone
        cases expression with
        | none => rfl
        | some e => rw [Option.getD_some, hnone e rfl, if_pos rfl]
      · rintro e he hsome
        rw [Option.mem_def.mp he, Option.getD_some, hsome]
        rfl

/-! ### Keys that differ only in case -/

/-- The first of two keys with the same lower case is the one whose value is tested. -/
theorem termHolds_payload_of_colliding_keys :
    (Subject.ofRecord ⟨"n.md", "", none,
      [(.str "Status", .str "Active"), (.str "status", .str "Done")], [], []⟩).get "frontmatter"
        = .map [(.str "Status", .str "Active"), (.str "status", .str "Done")] ∧
    termHolds "content" (.ofRecord ⟨"n.md", "", none,
        [(.str "Status", .str "Active"), (.str "status", .str "Done")], [], []⟩)
      ⟨"prop", Property.payload " STATUS" (some "\"act\""), true⟩ = .ok false := by
  refine ⟨rfl, ?_⟩
  obtain ⟨-, -, found, hterm, -, hnamed⟩ :=
    termHolds_payload (s := .ofRecord ⟨"n.md", "", none,
      [(.str "Status", .str "Active"), (.str "status", .str "Done")], [], []⟩) rfl "content" " STATUS"
      (some "\"act\"") true
  have hfirst : IsFirstNamed [(.str "Status", .str "Active"), (.str "status", .str "Done")]
      (Text.lowercase (Text.trimmed " STATUS")) (.str "Status") (.str "Active") :=
    ⟨[], [(.str "status", .str "Done")], rfl, by cbv, List.forall_mem_nil _⟩
  have hkey : Value.str "Status" ≠ .null := by
    intro h
    cases h
  obtain ⟨-, hfound⟩ := ((hnamed (by decide)).2 _ _ hfirst).2 hkey
  rw [hterm, hfound "\"act\"" rfl (by decide)]
  cbv

/-! ### A key that is no value -/

/-- The text of a key that is no value is a name, but nothing is found under it. -/
theorem not_forall_termHolds_of_isFirstNamed :
    ¬∀ (fm : Mapping) (name : String) (key value : Value), Text.isBlankText name = false →
      IsFirstNamed fm (Text.lowercase (Text.trimmed name)) key value →
        termHolds "content" ⟨[("frontmatter", .map fm)]⟩ ⟨"prop", Property.payload name none, false⟩
          = .ok true := by
  intro h
  have hfirst : IsFirstNamed [(.null, .str "x")] (Text.lowercase (Text.trimmed "none")) .null (.str "x") :=
    ⟨[], [], rfl, by cbv, List.forall_mem_nil _⟩
  have hfalse : termHolds "content" ⟨[("frontmatter", .map [(.null, .str "x")])]⟩
      ⟨"prop", Property.payload "none" none, false⟩ = .ok false := by
    cbv
  have htrue := h _ "none" _ _ (by decide) hfirst
  cases hfalse.symm.trans htrue

end Matching

end NoteQuery
