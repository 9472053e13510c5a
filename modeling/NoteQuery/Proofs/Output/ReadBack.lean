import NoteQuery.Proofs.Json.Texts
import NoteQuery.Proofs.Output.Writers

/-!
# Records as JSON are read back

The front matter of a note may hold dates, bytes, sets and keys of any kind. As JSON it is what is read
from its own text: values that JSON does not know have become texts, keys too, and of keys that have become
one text the first gives the place and the last the value. After this first reading nothing is left that
a further text would change, so a record as JSON is read back from its text.

In a text that is kept to ASCII the code points of a text are written by their codes, and there is no telling
the halves of a character from the character. Front matter may hold the halves side by side, if they are
written by escapes. A record as JSON is read back from such a text exactly if this is not so anywhere in it.

Values are compared as data. So what is no number counts as equal to itself, and the two zeros differ.
-/

namespace NoteQuery

namespace Value

/-- Whether a value is made of what JSON knows: mappings have texts as keys, each once. -/
inductive IsPlainData : Value → Prop
  | null : IsPlainData .null
  | bool (b : Bool) : IsPlainData (.bool b)
  | int (n : Int) : IsPlainData (.int n)
  | float (x : Binary64) : IsPlainData (.float x)
  | str (s : CodeText) : IsPlainData (.str s)
  | list {xs : List Value} (h : ∀ x ∈ xs, IsPlainData x) : IsPlainData (.list xs)
  | map {es : Mapping} (texts : ∀ e ∈ es, ∃ s, e.1 = .str s) (apart : (es.map Prod.fst).Nodup)
    (h : ∀ e ∈ es, IsPlainData e.2) : IsPlainData (.map es)

end Value

namespace Json

theorem toValues_eq_map (xs : List Json) : toValues xs = xs.map toValue := by
  induction xs with
  | nil => rfl
  | cons x xs ih => rw [toValues, ih, List.map_cons]

theorem toEntries_eq_map (es : List (CodeText × Json)) :
    toEntries es = es.map fun e ↦ (.str e.1, e.2.toValue) := by
  induction es with
  | nil => rfl
  | cons e es ih => rw [toEntries, ih, List.map_cons]

theorem IsExact.isPlainData_toValue {j : Json} (h : j.IsExact) : j.toValue.IsPlainData := by
  induction h with
  | null => exact .null
  | bool b => exact .bool b
  | int _ => exact .int _
  | float _ => exact .float _
  | str s => exact .str s
  | arr _ ih =>
    rw [toValue, toValues_eq_map]
    exact .list (List.forall_mem_map.mpr ih)
  | @obj es hkeys _ ih =>
    have htexts : ((es.map Prod.fst).map Value.str).Nodup := hkeys.map fun _ _ ↦ Value.str.inj
    rw [toValue, toEntries_eq_map]
    refine .map (List.forall_mem_map.mpr fun e _ ↦ ⟨e.1, rfl⟩) ?_ (List.forall_mem_map.mpr ih)
    rw [List.map_map] at htexts ⊢
    exact htexts

end Json

namespace Output

/-- The front matter of a record as JSON is what is read from the text of its JSON form. -/
theorem exists_of_recordJson {r : Record} (hr : ∀ e ∈ r.frontmatter, e.2.IsCanonical) {j : Json}
    (h : recordJson r = .ok j) :
    ∃ es fields, Json.ofEntries r.frontmatter = .ok es ∧ j = .obj fields ∧
      fields.lookup ("frontmatter" : CodeText) = Json.parse? ((Json.obj es).spaced false) := by
  rw [recordJson, frontmatterJson] at h
  cases hes : Json.ofEntries r.frontmatter with
  | error fault =>
    rw [hes] at h
    cases h
  | ok es =>
    rw [hes] at h
    refine ⟨es, _, rfl, (Except.ok.inj h).symm, ?_⟩
    rw [Json.parse?_spaced (.obj ((Json.gives_ofEntries hr).value hes)), Json.reread_false]
    rfl

/-- **Records as JSON are closed.** Whatever the front matter of some notes holds, if they have a JSON form
then each of them is read back from its text, is made of what JSON knows, and has as its front matter what
is read from the text of the note's own. From a text that is kept to ASCII it is read back exactly if no text
in it holds the two halves of a character side by side. -/
theorem json_reads_back {records : List Record} (hrecords : ∀ r ∈ records, Writer.IsOfNote r)
    {shown : List Json} (hshown : json records = .ok shown) :
    ∀ j ∈ shown, Json.parse? (j.spaced false) = some j ∧
      (Json.parse? (j.spaced true) = some j ↔ ∀ t ∈ j.texts, t.HasNoPair) ∧ j.toValue.IsPlainData ∧
      ∃ r ∈ records, ∃ es fields, Json.ofEntries r.frontmatter = .ok es ∧ j = .obj fields ∧
        fields.lookup ("frontmatter" : CodeText) = Json.parse? ((Json.obj es).spaced false) := by
  have hcanonical : ∀ r ∈ records, ∀ e ∈ r.frontmatter, e.2.IsCanonical := fun r hr ↦ (hrecords r hr).isCanonical
  have hmade : Gives (json records) (fun shown ↦ ∀ j ∈ shown, ∃ r ∈ records, recordJson r = .ok j)
      fun _ ↦ True := by
    refine Gives.mapM fun r _ ↦ ?_
    cases recordJson r with
    | ok j => exact rfl
    | error fault => exact trivial
  intro j hj
  have hexact : j.IsExact := isExact_of_json hcanonical hshown j hj
  obtain ⟨r, hr, hrecord⟩ := hmade.value hshown j hj
  exact ⟨hexact.parse?_spaced_false, hexact.parse?_spaced_true_iff, hexact.isPlainData_toValue, r, hr,
    exists_of_recordJson (hcanonical r hr) hrecord⟩

/-! ### Two keys with one text -/

/-- The record of a note with a truth value and its text as keys of one mapping. -/
def collidingKeys : Record :=
  ⟨"n.md", "", none, [(.str "m", .map [(.bool true, .str "é"), (.str "true", .date ⟨2024, 2, 3⟩)])], [], []⟩

theorem isOfNote_collidingKeys : Writer.IsOfNote collidingKeys := by
  refine ⟨"n.md", "---\nm:\n yes: é\n 'true': 2024-02-03\n---\n", ⟨collidingKeys, none⟩, ?_, rfl⟩
  have hsplit : Fence.split? "---\nm:\n yes: é\n 'true': 2024-02-03\n---\n".toList
      = some ("m:\n yes: é\n 'true': 2024-02-03".toList, []) := by cbv
  have hparse : Yaml.parse "m:\n yes: é\n 'true': 2024-02-03".toList = .ok (.map collidingKeys.frontmatter) := by cbv
  have hfrontmatter : Frontmatter.ofText "---\nm:\n yes: é\n 'true': 2024-02-03\n---\n"
      = .ok ⟨collidingKeys.frontmatter, "", none⟩ := by
    rw [Frontmatter.ofText, hsplit]
    dsimp only
    rw [hparse]
    cbv
  rw [Note.read, hfrontmatter]
  cbv

/-- The record as JSON has one entry for the two keys, with the date as a text. -/
def collidingJson : Json :=
  .obj [("path", .str "n.md"), ("title", .str "n"), ("tags", .arr []), ("references", .arr []),
    ("frontmatter", .obj [("m", .obj [("true", .str "2024-02-03")])])]

/-- The truth value gives the key its place and the text gives it its value; what comes of them is read back. -/
theorem json_reads_back_of_colliding_keys :
    json [collidingKeys] = .ok [collidingJson] ∧
      Json.parse? (collidingJson.spaced true) = some collidingJson ∧ collidingJson.toValue.IsPlainData := by
  have hshown : json [collidingKeys] = .ok [collidingJson] := by cbv
  have hrecords : ∀ r ∈ [collidingKeys], Writer.IsOfNote r :=
    List.forall_mem_singleton.mpr isOfNote_collidingKeys
  obtain ⟨-, hread, hplain, -⟩ := json_reads_back hrecords hshown collidingJson List.mem_cons_self
  refine ⟨hshown, hread.mpr ?_, hplain⟩
  simp [collidingJson, Json.texts, Json.textsOfEntries, Json.textsOfItems, CodeText.hasNoPair_ofString]

/-! ### The two halves of a character -/

/-- The record of a note with a text of two halves that belong together. -/
def halved : Record := ⟨"n.md", "", none, [(.str "a", .str ⟨[.half 61, .half 1536]⟩)], [], []⟩

theorem isOfNote_halved : Writer.IsOfNote halved := by
  refine ⟨"n.md", "---\na: \"\\ud83d\\ude00\"\n---\n", ⟨halved, none⟩, ?_, rfl⟩
  have hsplit : Fence.split? "---\na: \"\\ud83d\\ude00\"\n---\n".toList
      = some ("a: \"\\ud83d\\ude00\"".toList, []) := by cbv
  have hparse : Yaml.parse "a: \"\\ud83d\\ude00\"".toList = .ok (.map halved.frontmatter) := by cbv
  have hfrontmatter : Frontmatter.ofText "---\na: \"\\ud83d\\ude00\"\n---\n"
      = .ok ⟨halved.frontmatter, "", none⟩ := by
    rw [Frontmatter.ofText, hsplit]
    dsimp only
    rw [hparse]
    cbv
  rw [Note.read, hfrontmatter]
  cbv

/-- The record as JSON still has the two halves. -/
def halvedJson : Json :=
  .obj [("path", .str "n.md"), ("title", .str "n"), ("tags", .arr []), ("references", .arr []),
    ("frontmatter", .obj [("a", .str ⟨[.half 61, .half 1536]⟩)])]

/-- From a text that is kept to ASCII the two halves are read as one character. -/
theorem not_forall_reads_back_from_ascii :
    ¬∀ records : List Record, (∀ r ∈ records, Writer.IsOfNote r) → ∀ shown, json records = .ok shown →
      ∀ j ∈ shown, Json.parse? (j.spaced true) = some j := by
  intro h
  have hshown : json [halved] = .ok [halvedJson] := by cbv
  have hnotes : ∀ r ∈ [halved], Writer.IsOfNote r := List.forall_mem_singleton.mpr isOfNote_halved
  have hexact : halvedJson.IsExact :=
    isExact_of_json (fun r hr ↦ (hnotes r hr).isCanonical) hshown halvedJson List.mem_cons_self
  have hread := h [halved] hnotes _ hshown halvedJson List.mem_cons_self
  have hpair : CodeText.HasNoPair ⟨[.half 61, .half 1536]⟩ :=
    hexact.parse?_spaced_true_iff.mp hread _ (by simp [halvedJson, Json.texts, Json.textsOfEntries])
  cases (List.isChain_cons_cons.mp hpair).1

end Output

end NoteQuery
