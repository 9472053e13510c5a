import Mathlib.Data.List.Nodup
import NoteQuery.Proofs.Json.Strings

/-!
# Objects in JSON

An object in the compact layout is read back if its values are and no key is repeated. What is asked of a
value is that it is read wherever it stands, whatever follows it: then the reader of entries goes from
comma to comma, and stops at the brace that closes the object.
-/

namespace NoteQuery.Json

open CodePoint (char)

/-- Whether a text is read as a value wherever it stands, in as many steps as it has characters. -/
def ReadsAs (cs : List CodePoint) (j : Json) : Prop :=
  ∀ fuel rest, cs.length ≤ fuel → readValue fuel (cs ++ rest) = some (j, rest)

/-! ## Blanks -/

theorem skipSpace_cons_of_not_isSpace {c : Char} (h : isSpace c = false) (cs : List CodePoint) :
    skipSpace (char c :: cs) = char c :: cs :=
  List.dropWhile_cons_of_neg (ne_true_of_eq_false h)

theorem skipSpace_of_readValue {fuel : Nat} {cs : List CodePoint} {r : Json × List CodePoint}
    (h : readValue fuel cs = some r) : skipSpace cs = cs := by
  match cs with
  | [] => rfl
  | .half d :: cs => rfl
  | .char c :: cs =>
    refine skipSpace_cons_of_not_isSpace (Bool.eq_false_iff.mpr fun hspace ↦ ?_) cs
    cases fuel with
    | zero => cases h
    | succ fuel =>
      simp only [isSpace, Bool.or_eq_true, beq_iff_eq] at hspace
      rcases hspace with ((rfl | rfl) | rfl) | rfl
      all_goals cases h

theorem parse?_of_readValue {cs : List CodePoint} {j : Json}
    (h : readValue (2 * cs.length + 2) cs = some (j, [])) : parse? ⟨cs⟩ = some j := by
  rw [parse?]
  simp only [skipSpace_of_readValue h, h]
  rfl

theorem ReadsAs.readValue_skipSpace {cs : List CodePoint} {j : Json} (h : ReadsAs cs j) {fuel : Nat}
    (hfuel : cs.length ≤ fuel) (rest : List CodePoint) :
    readValue fuel (skipSpace (cs ++ rest)) = some (j, rest) := by
  rw [skipSpace_of_readValue (h fuel rest hfuel), h fuel rest hfuel]

/-! ## Strings -/

theorem quoteCodes_append (t : CodeText) (rest : List CodePoint) :
    quoteCodes t ++ rest = char '"' :: (t.codes.flatMap escapeCode ++ char '"' :: rest) := by
  rw [quoteCodes, List.append_assoc, List.cons_append, List.singleton_append]

theorem readsAs_str (s : CodeText) : ReadsAs (compactCodes (.str s)) (.str s) := by
  intro fuel rest hfuel
  rw [compactCodes] at hfuel ⊢
  cases fuel with
  | zero => exact absurd hfuel (by simp [quoteCodes])
  | succ fuel =>
    rw [quoteCodes_append, readValue, readString_flatMap_escapeCode]
    rfl

/-! ## Entries -/

section

variable {cs after : List CodePoint} {v : Json} {fuel : Nat} (h : readValue fuel (skipSpace cs) = some (v, after))
include h

section

variable {key : List CodePoint} {k : CodeText} (hkey : readString key = some (k, char ':' :: cs))
include hkey

theorem readEntries_last_of_readString {rest : List CodePoint} (hafter : skipSpace after = char '\x7d' :: rest) :
    readEntries (fuel + 1) (char '"' :: key) = some ([(k, v)], rest) := by
  rw [readEntries, hkey]
  simp only [skipSpace_cons_of_not_isSpace (show isSpace ':' = false from rfl), h, hafter]

theorem readEntries_more_of_readString {more : List CodePoint} (hafter : skipSpace after = char ',' :: more) :
    readEntries (fuel + 1) (char '"' :: key)
      = (readEntries fuel (skipSpace more)).map fun r ↦ ((k, v) :: r.1, r.2) := by
  rw [readEntries, hkey]
  simp only [skipSpace_cons_of_not_isSpace (show isSpace ':' = false from rfl), h, hafter]

end

theorem readEntries_last (k : CodeText) {rest : List CodePoint} (hafter : skipSpace after = char '\x7d' :: rest) :
    readEntries (fuel + 1) (quoteCodes k ++ char ':' :: cs) = some ([(k, v)], rest) := by
  rw [quoteCodes_append]
  exact readEntries_last_of_readString h (readString_flatMap_escapeCode k _) hafter

theorem readEntries_more (k : CodeText) {more : List CodePoint} (hafter : skipSpace after = char ',' :: more) :
    readEntries (fuel + 1) (quoteCodes k ++ char ':' :: cs)
      = (readEntries fuel (skipSpace more)).map fun r ↦ ((k, v) :: r.1, r.2) := by
  rw [quoteCodes_append]
  exact readEntries_more_of_readString h (readString_flatMap_escapeCode k _) hafter

end

theorem readValue_brace {cs after : List CodePoint} {es : List (CodeText × Json)} {fuel : Nat}
    (h : readEntries fuel (skipSpace cs) = some (es, after)) :
    readValue (fuel + 1) (char '\x7b' :: cs) = some (.obj (mergeEntries es), after) := by
  rw [readValue]
  split
  · rename_i hclosed
    -- no entry begins with a brace
    rw [hclosed] at h
    cases fuel <;> cases h
  · rw [h]
    rfl

theorem exists_compactEntries_eq_cons {es : List (CodeText × Json)} (hne : es ≠ []) :
    ∃ cs, compactEntries es = char '"' :: cs := by
  match es, hne with
  | [(k, v)], _ => exact ⟨_, rfl⟩
  | (k, v) :: e :: es, _ => exact ⟨_, rfl⟩

theorem readEntries_compactEntries {es : List (CodeText × Json)} (hne : es ≠ [])
    (hvalues : ∀ e ∈ es, ReadsAs (compactCodes e.2) e.2) {fuel : Nat}
    (hfuel : (compactEntries es).length < fuel) (rest : List CodePoint) :
    readEntries fuel (compactEntries es ++ char '\x7d' :: rest) = some (es, rest) := by
  induction es generalizing fuel with
  | nil => exact absurd rfl hne
  | cons e es ih =>
    obtain ⟨k, v⟩ := e
    have hvalue : ReadsAs (compactCodes v) v := hvalues _ List.mem_cons_self
    obtain ⟨fuel, rfl⟩ : ∃ n, fuel = n + 1 := ⟨fuel - 1, by omega⟩
    cases es with
    | nil =>
      rw [compactEntries, List.length_append, List.length_cons] at hfuel
      rw [compactEntries, List.append_assoc, List.cons_append]
      exact readEntries_last (hvalue.readValue_skipSpace (by omega) _) k rfl
    | cons e es =>
      have hcons : e :: es ≠ [] := List.cons_ne_nil e es
      rw [compactEntries, List.length_append, List.length_append, List.length_cons,
        List.length_cons] at hfuel
      rw [compactEntries, List.append_assoc, List.append_assoc, List.cons_append, List.cons_append,
        readEntries_more (hvalue.readValue_skipSpace (by omega) _) k rfl]
      have hlt : (compactEntries (e :: es)).length < fuel := by omega
      have hmore := ih hcons (fun e he ↦ hvalues e (List.mem_cons_of_mem _ he)) hlt
      -- the entries after the comma begin with a quote, so no blank is skipped
      obtain ⟨cs, hcs⟩ := exists_compactEntries_eq_cons hcons
      rw [hcs] at hmore ⊢
      exact congrArg (Option.map _) hmore

/-! ## One entry a key -/

theorem insertEntry_of_notMem {es : List (CodeText × Json)} {key : CodeText} (h : key ∉ es.map Prod.fst)
    (value : Json) : insertEntry es key value = es ++ [(key, value)] := by
  induction es with
  | nil => rfl
  | cons e es ih =>
    obtain ⟨k, v⟩ := e
    obtain ⟨hkey, h⟩ := not_or.mp (mt List.mem_cons.mpr h)
    rw [insertEntry, if_neg (Ne.symm hkey), ih h, List.cons_append]

/-- Entries with distinct keys stay as they are when they are put in one after the other. -/
theorem mergeEntries_of_nodup {es : List (CodeText × Json)} (h : (es.map Prod.fst).Nodup) :
    mergeEntries es = es := by
  -- the entries that are in already are on the left of those that are still to come
  have hfold : ∀ before : List (CodeText × Json), ((before ++ es).map Prod.fst).Nodup →
      es.foldl (fun es entry ↦ insertEntry es entry.1 entry.2) before = before ++ es := by
    clear h
    induction es with
    | nil => exact fun before _ ↦ (List.append_nil before).symm
    | cons e es ih =>
      intro before h
      have hkey : e.1 ∉ before.map Prod.fst := by
        rw [List.map_append, List.map_cons] at h
        exact fun hmem ↦ List.disjoint_of_nodup_append h hmem List.mem_cons_self
      rw [List.append_cons] at h
      rw [List.foldl_cons, insertEntry_of_notMem hkey, ih _ h, ← List.append_cons]
  exact hfold [] h

/-- Putting an entry in under a key that is there leaves the keys as they are. -/
theorem keys_insertEntry_of_mem {es : List (CodeText × Json)} {key : CodeText} (h : key ∈ es.map Prod.fst)
    (value : Json) : (insertEntry es key value).map Prod.fst = es.map Prod.fst := by
  induction es with
  | nil => cases h
  | cons e es ih =>
    obtain ⟨k, v⟩ := e
    rw [insertEntry]
    split
    · rfl
    · rename_i hne
      have hmem : key ∈ es.map Prod.fst := (List.mem_cons.mp h).resolve_left (Ne.symm hne)
      rw [List.map_cons, List.map_cons, ih hmem]

theorem nodup_keys_insertEntry {es : List (CodeText × Json)} (h : (es.map Prod.fst).Nodup) (key : CodeText)
    (value : Json) : ((insertEntry es key value).map Prod.fst).Nodup := by
  by_cases hmem : key ∈ es.map Prod.fst
  · rw [keys_insertEntry_of_mem hmem]
    exact h
  · rw [insertEntry_of_notMem hmem, List.map_append]
    exact h.append (List.nodup_singleton key) (List.disjoint_singleton.mpr hmem)

theorem forall_insertEntry {P : Json → Prop} {es : List (CodeText × Json)} (h : ∀ e ∈ es, P e.2) (key : CodeText)
    {value : Json} (hvalue : P value) : ∀ e ∈ insertEntry es key value, P e.2 := by
  induction es with
  | nil => exact List.forall_mem_singleton.mpr hvalue
  | cons e es ih =>
    obtain ⟨k, v⟩ := e
    obtain ⟨hv, h⟩ := List.forall_mem_cons.mp h
    rw [insertEntry]
    split
    · exact List.forall_mem_cons.mpr ⟨hvalue, h⟩
    · exact List.forall_mem_cons.mpr ⟨hv, ih h⟩

/-- Entries that are put in one after the other have distinct keys, and no values but their own. -/
theorem nodup_and_forall_mergeEntries {P : Json → Prop} {es : List (CodeText × Json)} (h : ∀ e ∈ es, P e.2) :
    ((mergeEntries es).map Prod.fst).Nodup ∧ ∀ e ∈ mergeEntries es, P e.2 := by
  have hfold : ∀ before : List (CodeText × Json), (before.map Prod.fst).Nodup → (∀ e ∈ before, P e.2) →
      ((es.foldl (fun es entry ↦ insertEntry es entry.1 entry.2) before).map Prod.fst).Nodup ∧
        ∀ e ∈ es.foldl (fun es entry ↦ insertEntry es entry.1 entry.2) before, P e.2 := by
    induction es with
    | nil => exact fun before hkeys hvalues ↦ ⟨hkeys, hvalues⟩
    | cons e es ih =>
      intro before hkeys hvalues
      obtain ⟨he, h⟩ := List.forall_mem_cons.mp h
      exact ih h _ (nodup_keys_insertEntry hkeys e.1 e.2) (forall_insertEntry hvalues e.1 he)
  exact hfold [] List.nodup_nil (fun e he ↦ nomatch he)

/-! ## Objects -/

theorem readsAs_obj {es : List (CodeText × Json)} (hvalues : ∀ e ∈ es, ReadsAs (compactCodes e.2) e.2)
    (hkeys : (es.map Prod.fst).Nodup) : ReadsAs (compactCodes (.obj es)) (.obj es) := by
  intro fuel rest hfuel
  rw [compactCodes, List.length_append, List.length_cons, List.length_singleton] at hfuel
  rw [compactCodes, List.append_assoc, List.singleton_append, List.cons_append]
  obtain ⟨fuel, rfl⟩ : ∃ n, fuel = n + 1 := ⟨fuel - 1, by omega⟩
  by_cases hne : es = []
  · rw [hne]
    rfl
  · have hlt : (compactEntries es).length < fuel := by omega
    have hread := readEntries_compactEntries hne hvalues hlt rest
    obtain ⟨cs, hcs⟩ := exists_compactEntries_eq_cons hne
    rw [hcs] at hread ⊢
    rw [readValue_brace hread, mergeEntries_of_nodup hkeys]

/-- **The compact layout is read back.** A value whose compact text is read wherever it stands is what
that text alone is. -/
theorem parse?_compact {j : Json} (h : ReadsAs (compactCodes j) j) : parse? j.compact = some j := by
  have hread := h (2 * (compactCodes j).length + 2) [] (by omega)
  rw [List.append_nil] at hread
  exact parse?_of_readValue hread

end NoteQuery.Json
