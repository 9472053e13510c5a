import NoteQuery.Proofs.Json.Objects

/-!
# The texts of a value

Keys are texts too. Keeping one entry a key brings no new texts into a value. The indented layout takes every
text over as it is, so it holds a half of a character exactly if one of the texts does.
-/

namespace NoteQuery.Json

open CodePoint (char)

mutual

/-- The texts in a value, keys among them. -/
def texts : Json → List CodeText
  | .str s => [s]
  | .arr xs => textsOfItems xs
  | .obj es => textsOfEntries es
  | _ => []

/-- The texts in the items of an array. -/
def textsOfItems : List Json → List CodeText
  | [] => []
  | x :: xs => texts x ++ textsOfItems xs

/-- The texts in the entries of an object. -/
def textsOfEntries : List (CodeText × Json) → List CodeText
  | [] => []
  | (k, v) :: es => k :: texts v ++ textsOfEntries es

end

theorem textsOfItems_eq_flatMap (xs : List Json) : textsOfItems xs = xs.flatMap texts := by
  induction xs with
  | nil => rfl
  | cons x xs ih => rw [textsOfItems, ih, List.flatMap_cons]

theorem textsOfEntries_eq_flatMap (es : List (CodeText × Json)) :
    textsOfEntries es = es.flatMap fun e ↦ e.1 :: e.2.texts := by
  induction es with
  | nil => rfl
  | cons e es ih => rw [textsOfEntries, ih, List.flatMap_cons]

/-! ## One entry a key -/

theorem insertEntry_subset (es : List (CodeText × Json)) (key : CodeText) (value : Json) :
    insertEntry es key value ⊆ (key, value) :: es := by
  induction es with
  | nil => exact fun _ h ↦ h
  | cons e es ih =>
    obtain ⟨k, v⟩ := e
    rw [insertEntry]
    split
    · next hkey =>
      rw [hkey]
      exact List.cons_subset_cons _ (List.subset_cons_self _ es)
    · exact List.cons_subset.mpr ⟨List.mem_cons_of_mem _ List.mem_cons_self,
        List.Subset.trans ih (List.cons_subset_cons _ (List.subset_cons_self _ es))⟩

theorem mergeEntries_subset (es : List (CodeText × Json)) : mergeEntries es ⊆ es := by
  have hfold : ∀ before : List (CodeText × Json),
      es.foldl (fun es entry ↦ insertEntry es entry.1 entry.2) before ⊆ before ++ es := by
    induction es with
    | nil => exact fun before ↦ List.subset_append_left before []
    | cons e es ih =>
      refine fun before ↦ List.Subset.trans (ih _) (List.append_subset.mpr ⟨?_, ?_⟩)
      · exact List.Subset.trans (insertEntry_subset before e.1 e.2) (List.cons_subset.mpr
          ⟨List.mem_append_right _ List.mem_cons_self, List.subset_append_left _ _⟩)
      · exact List.Subset.trans (List.subset_cons_self e es) (List.subset_append_right _ _)
  exact hfold []

mutual

theorem texts_normal_subset (j : Json) : j.normal.texts ⊆ j.texts := by
  cases j with
  | arr xs => exact textsOfItems_normals_subset xs
  | obj es =>
    refine List.Subset.trans (fun t ht ↦ ?_) (textsOfEntries_normalEntries_subset es)
    rw [normal, texts, textsOfEntries_eq_flatMap] at ht
    obtain ⟨e, he, ht⟩ := List.mem_flatMap.mp ht
    rw [textsOfEntries_eq_flatMap]
    exact List.mem_flatMap.mpr ⟨e, mergeEntries_subset _ he, ht⟩
  | _ => exact List.Subset.refl _

theorem textsOfItems_normals_subset (xs : List Json) : textsOfItems (normals xs) ⊆ textsOfItems xs := by
  cases xs with
  | nil => exact List.Subset.refl _
  | cons x xs =>
    rw [normals, textsOfItems, textsOfItems]
    exact List.append_subset.mpr ⟨List.subset_append_of_subset_left _ (texts_normal_subset x),
      List.subset_append_of_subset_right _ (textsOfItems_normals_subset xs)⟩

theorem textsOfEntries_normalEntries_subset (es : List (CodeText × Json)) :
    textsOfEntries (normalEntries es) ⊆ textsOfEntries es := by
  cases es with
  | nil => exact List.Subset.refl _
  | cons e es =>
    obtain ⟨k, v⟩ := e
    rw [normalEntries, textsOfEntries, textsOfEntries]
    refine List.cons_subset_cons k (List.append_subset.mpr ⟨?_, ?_⟩)
    · exact List.subset_append_of_subset_left _ (texts_normal_subset v)
    · exact List.subset_append_of_subset_right _ (textsOfEntries_normalEntries_subset es)

end

/-! ## Halves in the indented layout -/

theorem all_isChar_map_char (cs : List Char) : (cs.map char).all CodePoint.isChar = true :=
  List.all_eq_true.mpr (List.forall_mem_map.mpr fun _ _ ↦ rfl)

theorem all_isChar_quoteCodes (t : CodeText) : (quoteCodes t).all CodePoint.isChar = t.isWhole := by
  have hcodes : (t.codes.flatMap escapeCode).all CodePoint.isChar = t.isWhole := by
    rw [List.all_flatMap, CodeText.isWhole]
    refine congrArg t.codes.all (funext fun p ↦ ?_)
    cases p with
    | char c => exact all_isChar_map_char _
    | half d => rfl
  rw [quoteCodes, List.all_append, List.all_cons, hcodes]
  exact Bool.and_true _

theorem all_isChar_newLine (depth : Nat) : (newLine depth).all CodePoint.isChar = true :=
  List.all_eq_true.mpr (List.forall_mem_cons.mpr
    ⟨rfl, fun _ hp ↦ List.eq_of_mem_replicate hp ▸ rfl⟩)

mutual

theorem all_isChar_indentedCodes (depth : Nat) (j : Json) :
    (indentedCodes depth j).all CodePoint.isChar = j.texts.all CodeText.isWhole := by
  cases j with
  | null => rfl
  | bool b => cases b <;> rfl
  | int n => exact all_isChar_map_char _
  | float x => exact all_isChar_map_char _
  | str s => exact (all_isChar_quoteCodes s).trans (Bool.and_true _).symm
  | arr xs =>
    cases xs with
    | nil => rfl
    | cons x xs =>
      simp only [indentedCodes, texts, textsOfItems, List.all_append, List.all_cons, all_isChar_newLine,
        all_isChar_indentedCodes (depth + 1) x, all_isChar_indentedItems (depth + 1) xs]
      simp [CodePoint.isChar]
  | obj es =>
    cases es with
    | nil => rfl
    | cons e es =>
      obtain ⟨k, v⟩ := e
      simp only [indentedCodes, texts, textsOfEntries, List.all_append, List.all_cons, all_isChar_newLine,
        all_isChar_quoteCodes, all_isChar_indentedCodes (depth + 1) v, all_isChar_indentedEntries (depth + 1) es]
      simp [CodePoint.isChar, Bool.and_assoc]

theorem all_isChar_indentedItems (depth : Nat) (xs : List Json) :
    (indentedItems depth xs).all CodePoint.isChar = (textsOfItems xs).all CodeText.isWhole := by
  cases xs with
  | nil => rfl
  | cons x xs =>
    simp only [indentedItems, textsOfItems, List.all_append, List.all_cons, all_isChar_newLine,
      all_isChar_indentedCodes depth x, all_isChar_indentedItems depth xs]
    simp [CodePoint.isChar]

theorem all_isChar_indentedEntries (depth : Nat) (es : List (CodeText × Json)) :
    (indentedEntries depth es).all CodePoint.isChar = (textsOfEntries es).all CodeText.isWhole := by
  cases es with
  | nil => rfl
  | cons e es =>
    obtain ⟨k, v⟩ := e
    simp only [indentedEntries, textsOfEntries, List.all_append, List.all_cons, all_isChar_newLine,
      all_isChar_quoteCodes, all_isChar_indentedCodes depth v, all_isChar_indentedEntries depth es]
    simp [CodePoint.isChar, Bool.and_assoc]

end

/-- The indented text of a value is whole exactly if every text in the value is. -/
theorem isWhole_indented_iff {j : Json} : j.indented.isWhole = true ↔ ∀ t ∈ j.texts, t.isWhole = true := by
  rw [← List.all_eq_true, ← all_isChar_indentedCodes 0]
  rfl

end NoteQuery.Json
