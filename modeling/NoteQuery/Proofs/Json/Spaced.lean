import NoteQuery.Proofs.Json.Indented
import NoteQuery.Proofs.Json.Texts

/-!
# The spaced layout

The spaced text of any value is read, whether it is kept to ASCII or not, if its numbers can be told from
their text. What is read has one entry a key: an object that repeats a key is read with the place of the
first and the value of the last. In a text that is kept to ASCII halves that belong together are read as one
character, in a key as well, so keys may fall together that were two. So a value with one entry a key at every
depth is read back as it is from a text that is not kept to ASCII, and from one that is exactly if it holds no
such halves.
-/

namespace NoteQuery.Json

open CodePoint (char)

/-- Whether the numbers of a value can be told from its text. -/
inductive IsLegible : Json → Prop
  | null : IsLegible .null
  | bool (b : Bool) : IsLegible (.bool b)
  /-- An integer has no more digits than are read. -/
  | int {n : Int} (h : (Nat.toDigits 10 n.natAbs).length ≤ Number.mostDigits) : IsLegible (.int n)
  | float {x : Binary64} (h : x.IsCanonical) : IsLegible (.float x)
  | str (s : CodeText) : IsLegible (.str s)
  | arr {xs : List Json} (h : ∀ x ∈ xs, IsLegible x) : IsLegible (.arr xs)
  /-- Keys may be repeated. -/
  | obj {es : List (CodeText × Json)} (h : ∀ e ∈ es, IsLegible e.2) : IsLegible (.obj es)

/-! ## One entry a key -/

theorem normals_eq_map (xs : List Json) : normals xs = xs.map normal := by
  induction xs with
  | nil => rfl
  | cons x xs ih => rw [normals, ih, List.map_cons]

theorem normalEntries_eq_map (es : List (CodeText × Json)) :
    normalEntries es = es.map fun e ↦ (e.1, e.2.normal) := by
  induction es with
  | nil => rfl
  | cons e es ih => rw [normalEntries, ih, List.map_cons]

theorem isExact_obj_mergeEntries {es : List (CodeText × Json)} (h : ∀ e ∈ es, e.2.IsExact) :
    (Json.obj (mergeEntries es)).IsExact :=
  .obj (nodup_and_forall_mergeEntries h).1 (nodup_and_forall_mergeEntries h).2

theorem IsLegible.isExact_normal {j : Json} (h : j.IsLegible) : j.normal.IsExact := by
  induction h with
  | null => exact .null
  | bool b => exact .bool b
  | int h => exact .int h
  | float h => exact .float h
  | str s => exact .str s
  | arr _ ih =>
    rw [normal, normals_eq_map]
    exact .arr (List.forall_mem_map.mpr ih)
  | obj _ ih =>
    rw [normal, normalEntries_eq_map]
    exact isExact_obj_mergeEntries (List.forall_mem_map.mpr ih)

theorem IsExact.isLegible {j : Json} (h : j.IsExact) : j.IsLegible := by
  induction h with
  | null => exact .null
  | bool b => exact .bool b
  | int h => exact .int h
  | float h => exact .float h
  | str s => exact .str s
  | arr _ ih => exact .arr ih
  | obj _ _ ih => exact .obj ih

theorem IsExact.normal_eq {j : Json} (h : j.IsExact) : j.normal = j := by
  induction h with
  | arr _ ih =>
    rw [normal, normals_eq_map, List.map_congr_left ih, List.map_id']
  | obj hkeys _ ih =>
    have hentries : ∀ e ∈ _, (fun e : CodeText × Json ↦ (e.1, e.2.normal)) e = id e :=
      fun e he ↦ Prod.ext rfl (ih e he)
    rw [normal, normalEntries_eq_map, List.map_congr_left hentries, List.map_id, mergeEntries_of_nodup hkeys]
  | _ => rfl

/-! ## Texts that are joined -/

mutual

/-- What the spaced text of a value is read as, apart from repeated keys. -/
def reread (ascii : Bool) : Json → Json
  | .str s => .str (rereadText ascii s)
  | .arr xs => .arr (rereadItems ascii xs)
  | .obj es => .obj (rereadEntries ascii es)
  | j => j

/-- What the items of an array are read as. -/
def rereadItems (ascii : Bool) : List Json → List Json
  | [] => []
  | x :: xs => reread ascii x :: rereadItems ascii xs

/-- What the entries of an object are read as, apart from repeated keys. -/
def rereadEntries (ascii : Bool) : List (CodeText × Json) → List (CodeText × Json)
  | [] => []
  | (k, v) :: es => (rereadText ascii k, reread ascii v) :: rereadEntries ascii es

end

mutual

theorem reread_false (j : Json) : reread false j = j := by
  cases j with
  | str s => rfl
  | arr xs => exact congrArg Json.arr (rereadItems_false xs)
  | obj es => exact congrArg Json.obj (rereadEntries_false es)
  | _ => rfl

theorem rereadItems_false (xs : List Json) : rereadItems false xs = xs := by
  cases xs with
  | nil => rfl
  | cons x xs => rw [rereadItems, reread_false x, rereadItems_false xs]

theorem rereadEntries_false (es : List (CodeText × Json)) : rereadEntries false es = es := by
  cases es with
  | nil => rfl
  | cons e es =>
    obtain ⟨k, v⟩ := e
    rw [rereadEntries, reread_false v, rereadEntries_false es]
    rfl

end

mutual

theorem reread_true_of_hasNoPair {j : Json} (h : ∀ t ∈ j.texts, t.HasNoPair) : reread true j = j := by
  cases j with
  | str s => exact congrArg Json.str (CodeText.joined_eq_iff.mpr (h s List.mem_cons_self))
  | arr xs => exact congrArg Json.arr (rereadItems_true_of_hasNoPair h)
  | obj es => exact congrArg Json.obj (rereadEntries_true_of_hasNoPair h)
  | _ => rfl

theorem rereadItems_true_of_hasNoPair {xs : List Json} (h : ∀ t ∈ textsOfItems xs, t.HasNoPair) :
    rereadItems true xs = xs := by
  cases xs with
  | nil => rfl
  | cons x xs =>
    obtain ⟨hx, hxs⟩ := List.forall_mem_append.mp h
    rw [rereadItems, reread_true_of_hasNoPair hx, rereadItems_true_of_hasNoPair hxs]

theorem rereadEntries_true_of_hasNoPair {es : List (CodeText × Json)} (h : ∀ t ∈ textsOfEntries es, t.HasNoPair) :
    rereadEntries true es = es := by
  cases es with
  | nil => rfl
  | cons e es =>
    obtain ⟨k, v⟩ := e
    obtain ⟨hk, h⟩ := List.forall_mem_cons.mp h
    obtain ⟨hv, hes⟩ := List.forall_mem_append.mp h
    rw [rereadEntries, reread_true_of_hasNoPair hv, rereadEntries_true_of_hasNoPair hes]
    exact congrArg (fun t ↦ (t, v) :: es) (CodeText.joined_eq_iff.mpr hk)

end

mutual

theorem hasNoPair_of_mem_texts_reread (j : Json) : ∀ t ∈ (reread true j).texts, t.HasNoPair := by
  cases j with
  | str s => exact List.forall_mem_singleton.mpr s.hasNoPair_joined
  | arr xs => exact hasNoPair_of_mem_textsOfItems xs
  | obj es => exact hasNoPair_of_mem_textsOfEntries es
  | _ => exact nofun

theorem hasNoPair_of_mem_textsOfItems (xs : List Json) :
    ∀ t ∈ textsOfItems (rereadItems true xs), t.HasNoPair := by
  cases xs with
  | nil => exact nofun
  | cons x xs =>
    exact List.forall_mem_append.mpr ⟨hasNoPair_of_mem_texts_reread x, hasNoPair_of_mem_textsOfItems xs⟩

theorem hasNoPair_of_mem_textsOfEntries (es : List (CodeText × Json)) :
    ∀ t ∈ textsOfEntries (rereadEntries true es), t.HasNoPair := by
  cases es with
  | nil => exact nofun
  | cons e es =>
    obtain ⟨k, v⟩ := e
    exact List.forall_mem_cons.mpr ⟨k.hasNoPair_joined,
      List.forall_mem_append.mpr ⟨hasNoPair_of_mem_texts_reread v, hasNoPair_of_mem_textsOfEntries es⟩⟩

end

/-! ## What follows a value -/

theorem endsLeaf_bracket (rest : List CodePoint) : EndsLeaf (char ']' :: rest) := rfl

theorem endsLeaf_brace (rest : List CodePoint) : EndsLeaf (char '\x7d' :: rest) := rfl

/-! ## Strings -/

section

variable (ascii : Bool)

theorem quoteWithin_append (t : CodeText) (rest : List CodePoint) :
    quoteWithin ascii t ++ rest = char '"' :: (t.codes.flatMap (escapeWithin ascii) ++ char '"' :: rest) := by
  rw [quoteWithin, List.append_assoc, List.cons_append, List.singleton_append]

theorem readsUpTo_quoteWithin (t : CodeText) : ReadsUpTo (quoteWithin ascii t) (.str (rereadText ascii t)) := by
  intro fuel rest hfuel _
  cases fuel with
  | zero => exact absurd hfuel (by simp [quoteWithin])
  | succ fuel =>
    rw [quoteWithin_append, readValue, readString_flatMap]
    rfl

end

/-! ## Arrays -/

section

variable {ascii : Bool}

/-- Items with commas between them are read up to the bracket that closes the array. -/
theorem readItems_spacedItems {xs : List Json} (hne : xs ≠ [])
    (hvalues : ∀ x ∈ xs, ReadsUpTo (spacedCodes ascii x) (reread ascii x).normal) (fuel : Nat)
    (hfuel : (spacedItems ascii xs).length < fuel) (rest : List CodePoint) :
    readItems fuel (spacedItems ascii xs ++ char ']' :: rest) = some (normals (rereadItems ascii xs), rest) := by
  induction xs generalizing fuel with
  | nil => exact absurd rfl hne
  | cons x xs ih =>
    obtain ⟨hvalue, hvalues⟩ := List.forall_mem_cons.mp hvalues
    obtain ⟨fuel, rfl⟩ : ∃ n, fuel = n + 1 := ⟨fuel - 1, by omega⟩
    cases xs with
    | nil =>
      rw [spacedItems] at hfuel ⊢
      exact readItems_last (hvalue fuel _ (by omega) (endsLeaf_bracket rest)) rfl
    | cons y xs =>
      rw [spacedItems, List.length_append, List.length_cons, List.length_cons] at hfuel
      have hmore := ih (List.cons_ne_nil y xs) hvalues fuel (by omega)
      rw [spacedItems, List.append_assoc, List.cons_append, List.cons_append,
        readItems_more (hvalue fuel _ (by omega) (endsLeaf_comma _)) rfl]
      -- the blank behind the comma is skipped, and no item begins with another
      change (readItems fuel (skipSpace (spacedItems ascii (y :: xs) ++ char ']' :: rest))).map _ = _
      rw [skipSpace_of_readItems hmore, hmore]
      rfl

theorem readsUpTo_spaced_arr {xs : List Json}
    (hvalues : ∀ x ∈ xs, ReadsUpTo (spacedCodes ascii x) (reread ascii x).normal) :
    ReadsUpTo (spacedCodes ascii (.arr xs)) (reread ascii (.arr xs)).normal := by
  intro fuel rest hfuel _
  rw [spacedCodes, List.length_append, List.length_cons, List.length_singleton] at hfuel
  rw [spacedCodes, List.append_assoc, List.singleton_append, List.cons_append, reread, normal]
  obtain ⟨fuel, rfl⟩ : ∃ n, fuel = n + 1 := ⟨fuel - 1, by omega⟩
  by_cases hne : xs = []
  · rw [hne]
    rfl
  · have hitems := readItems_spacedItems hne hvalues fuel (by omega) rest
    refine readValue_bracket ?_
    rw [skipSpace_of_readItems hitems, hitems]

/-! ## Objects -/

theorem exists_spacedEntries_eq_cons {es : List (CodeText × Json)} (hne : es ≠ []) :
    ∃ cs, spacedEntries ascii es = char '"' :: cs := by
  match es, hne with
  | [(k, v)], _ => exact ⟨_, rfl⟩
  | (k, v) :: e :: es, _ => exact ⟨_, rfl⟩

theorem skipSpace_spacedEntries_append {es : List (CodeText × Json)} (hne : es ≠ []) (rest : List CodePoint) :
    skipSpace (spacedEntries ascii es ++ rest) = spacedEntries ascii es ++ rest := by
  obtain ⟨cs, hcs⟩ : ∃ cs, spacedEntries ascii es = char '"' :: cs := exists_spacedEntries_eq_cons hne
  rw [hcs]
  rfl

/-- Entries with commas between them are read up to the brace that closes the object. -/
theorem readEntries_spacedEntries {es : List (CodeText × Json)} (hne : es ≠ [])
    (hvalues : ∀ e ∈ es, ReadsUpTo (spacedCodes ascii e.2) (reread ascii e.2).normal) (fuel : Nat)
    (hfuel : (spacedEntries ascii es).length < fuel) (rest : List CodePoint) :
    readEntries fuel (spacedEntries ascii es ++ char '\x7d' :: rest)
      = some (normalEntries (rereadEntries ascii es), rest) := by
  induction es generalizing fuel with
  | nil => exact absurd rfl hne
  | cons e es ih =>
    obtain ⟨k, v⟩ := e
    obtain ⟨hvalue, hvalues⟩ := List.forall_mem_cons.mp hvalues
    obtain ⟨fuel, rfl⟩ : ∃ n, fuel = n + 1 := ⟨fuel - 1, by omega⟩
    have hkey := readString_flatMap ascii k
    -- the blank behind the colon is skipped
    have hread (after : List CodePoint) (hlength : (spacedCodes ascii v).length ≤ fuel) (hafter : EndsLeaf after) :
        readValue fuel (skipSpace (char ' ' :: (spacedCodes ascii v ++ after)))
          = some ((reread ascii v).normal, after) :=
      ReadsUpTo.readValue_skipSpace hvalue hlength hafter
    cases es with
    | nil =>
      rw [spacedEntries, List.length_append, List.length_cons, List.length_cons] at hfuel
      rw [spacedEntries, List.append_assoc, List.cons_append, List.cons_append, quoteWithin_append]
      exact readEntries_last_of_readString (hread _ (by omega) (endsLeaf_brace rest)) (hkey _) rfl
    | cons e es =>
      rw [spacedEntries, List.length_append, List.length_append, List.length_cons, List.length_cons,
        List.length_cons, List.length_cons] at hfuel
      have hmore := ih (List.cons_ne_nil e es) hvalues fuel (by omega)
      rw [spacedEntries, List.append_assoc, List.append_assoc, List.cons_append, List.cons_append,
        List.cons_append, List.cons_append, quoteWithin_append,
        readEntries_more_of_readString (hread _ (by omega) (endsLeaf_comma _)) (hkey _) rfl]
      change (readEntries fuel (skipSpace (spacedEntries ascii (e :: es) ++ char '\x7d' :: rest))).map _ = _
      rw [skipSpace_spacedEntries_append (List.cons_ne_nil e es), hmore]
      rfl

theorem readsUpTo_spaced_obj {es : List (CodeText × Json)}
    (hvalues : ∀ e ∈ es, ReadsUpTo (spacedCodes ascii e.2) (reread ascii e.2).normal) :
    ReadsUpTo (spacedCodes ascii (.obj es)) (reread ascii (.obj es)).normal := by
  intro fuel rest hfuel _
  rw [spacedCodes, List.length_append, List.length_cons, List.length_singleton] at hfuel
  rw [spacedCodes, List.append_assoc, List.singleton_append, List.cons_append, reread, normal]
  obtain ⟨fuel, rfl⟩ : ∃ n, fuel = n + 1 := ⟨fuel - 1, by omega⟩
  by_cases hne : es = []
  · rw [hne]
    rfl
  · have hentries := readEntries_spacedEntries hne hvalues fuel (by omega) rest
    refine readValue_brace ?_
    rw [skipSpace_spacedEntries_append hne, hentries]

end

/-! ## Every value -/

theorem IsLegible.readsUpTo_spaced {j : Json} (h : j.IsLegible) (ascii : Bool) :
    ReadsUpTo (spacedCodes ascii j) (reread ascii j).normal := by
  induction h with
  | null => exact readsUpTo_null
  | bool b => exact readsUpTo_bool b
  | int h => exact readsUpTo_of_readLeaf fun rest ↦ readLeaf_intChars h
  | float h => exact readsUpTo_of_readLeaf fun rest ↦ readLeaf_floatText h
  | str s => exact readsUpTo_quoteWithin ascii s
  | arr _ ih => exact readsUpTo_spaced_arr ih
  | obj _ ih => exact readsUpTo_spaced_obj ih

/-- **The spaced layout is read with one entry a key**, halves that belong together joined if it is kept to
ASCII. -/
theorem parse?_spaced {j : Json} (h : j.IsLegible) (ascii : Bool) :
    parse? (j.spaced ascii) = some (reread ascii j).normal := by
  have hread := h.readsUpTo_spaced ascii (2 * (spacedCodes ascii j).length + 2) [] (by omega) endsLeaf_nil
  rw [List.append_nil] at hread
  exact parse?_of_readValue hread

/-- **The spaced layout is read back** if it is not kept to ASCII and no object repeats a key. -/
theorem IsExact.parse?_spaced_false {j : Json} (h : j.IsExact) : parse? (j.spaced false) = some j := by
  rw [Json.parse?_spaced h.isLegible, reread_false, h.normal_eq]

/-- **The spaced layout is read back from ASCII** exactly if no text holds halves that belong together. -/
theorem IsExact.parse?_spaced_true_iff {j : Json} (h : j.IsExact) :
    parse? (j.spaced true) = some j ↔ ∀ t ∈ j.texts, t.HasNoPair := by
  rw [Json.parse?_spaced h.isLegible, Option.some.injEq]
  constructor
  · intro hback t ht
    rw [← hback] at ht
    exact hasNoPair_of_mem_texts_reread j t (texts_normal_subset _ ht)
  · intro hpairs
    rw [reread_true_of_hasNoPair hpairs, h.normal_eq]

end NoteQuery.Json
