import NoteQuery.Proofs.Json.Numbers
import NoteQuery.Proofs.Json.Objects

/-!
# The indented layout

In the indented layout a comma or a line end follows every value inside a container. A word or a number ends
there, so the reader finds the end of each value, skips the blanks up to the next, and gives back what was
written, halves of characters among it. This asks of a value only what a text cannot carry: its integers are
not too long, its numbers with a fraction are in canonical form, and no object repeats a key.
-/

namespace NoteQuery.Json

open CodePoint (char)

/-- Whether a value can be told from its text. -/
inductive IsExact : Json → Prop
  | null : IsExact .null
  | bool (b : Bool) : IsExact (.bool b)
  /-- An integer has no more digits than are read. -/
  | int {n : Int} (h : (Nat.toDigits 10 n.natAbs).length ≤ Number.mostDigits) : IsExact (.int n)
  | float {x : Binary64} (h : x.IsCanonical) : IsExact (.float x)
  | str (s : CodeText) : IsExact (.str s)
  | arr {xs : List Json} (h : ∀ x ∈ xs, IsExact x) : IsExact (.arr xs)
  /-- An object has one entry a key. -/
  | obj {es : List (CodeText × Json)} (hkeys : (es.map Prod.fst).Nodup) (h : ∀ e ∈ es, IsExact e.2) :
    IsExact (.obj es)

/-- Whether a text is read as a value wherever a word or a number ends behind it, in as many steps as it has
code points. -/
def ReadsUpTo (cs : List CodePoint) (j : Json) : Prop :=
  ∀ fuel rest, cs.length ≤ fuel → EndsLeaf rest → readValue fuel (cs ++ rest) = some (j, rest)

theorem ReadsUpTo.readValue_skipSpace {cs : List CodePoint} {j : Json} (h : ReadsUpTo cs j) {fuel : Nat}
    (hfuel : cs.length ≤ fuel) {rest : List CodePoint} (hrest : EndsLeaf rest) :
    readValue fuel (skipSpace (cs ++ rest)) = some (j, rest) := by
  rw [skipSpace_of_readValue (h fuel rest hfuel hrest), h fuel rest hfuel hrest]

/-! ## What follows a value -/

theorem endsLeaf_nil : EndsLeaf [] := rfl

theorem endsLeaf_comma (rest : List CodePoint) : EndsLeaf (char ',' :: rest) := rfl

/-- What is read as a word or a number begins as neither a string nor a container does. -/
theorem readValue_of_readLeaf {cs : List CodePoint} {r : Json × List CodePoint} (h : readLeaf cs = some r)
    (fuel : Nat) : readValue (fuel + 1) cs = some r := by
  rw [readValue]
  · exact h
  all_goals
    rintro rest rfl
    cases h

theorem readsUpTo_of_readLeaf {cs : List CodePoint} {j : Json}
    (h : ∀ rest, EndsLeaf rest → readLeaf (cs ++ rest) = some (j, rest)) : ReadsUpTo cs j := by
  intro fuel rest hfuel hrest
  cases fuel with
  | succ fuel => exact readValue_of_readLeaf (h rest hrest) fuel
  | zero =>
    have hread := h [] endsLeaf_nil
    rw [List.length_eq_zero_iff.mp (Nat.le_zero.mp hfuel)] at hread
    cases hread

theorem readsUpTo_null : ReadsUpTo (compactCodes .null) .null :=
  readsUpTo_of_readLeaf fun _ ↦ readLeaf_map_append ['n', 'u', 'l', 'l'] rfl (delimiter_free_iff.mp rfl)

theorem readsUpTo_bool (b : Bool) : ReadsUpTo (compactCodes (.bool b)) (.bool b) := by
  refine readsUpTo_of_readLeaf fun _ ↦ ?_
  cases b
  · exact readLeaf_map_append ['f', 'a', 'l', 's', 'e'] rfl (delimiter_free_iff.mp rfl)
  · exact readLeaf_map_append ['t', 'r', 'u', 'e'] rfl (delimiter_free_iff.mp rfl)

/-! ## Arrays -/

section

variable {cs after : List CodePoint} {x : Json} {fuel : Nat} (h : readValue fuel cs = some (x, after))
include h

theorem readItems_last {rest : List CodePoint} (hafter : skipSpace after = char ']' :: rest) :
    readItems (fuel + 1) cs = some ([x], rest) := by
  simp only [readItems, h, hafter]

theorem readItems_more {more : List CodePoint} (hafter : skipSpace after = char ',' :: more) :
    readItems (fuel + 1) cs = (readItems fuel (skipSpace more)).map fun r ↦ (x :: r.1, r.2) := by
  simp only [readItems, h, hafter]

end

theorem skipSpace_of_readItems {fuel : Nat} {cs : List CodePoint} {r : List Json × List CodePoint}
    (h : readItems fuel cs = some r) : skipSpace cs = cs := by
  cases fuel with
  | zero => cases h
  | succ fuel =>
    cases hvalue : readValue fuel cs with
    | none =>
      rw [readItems, hvalue] at h
      cases h
    | some r => exact skipSpace_of_readValue hvalue

theorem readValue_bracket {cs after : List CodePoint} {xs : List Json} {fuel : Nat}
    (h : readItems fuel (skipSpace cs) = some (xs, after)) :
    readValue (fuel + 1) (char '[' :: cs) = some (.arr xs, after) := by
  rw [readValue]
  split
  · rename_i hclosed
    -- no item begins with a bracket that closes
    rw [hclosed] at h
    rcases fuel with - | - | fuel <;> cases h
  · rw [h]
    rfl

end NoteQuery.Json
