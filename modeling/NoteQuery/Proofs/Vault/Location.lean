import NoteQuery.Proofs.Text.Splitting
import NoteQuery.Vault.Location

/-!
# What a location ends with

The normal form of a location has the last of its segments at the end, so a location that is seen from
another one keeps the ending of its name, whatever the other one is.
-/

namespace NoteQuery.Location

theorem suffix_build (root : String) (init : List String) {s : String} (hs : s.toList ≠ []) :
    s.toList <:+ (build root (init ++ [s])).toList := by
  have htext : s.toList <:+ (root ++ "/".intercalate (init ++ [s])).toList := by
    rw [String.toList_append, String.toList_intercalate, List.map_append]
    exact (@Text.suffix_intercalate '/' _ _).trans (List.suffix_append _ _)
  rw [build]
  split
  · rename_i hempty
    rw [String.isEmpty_iff.mp hempty] at htext
    exact absurd (List.suffix_nil.mp htext) hs
  · exact htext

theorem exists_segments_eq {location : String} {ending : List Char} (hslash : '/' ∉ ending)
    (hlength : 2 ≤ ending.length) (h : ending <:+ location.toList) :
    ∃ init s, segments location = init ++ [s] ∧ ending <:+ s.toList := by
  obtain ⟨pieces, piece, hsplit, hpiece⟩ := Text.exists_splitOn_eq_of_suffix hslash h
  have hle := Nat.le_trans hlength hpiece.length_le
  have hkept : String.ofList piece ≠ "" ∧ String.ofList piece ≠ "." := by
    constructor
    all_goals
      intro he
      rw [← String.toList_ofList (l := piece), he] at hle
      exact absurd hle (by decide)
  refine ⟨(pieces.map String.ofList).filter fun s ↦ s ≠ "" ∧ s ≠ ".", String.ofList piece, ?_, ?_⟩
  · rw [segments, hsplit, List.map_append, List.filter_append, List.map_singleton, List.filter_singleton,
      decide_eq_true hkept, cond_true]
  · rwa [String.toList_ofList]

theorem suffix_join {location : String} {ending : List Char} (hslash : '/' ∉ ending)
    (hlength : 2 ≤ ending.length) (h : ending <:+ location.toList) (base : String) :
    ending <:+ (join base location).toList := by
  obtain ⟨init, s, hsegments, hs⟩ := exists_segments_eq hslash hlength h
  have hne : s.toList ≠ [] := List.ne_nil_of_length_pos (by have := hs.length_le; omega)
  rw [join]
  split
  · rw [normal, hsegments]
    exact hs.trans (suffix_build _ init hne)
  · rw [below, hsegments, ← List.append_assoc]
    exact hs.trans (suffix_build _ _ hne)

end NoteQuery.Location
