import Mathlib
import NoteQuery.Proofs.Forest.Places
import NoteQuery.Proofs.Query.Selection
import NoteQuery.Search

/-!
# Filtering a list and filtering its forest

A list of records can be filtered as it is or as the forest of its paths. Where no path is another or
lies above another, every record is at a leaf of its own, so both ways test the same records: one
goes wrong exactly when the other does, and they find the same records. A folder is shown when one of
them lies below it. A query that matches everything tests nothing in a forest; it shows all nodes,
which is the same, since every folder has a record below it.
-/

namespace NoteQuery

open Forest

/-! ## Filtering a list -/

namespace Search

variable {test : Record → Answer Bool} {records : List Record}

theorem select_eq_ok {passes : Record → Bool} (h : ∀ r ∈ records, test r = .ok (passes r)) :
    select test records = .ok (records.filter passes) := by
  induction records with
  | nil => rfl
  | cons r records ih =>
    rw [select, h r List.mem_cons_self, ih fun r' hr' ↦ h r' (List.mem_cons_of_mem r hr'),
      List.filter_cons]
    rfl

/-- A list can be filtered exactly when the test goes wrong on none of its records. -/
theorem exists_select_iff :
    (∃ found, select test records = .ok found) ↔ ∀ r ∈ records, ∃ passed, test r = .ok passed := by
  constructor
  · rintro ⟨found, h⟩
    induction records generalizing found with
    | nil => exact fun r hr ↦ nomatch hr
    | cons r records ih =>
      rw [select] at h
      obtain ⟨kept, hkept, h⟩ := exists_of_bind_eq_ok h
      obtain ⟨more, hmore, -⟩ := exists_of_bind_eq_ok h
      intro r' hr'
      rcases List.mem_cons.mp hr' with rfl | hr'
      · exact ⟨kept, hkept⟩
      · exact ih more hmore r' hr'
  · intro h
    exact ⟨_, select_eq_ok fun r hr ↦ Answer.eq_ok_isYes (h r hr)⟩

variable {s : Search} {text : String} {q : Query}

theorem filter_of_parse_eq_ok (hq : s.parse text = .ok q) :
    s.filter records text = (select (s.holds q) records).mapError .matching := by
  rw [filter, hq]
  rfl

theorem filterForest_of_parse_eq_ok {forest : Forest} (hq : s.parse text = .ok q) :
    s.filterForest forest text = (Forest.visibility
      (if q.isMatchAll then none else some (s.holds q)) forest).mapError .matching := by
  rw [filterForest, hq]
  rfl

end Search

/-! ## Records apart -/

/-- Records whose paths name places that are all different and none above another. -/
structure PathsApart (records : List Record) : Prop where
  /-- Every path has a segment. -/
  filled : ∀ r ∈ records, segments r.path ≠ []
  /-- No two records have one place. -/
  distinct : (records.map fun r ↦ segments r.path).Nodup
  /-- No record lies below another. -/
  unnested : ∀ r ∈ records, ∀ r' ∈ records, ¬IsAbove (segments r.path) (segments r'.path)

namespace PathsApart

variable {records : List Record}

theorem iff_decidable : PathsApart records ↔
    (∀ r ∈ records, segments r.path ≠ []) ∧ (records.map fun r ↦ segments r.path).Nodup ∧
      ∀ r ∈ records, ∀ r' ∈ records, ¬IsAbove (segments r.path) (segments r'.path) := by
  refine ⟨fun h ↦ ⟨h.filled, h.distinct, h.unnested⟩, ?_⟩
  rintro ⟨hfilled, hdistinct, hunnested⟩
  exact ⟨hfilled, hdistinct, hunnested⟩

instance : Decidable (PathsApart records) := decidable_of_iff' _ iff_decidable

theorem under_eq_nil (h : PathsApart records) {r : Record} (hr : r ∈ records) :
    under (entries records) (segments r.path) = [] := by
  rw [under_eq_nil_iff]
  intro e he
  obtain ⟨he, hpath⟩ := mem_entries.mp he
  rw [← hpath]
  exact h.unnested r hr e.2 he

theorem recordAt?_eq_some (h : PathsApart records) {r : Record} (hr : r ∈ records) :
    recordAt? (entries records) (segments r.path) = some r := by
  have hentry : (segments r.path, r) ∈ entries records := mem_entries.mpr ⟨hr, rfl⟩
  obtain ⟨r', hr'⟩ : ∃ r', recordAt? (entries records) (segments r.path) = some r' :=
    exists_recordAt? hentry
  obtain ⟨hmem, hpath⟩ : r' ∈ records ∧ segments r'.path = segments r.path :=
    mem_entries.mp (mem_of_recordAt? hr')
  rw [hr', List.inj_on_of_nodup_map h.distinct hmem hr hpath]

theorem mem_leafRecords_under (h : PathsApart records) {start : List String} {r : Record} :
    r ∈ leafRecords (under (entries records) start) ↔
      r ∈ records ∧ IsAbove start (segments r.path) := by
  rw [leafRecords_eq_nodes, List.mem_map]
  constructor
  · rintro ⟨b, hb, rfl⟩
    rw [List.mem_filter] at hb
    obtain ⟨habove, hnode⟩ := segments_path_of_mem_nodes hb.1
    have hleaf := hb.2
    rw [hnode, isLeaf_node, Bool.and_eq_true, Option.isSome_iff_exists] at hleaf
    obtain ⟨r, hr⟩ := hleaf.1
    have hrecord : b.record = r := by rw [hnode, record_node, hr, Option.getD_some]
    rw [hrecord]
    obtain ⟨hmem, hpath⟩ := mem_entries.mp (mem_of_recordAt? hr)
    exact ⟨hmem, by rwa [hpath]⟩
  · rintro ⟨hr, habove⟩
    refine ⟨node (entries records) (segments r.path), List.mem_filter.mpr ⟨?_, ?_⟩, ?_⟩
    · have hentry : (segments r.path, r) ∈ entries records := mem_entries.mpr ⟨hr, rfl⟩
      exact mem_nodes_under.mpr ⟨_, habove, ⟨_, hentry, List.prefix_refl _⟩, rfl⟩
    · rw [isLeaf_node, h.recordAt?_eq_some hr, h.under_eq_nil hr]
      rfl
    · rw [record_node, h.recordAt?_eq_some hr, Option.getD_some]

theorem leafRecords_perm (h : PathsApart records) :
    (leafRecords (Forest.ofRecords records)).Perm records := by
  have hleaves : (leafRecords (Forest.ofRecords records)).Nodup := by
    refine List.Nodup.of_map (fun r ↦ segments r.path) ?_
    rw [leafRecords_eq_nodes, List.map_map]
    exact (nodup_places records []).sublist ((List.filter_sublist).map _)
  refine (List.perm_ext_iff_of_nodup hleaves (h.distinct.of_map _)).mpr fun r ↦ ?_
  rw [ofRecords_eq_under, h.mem_leafRecords_under]
  exact and_iff_left_of_imp fun hr ↦ ⟨List.nil_prefix, (h.filled r hr).symm⟩

theorem leavesOf_leaf {b : Branch}
    (hb : b ∈ Forest.nodes (Forest.ofRecords records)) (hleaf : b.isLeaf = true) :
    leavesOf b = [b.record] := by
  refine leavesOf_of_children_eq_nil hleaf ?_
  rw [ofRecords_eq_under] at hb
  obtain ⟨-, hnode⟩ := segments_path_of_mem_nodes hb
  rw [hnode, isLeaf_node, Bool.and_eq_true, List.isEmpty_iff] at hleaf
  rw [hnode, children_node, hleaf.2]

theorem mem_leavesOf_folder (h : PathsApart records) {b : Branch}
    (hb : b ∈ Forest.nodes (Forest.ofRecords records)) (hfolder : b.isLeaf = false) {r : Record} :
    r ∈ leavesOf b ↔ r ∈ records ∧ IsAbove (segments b.path) (segments r.path) := by
  rw [ofRecords_eq_under] at hb
  obtain ⟨-, hnode⟩ := segments_path_of_mem_nodes hb
  have hchildren : b.children = under (entries records) (segments b.path) := by
    rw [hnode, children_node, ← hnode]
  rw [leavesOf_of_folder hfolder, hchildren, h.mem_leafRecords_under]

theorem leavesOf_ne_nil (h : PathsApart records) {b : Branch}
    (hb : b ∈ Forest.nodes (Forest.ofRecords records)) : leavesOf b ≠ [] := by
  cases hleaf : b.isLeaf with
  | true =>
    rw [leavesOf_leaf hb hleaf]
    exact List.cons_ne_nil _ _
  | false =>
    obtain ⟨p, -, ⟨e, he, hpre⟩, rfl⟩ := mem_nodes_under.mp hb
    obtain ⟨hr, hpath⟩ := mem_entries.mp he
    refine List.ne_nil_of_mem (a := e.2) ((h.mem_leavesOf_folder hb hleaf).mpr ⟨hr, ?_⟩)
    rw [segments_path_node he hpre, hpath]
    refine (eq_or_isAbove_of_begins hpre).resolve_left ?_
    rintro rfl
    rw [isLeaf_node, ← hpath, h.recordAt?_eq_some hr, h.under_eq_nil hr] at hleaf
    exact nomatch hleaf

end PathsApart

/-! ## Both ways -/

/-- What is shown where the nodes with a leaf that passes are shown. -/
def Forest.shownBy (passes : Record → Bool) (f : Forest) : Visibility :=
  tally ((nodes f).map (visitOf (showsLeaf passes)))

/-- Showing all nodes is showing those with a leaf, since every node has one. -/
theorem PathsApart.visibility_none {records : List Record} (h : PathsApart records) :
    visibility none (Forest.ofRecords records)
      = .ok ((Forest.ofRecords records).shownBy fun _ ↦ true) := by
  have hshown : ∀ b ∈ Forest.nodes (Forest.ofRecords records),
      visitOf (fun _ ↦ true) b = visitOf (showsLeaf fun _ ↦ true) b := by
    intro b hb
    obtain ⟨r, hr⟩ := List.exists_mem_of_ne_nil _ (h.leavesOf_ne_nil hb)
    rw [visitOf, visitOf, showsLeaf, List.any_eq_true.mpr ⟨r, hr, rfl⟩]
  rw [visibility, visitAll_none, Forest.shownBy, List.map_congr_left hshown]
  rfl

/-- **One test, two walks.** Both ways of filtering give the records that pass, or both go wrong. -/
theorem filter_and_filterForest (s : Search) (text : String) {records : List Record}
    (h : PathsApart records) :
    (∃ passes, s.filter records text = .ok (records.filter passes) ∧
      s.filterForest (Forest.ofRecords records) text
        = .ok ((Forest.ofRecords records).shownBy passes)) ∨
    (∃ fault, s.filter records text = .error fault) ∧
      ∃ fault, s.filterForest (Forest.ofRecords records) text = .error fault := by
  obtain ⟨q, hq⟩ | ⟨fault, hq⟩ := exists_ok_or_exists_error (s.parse text)
  · rw [Search.filter_of_parse_eq_ok hq, Search.filterForest_of_parse_eq_ok hq]
    by_cases hall : q.isMatchAll = true
    · -- nothing is tested in the forest, and the test in the list is passed by all
      have hholds : ∀ r ∈ records, s.holds q r = .ok true := by
        intro r _
        rw [Search.holds, Query.clauses_of_isMatchAll hq hall]
        rfl
      refine .inl ⟨fun _ ↦ true, ?_, ?_⟩
      · rw [Search.select_eq_ok hholds]
        rfl
      · rw [if_pos hall, h.visibility_none]
        rfl
    · rw [if_neg hall]
      have hmem : ∀ r, r ∈ leafRecords (Forest.ofRecords records) ↔ r ∈ records :=
        fun r ↦ h.leafRecords_perm.mem_iff
      by_cases hok : ∀ r ∈ records, ∃ passed, s.holds q r = .ok passed
      · have hyes : ∀ r ∈ records, s.holds q r = .ok (s.holds q r).isYes :=
          fun r hr ↦ Answer.eq_ok_isYes (hok r hr)
        refine .inl ⟨fun r ↦ (s.holds q r).isYes, ?_, ?_⟩
        · rw [Search.select_eq_ok hyes]
          rfl
        · rw [visibility, visitAll_eq_ok _ fun r hr ↦ hyes r ((hmem r).mp hr)]
          rfl
      · obtain ⟨fault, hlist⟩ := (exists_ok_or_exists_error _).resolve_left
          fun hselect ↦ hok (Search.exists_select_iff.mp hselect)
        obtain ⟨fault', hforest⟩ := (exists_ok_or_exists_error _).resolve_left
          fun hwalk ↦ hok fun r hr ↦ exists_visibility_iff.mp hwalk r ((hmem r).mpr hr)
        rw [hlist, hforest]
        exact .inr ⟨⟨.matching fault, rfl⟩, .matching fault', rfl⟩
  · refine .inr ⟨⟨.query fault, ?_⟩, .query fault, ?_⟩
    · rw [Search.filter, hq]
      rfl
    · rw [Search.filterForest, hq]
      rfl

/-! ## What is shown -/

namespace Forest

variable {passes : Record → Bool} {records : List Record}

theorem isVisible_shownBy {b : Branch} (hb : b ∈ nodes (ofRecords records)) :
    ((ofRecords records).shownBy passes).isVisible b.path = true ↔ showsLeaf passes b = true := by
  rw [Visibility.isVisible, List.contains_iff_mem, shownBy, mem_paths_tally]
  constructor
  · rintro ⟨b', hb', hshown, hpath⟩
    rwa [← List.inj_on_of_nodup_map (nodup_paths records) hb' hb hpath]
  · intro hshown
    exact ⟨b, hb, hshown, rfl⟩

theorem map_record_shown_leaves :
    ((nodes (ofRecords records)).filter fun b ↦
        b.isLeaf && ((ofRecords records).shownBy passes).isVisible b.path).map Branch.record
      = (leafRecords (ofRecords records)).filter passes := by
  rw [leafRecords_eq_nodes, List.filter_map, List.filter_filter]
  congr 1
  refine List.filter_congr fun b hb ↦ ?_
  rw [Bool.and_comm]
  cases hleaf : b.isLeaf with
  | false => rw [Bool.and_false, Bool.and_false]
  | true =>
    have hshown : showsLeaf passes b = passes b.record := by
      rw [showsLeaf, PathsApart.leavesOf_leaf hb hleaf, List.any_cons, List.any_nil, Bool.or_false]
    rw [Bool.and_true, Bool.and_true, Function.comp_apply, ← hshown, Bool.eq_iff_iff]
    exact isVisible_shownBy hb

theorem leaves_shownBy :
    ((ofRecords records).shownBy passes).leaves
      = ((leafRecords (ofRecords records)).filter passes).length := by
  rw [shownBy, leaves_tally, ← map_record_shown_leaves, List.length_map, ← List.countP_eq_length_filter]
  refine List.countP_congr fun b hb ↦ ?_
  rw [Bool.and_eq_true, Bool.and_eq_true, isVisible_shownBy hb]

end Forest

/-- **Filtering a list and filtering its forest agree.** For records apart, one goes wrong exactly when
the other does; otherwise the leaves that are shown are those of the records that are found, as many
as are found, and the folders that are shown are those with such a record below them. -/
theorem filterForest_agrees_with_filter (s : Search) (text : String) {records : List Record}
    (h : PathsApart records) :
    ((∃ fault, s.filter records text = .error fault) ↔
      ∃ fault, s.filterForest (Forest.ofRecords records) text = .error fault) ∧
    ∀ found shown, s.filter records text = .ok found →
      s.filterForest (Forest.ofRecords records) text = .ok shown →
        (((Forest.nodes (Forest.ofRecords records)).filter fun b ↦
            b.isLeaf && shown.isVisible b.path).map Branch.path).Perm (found.map Record.path) ∧
        shown.leaves = found.length ∧
        ∀ b ∈ Forest.nodes (Forest.ofRecords records), b.isLeaf = false →
          (shown.isVisible b.path = true ↔
            ∃ r ∈ found, IsAbove (segments b.path) (segments r.path)) := by
  obtain ⟨passes, hlist, hforest⟩ | ⟨⟨fault, hlist⟩, fault', hforest⟩ := filter_and_filterForest s text h
  · refine ⟨?_, fun found shown hfound hshown ↦ ?_⟩
    · rw [hlist, hforest]
      constructor <;> exact fun ⟨_, hfault⟩ ↦ nomatch hfault
    · obtain rfl : records.filter passes = found := Except.ok.inj (hlist.symm.trans hfound)
      obtain rfl : (Forest.ofRecords records).shownBy passes = shown :=
        Except.ok.inj (hforest.symm.trans hshown)
      have hperm : ((leafRecords (Forest.ofRecords records)).filter passes).Perm
          (records.filter passes) := h.leafRecords_perm.filter passes
      refine ⟨?_, ?_, fun b hb hfolder ↦ ?_⟩
      · have hpaths := hperm.map Record.path
        rwa [← map_record_shown_leaves, List.map_map] at hpaths
      · rw [leaves_shownBy, hperm.length_eq]
      · rw [isVisible_shownBy hb, showsLeaf, List.any_eq_true]
        refine exists_congr fun r ↦ ?_
        rw [h.mem_leavesOf_folder hb hfolder, List.mem_filter]
        exact and_right_comm
  · refine ⟨⟨fun _ ↦ ⟨fault', hforest⟩, fun _ ↦ ⟨fault, hlist⟩⟩, fun found shown hfound ↦ ?_⟩
    exact nomatch hlist.symm.trans hfound

theorem filterForest_agrees_with_filter_of_one_found :
    PathsApart [Record.ofPath "a/b", Record.ofPath "c"] ∧
    ∃ shown, (Search.mk "path" none).filterForest
        (Forest.ofRecords [Record.ofPath "a/b", Record.ofPath "c"]) "b" = .ok shown ∧
      shown.leaves = [Record.ofPath "a/b"].length := by
  have hapart : PathsApart [Record.ofPath "a/b", Record.ofPath "c"] := by decide
  have hfound : (Search.mk "path" none).filter [Record.ofPath "a/b", Record.ofPath "c"] "b"
      = .ok [Record.ofPath "a/b"] := by cbv
  have hshown : (Search.mk "path" none).filterForest
      (Forest.ofRecords [Record.ofPath "a/b", Record.ofPath "c"]) "b"
        = .ok ⟨["a", "a/b"], 3, 1, 1⟩ := by cbv
  exact ⟨hapart, _, hshown, ((filterForest_agrees_with_filter _ _ hapart).2 _ _ hfound hshown).2.1⟩

end NoteQuery
