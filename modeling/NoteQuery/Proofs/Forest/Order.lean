import Mathlib.Data.List.Lex
import Mathlib.Data.List.Sort
import Mathlib.Data.String.Basic
import NoteQuery.Proofs.Forest.Filtering

/-!
# The forest of sorted records

When records stand in the order of their places, compared segment by segment, so do the nodes of their
forest: a place comes before the places below it, and what is below one segment comes before what is
below a later one. So the leaves of the forest give the records back as they were.
-/

namespace NoteQuery

open Forest

namespace Forest

variable {records : List Record} {start a b : List String} {s t : String}

/-! ## Places in order -/

theorem IsAbove.lt (h : IsAbove a b) : a < b := by
  obtain ⟨s, rest, rfl⟩ := isAbove_iff.mp h
  rw [List.append_assoc, List.singleton_append]
  have hend : a ++ [] < a ++ s :: rest := List.append_left_lt (List.nil_lt_cons s rest)
  rwa [List.append_nil] at hend

theorem lt_of_lt_of_begins (hst : s < t) (ha : start ++ [s] <+: a) (hb : start ++ [t] <+: b) :
    a < b := by
  obtain ⟨rest, rfl⟩ := ha
  obtain ⟨rest', rfl⟩ := hb
  rw [List.append_assoc, List.append_assoc]
  exact List.append_left_lt (List.cons_lt_cons_iff.mpr (.inl hst))

theorem le_of_lt_of_begins (hab : a < b) (ha : start ++ [s] <+: a) (hb : start ++ [t] <+: b) :
    s ≤ t :=
  not_lt.mp fun hts ↦ lt_asymm hab (lt_of_lt_of_begins hts hb ha)

/-! ## Records in order -/

/-- Whether records stand in the order of their places, no two at one place. -/
def AreSorted (records : List Record) : Prop :=
  records.Pairwise fun r r' ↦ segments r.path < segments r'.path

namespace AreSorted

theorem pairwise_nextSegments (h : AreSorted records) (start : List String) :
    (nextSegments (entries records) start).Pairwise (· < ·) := by
  have hkeys : ((entries records).filterMap fun e ↦ nextSegment? start e.1).Pairwise (· ≤ ·) := by
    rw [List.pairwise_filterMap, entries, List.pairwise_map]
    refine h.imp fun hlt s hs t ht ↦ ?_
    exact le_of_lt_of_begins hlt (nextSegment?_eq_some_iff.mp hs) (nextSegment?_eq_some_iff.mp ht)
  have hle := hkeys.sublist (Text.distinct_sublist _)
  exact hle.imp₂ (fun _ _ ↦ lt_of_le_of_ne) (Text.nodup_distinct _)

/-- **Nodes in order.** The nodes of the forest of sorted records stand in the order of their places. -/
theorem pairwise_nodes (h : AreSorted records) (start : List String) :
    ((nodes (under (entries records) start)).map fun b ↦ segments b.path).Pairwise (· < ·) := by
  refine Forest.pairwise_places (fun p q ↦ IsAbove.lt) (fun start ↦ ?_) start
  exact (h.pairwise_nextSegments start).imp fun hst p q ↦ lt_of_lt_of_begins hst

theorem nodup (h : AreSorted records) : (records.map fun r ↦ segments r.path).Nodup := by
  rw [List.nodup_iff_pairwise_ne, List.pairwise_map]
  exact h.imp ne_of_lt

/-- **Leaves in order.** Sorted records, none below another, are the leaves of their forest as they
stand. -/
theorem leafRecords_ofRecords (h : AreSorted records) (hapart : PathsApart records) :
    leafRecords (ofRecords records) = records := by
  have hleaves : AreSorted (leafRecords (ofRecords records)) := by
    have hplaces := h.pairwise_nodes []
    rw [List.pairwise_map] at hplaces
    rw [AreSorted, leafRecords_eq_nodes, List.pairwise_map]
    exact hplaces.sublist List.filter_sublist
  refine List.Perm.eq_of_pairwise ?_ hleaves h hapart.leafRecords_perm
  exact fun r r' _ _ hlt hgt ↦ absurd hgt (lt_asymm hlt)

end AreSorted

end Forest

/-! ## Folders -/

/-- A place above a record is that of one node, and this node is a folder. -/
theorem PathsApart.count_path_folder {records : List Record} (h : PathsApart records) {r : Record}
    (hr : r ∈ records) {p : List String} (hp : p ≠ []) (habove : IsAbove p (segments r.path)) :
    ((Forest.nodes (Forest.ofRecords records)).map Branch.path).count (pathOf p) = 1 ∧
      ∀ b ∈ Forest.nodes (Forest.ofRecords records), b.path = pathOf p → b.isLeaf = false := by
  have hentry : (segments r.path, r) ∈ entries records := mem_entries.mpr ⟨hr, rfl⟩
  have hnone : recordAt? (entries records) p = none := by
    rw [Option.eq_none_iff_forall_ne_some]
    intro r' hr'
    obtain ⟨hmem, hpath⟩ := mem_entries.mp (mem_of_recordAt? hr')
    exact h.unnested r' hmem r hr (hpath ▸ habove)
  have hpath : (node (entries records) p).path = pathOf p := by
    rw [Branch.path, record_node, hnone]
    rfl
  have hnode : node (entries records) p ∈ Forest.nodes (Forest.ofRecords records) := by
    rw [ofRecords_eq_under]
    exact mem_nodes_under.mpr ⟨p, ⟨List.nil_prefix, hp.symm⟩, ⟨_, hentry, habove.1⟩, rfl⟩
  have hnodup := nodup_paths records
  refine ⟨List.count_eq_one_of_mem hnodup (hpath ▸ List.mem_map_of_mem hnode), fun b hb hbp ↦ ?_⟩
  rw [List.inj_on_of_nodup_map hnodup hb hnode (hbp.trans hpath.symm), isLeaf_node, hnone]
  rfl

end NoteQuery
