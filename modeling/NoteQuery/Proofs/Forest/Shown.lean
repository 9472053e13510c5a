import NoteQuery.Proofs.Forest.Filtering

/-!
# What a query shows of a forest

Which nodes of a forest are shown is the solution of an equation: a node is shown if the query matches
everything, if it is a leaf with a record that is found, or if one of its children is shown. The equation
has one solution, and what is above a node that is shown is shown with it. The counts and the paths are read
off the solution, for forests of any shape; only where no path is repeated, as in the forest of some
records, are there as many paths as nodes that are shown.
-/

namespace NoteQuery

/-! ## The shape of a forest -/

mutual

/-- What holds of a node whenever it holds of its children holds of all nodes. -/
theorem Branch.induction {motive : Branch → Prop} (step : ∀ b, (∀ c ∈ b.children, motive c) → motive b)
    (b : Branch) : motive b := by
  obtain ⟨record, children, isLeaf⟩ := b
  exact step _ (Forest.forall_of_step step children)

theorem Forest.forall_of_step {motive : Branch → Prop}
    (step : ∀ b, (∀ c ∈ b.children, motive c) → motive b) (f : List Branch) : ∀ b ∈ f, motive b := by
  cases f with
  | nil => simp
  | cons b bs =>
    exact List.forall_mem_cons.mpr ⟨Branch.induction step b, Forest.forall_of_step step bs⟩

end

namespace Forest

variable {f : Forest} {b c : Branch}

theorem mem_nodes_iff : c ∈ nodes f ↔ ∃ b ∈ f, c = b ∨ c ∈ nodes b.children := by
  simp [nodes_eq_flatMap f, nodes_branch]

theorem mem_nodes_of_mem_children (hb : b ∈ nodes f) (hc : c ∈ b.children) : c ∈ nodes f := by
  obtain ⟨root, hroot, hb⟩ := mem_nodes_iff.mp hb
  refine mem_nodes_iff.mpr ⟨root, hroot, .inr ?_⟩
  clear hroot
  induction root using Branch.induction with
  | step root ih =>
    rcases hb with rfl | hb
    · exact mem_nodes_iff.mpr ⟨c, hc, .inl rfl⟩
    · obtain ⟨d, hd, hb⟩ := mem_nodes_iff.mp hb
      exact mem_nodes_iff.mpr ⟨d, hd, .inr (ih d hd hb)⟩

/-! ## Which nodes are shown -/

/-- Whether a choice of the nodes to show is the right one, for a query that matches everything or finds
some records. -/
def IsShowing (everything : Prop) (found : Record → Prop) (f : Forest) (shown : Branch → Bool) : Prop :=
  ∀ b ∈ nodes f, (shown b = true ↔
    everything ∨ (b.isLeaf = true ∧ found b.record) ∨ ∃ c ∈ b.children, shown c = true)

variable {everything : Prop} {found : Record → Prop} {shown : Branch → Bool}

theorem isShowing_of_everything (h : everything) : IsShowing everything found f fun _ ↦ true :=
  fun _ _ ↦ iff_of_true rfl (.inl h)

theorem any_leafRecords (passes : Record → Bool) (f : Forest) :
    (leafRecords f).any passes = f.any (showsLeaf passes) := by
  induction f with
  | nil => rfl
  | cons b bs ih => rw [leafRecords, List.any_append, ih, List.any_cons, showsLeaf]

theorem showsLeaf_iff {passes : Record → Bool} : showsLeaf passes b = true ↔
    (b.isLeaf = true ∧ passes b.record = true) ∨ ∃ c ∈ b.children, showsLeaf passes c = true := by
  obtain ⟨record, children, isLeaf⟩ := b
  rw [showsLeaf, leavesOf, List.any_append, any_leafRecords, Bool.or_eq_true, List.any_eq_true]
  cases isLeaf <;> simp [Branch.isLeaf, Branch.record, Branch.children]

theorem record_mem_leafRecords (hb : b ∈ nodes f) (hleaf : b.isLeaf = true) : b.record ∈ leafRecords f := by
  rw [leafRecords_eq_nodes]
  exact List.mem_map_of_mem (List.mem_filter.mpr ⟨hb, hleaf⟩)

/-- Showing the nodes with a leaf that passes is right, if those that pass are found. -/
theorem isShowing_showsLeaf {passes : Record → Bool} (heverything : ¬everything)
    (h : ∀ r ∈ leafRecords f, found r ↔ passes r = true) :
    IsShowing everything found f (showsLeaf passes) := by
  intro b hb
  have hrecord : b.isLeaf = true ∧ passes b.record = true ↔ b.isLeaf = true ∧ found b.record :=
    and_congr_right fun hleaf ↦ (h _ (record_mem_leafRecords hb hleaf)).symm
  rw [showsLeaf_iff, hrecord, or_iff_right heverything]

namespace IsShowing

theorem above (h : IsShowing everything found f shown) (hb : b ∈ nodes f) (hc : c ∈ nodes b.children)
    (hshown : shown c = true) : shown b = true := by
  induction b using Branch.induction with
  | step b ih =>
    obtain ⟨d, hd, hc⟩ := mem_nodes_iff.mp hc
    have hchild : shown d = true := by
      rcases hc with rfl | hc
      · exact hshown
      · exact ih d hd (mem_nodes_of_mem_children hb hd) hc
    exact (h b hb).mpr (.inr (.inr ⟨d, hd, hchild⟩))

theorem eq_of_mem_nodes {shown' : Branch → Bool} (h : IsShowing everything found f shown)
    (h' : IsShowing everything found f shown') (hb : b ∈ nodes f) : shown b = shown' b := by
  induction b using Branch.induction with
  | step b ih =>
    have hchildren : (∃ c ∈ b.children, shown c = true) ↔ ∃ c ∈ b.children, shown' c = true := by
      refine exists_congr fun c ↦ and_congr_right fun hc ↦ ?_
      rw [ih c hc (mem_nodes_of_mem_children hb hc)]
    rw [Bool.eq_iff_iff, h b hb, h' b hb, hchildren]

end IsShowing

end Forest

/-! ## The counts -/

namespace Visibility

open Forest

/-- Whether the counts and the paths of a summary are those of the nodes that are shown. -/
structure Summarizes (v : Visibility) (f : Forest) (shown : Branch → Bool) : Prop where
  /-- All nodes are counted, whether they are shown or not. -/
  total_eq : v.total = (nodes f).length
  /-- The leaves that are shown are counted. -/
  leaves_eq : v.leaves = (nodes f).countP fun b ↦ b.isLeaf && shown b
  /-- The folders that are shown are counted. -/
  folders_eq : v.folders = (nodes f).countP fun b ↦ !b.isLeaf && shown b
  /-- Together they are the nodes that are shown. -/
  visible_eq : v.visible = v.leaves + v.folders ∧ v.visible = (nodes f).countP shown
  /-- No path is listed twice. -/
  nodup_paths : v.paths.Nodup
  /-- The paths are those of the nodes that are shown. -/
  mem_paths_iff : ∀ p, p ∈ v.paths ↔ ∃ b ∈ nodes f, shown b = true ∧ b.path = p

theorem summarizes_tally (f : Forest) (shown : Branch → Bool) :
    (tally ((nodes f).map (visitOf shown))).Summarizes f shown where
  total_eq := by simp [tally]
  leaves_eq := leaves_tally shown (nodes f)
  folders_eq := folders_tally shown (nodes f)
  visible_eq := ⟨rfl, visible_tally shown (nodes f)⟩
  nodup_paths := Text.nodup_distinct _
  mem_paths_iff _ := mem_paths_tally shown (nodes f)

/-- Where no path is repeated there are as many paths as nodes that are shown. -/
theorem Summarizes.visible_eq_length_paths {v : Visibility} {f : Forest} {shown : Branch → Bool}
    (h : v.Summarizes f shown) (hnodup : ((nodes f).map Branch.path).Nodup) : v.visible = v.paths.length := by
  have hperm : v.paths.Perm (((nodes f).filter shown).map Branch.path) := by
    refine (List.perm_ext_iff_of_nodup h.nodup_paths ?_).mpr fun p ↦ ?_
    · exact hnodup.sublist (List.filter_sublist.map Branch.path)
    · simp [h.mem_paths_iff, and_assoc]
  rw [h.visible_eq.2, hperm.length_eq, List.length_map, List.countP_eq_length_filter]

end Visibility

/-! ## Filtering a forest -/

namespace Search

variable {s : Search} {text : String} {q : Query} {f : Forest}

/-- A forest can be filtered exactly when everything matches or no leaf goes wrong. -/
theorem exists_filterForest_iff (hq : s.parse text = .ok q) (f : Forest) :
    (∃ v, s.filterForest f text = .ok v) ↔ q.isMatchAll = true ∨
      ∀ b ∈ Forest.nodes f, b.isLeaf = true → ∃ passed, s.holds q b.record = .ok passed := by
  simp only [filterForest_of_parse_eq_ok hq, mapError_eq_ok_iff]
  by_cases hall : q.isMatchAll = true
  · rw [if_pos hall, Forest.visibility, Forest.visitAll_none]
    exact iff_of_true ⟨_, rfl⟩ (.inl hall)
  · rw [if_neg hall, or_iff_right hall, Forest.exists_visibility_iff, Forest.leafRecords_eq_nodes]
    simp only [List.forall_mem_map, List.mem_filter, and_imp]

/-- What is found by filtering a forest is read off a right choice of the nodes to show. -/
theorem exists_isShowing_of_filterForest (hq : s.parse text = .ok q) {v : Visibility}
    (hv : s.filterForest f text = .ok v) : ∃ shown : Branch → Bool,
      f.IsShowing (q.isMatchAll = true) (fun r ↦ s.holds q r = .ok true) shown ∧
      v = Forest.tally ((Forest.nodes f).map (Forest.visitOf shown)) := by
  rw [filterForest_of_parse_eq_ok hq, mapError_eq_ok_iff] at hv
  by_cases hall : q.isMatchAll = true
  · rw [if_pos hall, Forest.visibility, Forest.visitAll_none] at hv
    exact ⟨fun _ ↦ true, Forest.isShowing_of_everything hall, (Except.ok.inj hv).symm⟩
  · rw [if_neg hall] at hv
    have hyes : ∀ r ∈ Forest.leafRecords f, s.holds q r = .ok (s.holds q r).isYes :=
      fun r hr ↦ Answer.eq_ok_isYes (Forest.exists_visibility_iff.mp ⟨v, hv⟩ r hr)
    rw [Forest.visibility, Forest.visitAll_eq_ok f hyes] at hv
    refine ⟨_, Forest.isShowing_showsLeaf hall fun r hr ↦ ?_, (Except.ok.inj hv).symm⟩
    rw [hyes r hr]
    simp [Answer.isYes, Except.toOption]

/-- **What is shown.** For a query that can be read, a forest of any shape can be filtered exactly when the
query matches everything or goes wrong on the record of no leaf. There is one right choice then of the nodes
to show: all of them if the query matches everything, else the leaves whose record it finds and the nodes
with a child that is shown. What lies above a node that is shown is shown. The counts and the paths are
those of this choice, and a forest of records has as many paths that are shown as nodes. -/
theorem filterForest_shows (hq : s.parse text = .ok q) (f : Forest) :
    ((∃ v, s.filterForest f text = .ok v) ↔ q.isMatchAll = true ∨
      ∀ b ∈ Forest.nodes f, b.isLeaf = true → ∃ passed, s.holds q b.record = .ok passed) ∧
    ∀ v, s.filterForest f text = .ok v → ∃ shown : Branch → Bool,
      f.IsShowing (q.isMatchAll = true) (fun r ↦ s.holds q r = .ok true) shown ∧
      (∀ shown', f.IsShowing (q.isMatchAll = true) (fun r ↦ s.holds q r = .ok true) shown' →
        ∀ b ∈ Forest.nodes f, shown' b = shown b) ∧
      (∀ b ∈ Forest.nodes f, ∀ c ∈ Forest.nodes b.children, shown c = true → shown b = true) ∧
      v.Summarizes f shown ∧
      ∀ records, f = Forest.ofRecords records → v.visible = v.paths.length := by
  refine ⟨exists_filterForest_iff hq f, fun v hv ↦ ?_⟩
  obtain ⟨shown, hshown, rfl⟩ := exists_isShowing_of_filterForest hq hv
  have hsummary := Visibility.summarizes_tally f shown
  refine ⟨shown, hshown, ?_, ?_, hsummary, ?_⟩
  · intro shown' hshown' b hb
    exact hshown'.eq_of_mem_nodes hshown hb
  · intro b hb c hc
    exact hshown.above hb hc
  · rintro records rfl
    exact hsummary.visible_eq_length_paths (Forest.nodup_paths records)

/-- A forest that no records have: a leaf with a node below it, and two nodes with one path. -/
def unrulyForest : Forest :=
  [.node (.ofPath "a") [.node (.ofPath "a/b") [] true] false,
    .node (.ofPath "b") [.node (.ofPath "c") [] true] true, .node (.ofPath "b") [] true]

/-- Four nodes of the unruly forest are shown, under three paths. -/
theorem filterForest_shows_of_unrulyForest :
    ∃ q, (Search.mk "path" none).parse "b" = .ok q ∧
      ∃ shown, unrulyForest.IsShowing (q.isMatchAll = true)
          (fun r ↦ (Search.mk "path" none).holds q r = .ok true) shown ∧
        (Visibility.mk ["a", "a/b", "b"] 5 3 1).Summarizes unrulyForest shown := by
  obtain ⟨q, hq⟩ : ∃ q, (Search.mk "path" none).parse "b" = .ok q := ⟨_, by cbv⟩
  have hv : (Search.mk "path" none).filterForest unrulyForest "b" = .ok ⟨["a", "a/b", "b"], 5, 3, 1⟩ := by
    cbv
  obtain ⟨shown, hshown, -, -, hsummary, -⟩ := (filterForest_shows hq unrulyForest).2 _ hv
  exact ⟨q, hq, shown, hshown, hsummary⟩

end Search

end NoteQuery
