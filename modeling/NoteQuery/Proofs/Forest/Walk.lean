import NoteQuery.Forest.Visibility
import NoteQuery.Proofs.Outcome

/-!
# The walk through a forest

The walk meets every node once, a node before what is below it, so what it finds is a list over
`Forest.nodes`. A node is shown exactly when a record passes the test among those of the leaves at it
and below it, and the walk goes wrong exactly when the test goes wrong on one of these records.
Nothing is assumed of the forest: leaves may have children and paths may be repeated.
-/

namespace NoteQuery

/-! ## Nodes -/

mutual

/-- A node and all nodes below it, a node before its children. -/
def Branch.nodes : Branch → List Branch
  | .node record children isLeaf => .node record children isLeaf :: Forest.nodes children

/-- The nodes of a forest, a node before its children. -/
def Forest.nodes : List Branch → List Branch
  | [] => []
  | b :: bs => b.nodes ++ Forest.nodes bs

end

namespace Forest

mutual

theorem leavesOf_eq_nodes (b : Branch) :
    leavesOf b = (b.nodes.filter (·.isLeaf)).map Branch.record := by
  obtain ⟨record, children, isLeaf⟩ := b
  rw [leavesOf, Branch.nodes, leafRecords_eq_nodes children, List.filter_cons]
  cases isLeaf <;> rfl

theorem leafRecords_eq_nodes (f : Forest) :
    leafRecords f = ((nodes f).filter (·.isLeaf)).map Branch.record := by
  cases f with
  | nil => rfl
  | cons b bs =>
    rw [leafRecords, nodes, List.filter_append, List.map_append, leavesOf_eq_nodes b,
      leafRecords_eq_nodes bs]

end

theorem leavesOf_of_children_eq_nil {b : Branch} (hleaf : b.isLeaf = true) (h : b.children = []) :
    leavesOf b = [b.record] := by
  obtain ⟨record, children, isLeaf⟩ := b
  cases show isLeaf = true from hleaf
  cases show children = [] from h
  rfl

theorem leavesOf_of_folder {b : Branch} (h : b.isLeaf = false) :
    leavesOf b = leafRecords b.children := by
  obtain ⟨record, children, isLeaf⟩ := b
  cases show isLeaf = false from h
  rfl

/-! ## The walk without a fault -/

/-- The visit of a node that is shown or not. -/
def visitOf (shown : Branch → Bool) (b : Branch) : Visit := ⟨b.path, b.isLeaf, shown b⟩

/-- Whether a record passes among those of the leaves at a node and below it. -/
def showsLeaf (passes : Record → Bool) (b : Branch) : Bool := (leavesOf b).any passes

variable {test : Record → Answer Bool} {passes : Record → Bool}

mutual

theorem visit_eq_ok (b : Branch) (h : ∀ r ∈ leavesOf b, test r = .ok (passes r)) :
    visit (some test) b = .ok (b.nodes.map (visitOf (showsLeaf passes))) := by
  obtain ⟨record, children, isLeaf⟩ := b
  rw [leavesOf] at h
  rw [visit, visitAll_eq_ok children fun r hr ↦ h r (List.mem_append_right _ hr), Branch.nodes,
    List.map_cons, visitOf, showsLeaf, leavesOf]
  cases isLeaf with
  | false => rfl
  | true =>
    change (test record >>= _) = _
    rw [h record List.mem_cons_self]
    rfl

/-- **The walk.** Where the test goes wrong on no leaf, the nodes with a leaf that passes are shown. -/
theorem visitAll_eq_ok (f : Forest) (h : ∀ r ∈ leafRecords f, test r = .ok (passes r)) :
    visitAll (some test) f
      = .ok ((nodes f).map (visitOf (showsLeaf passes)), (leafRecords f).any passes) := by
  cases f with
  | nil => rfl
  | cons b bs =>
    rw [leafRecords] at h
    rw [visitAll, visit_eq_ok b fun r hr ↦ h r (List.mem_append_left _ hr),
      visitAll_eq_ok bs fun r hr ↦ h r (List.mem_append_right _ hr), nodes, List.map_append,
      leafRecords, List.any_append]
    obtain ⟨record, children, isLeaf⟩ := b
    rfl

end

mutual

theorem visit_none (b : Branch) : visit none b = .ok (b.nodes.map (visitOf fun _ ↦ true)) := by
  obtain ⟨record, children, isLeaf⟩ := b
  rw [visit, visitAll_none children, Branch.nodes]
  rfl

theorem visitAll_none (f : Forest) :
    visitAll none f = .ok ((nodes f).map (visitOf fun _ ↦ true), !f.isEmpty) := by
  cases f with
  | nil => rfl
  | cons b bs =>
    rw [visitAll, visit_none b, visitAll_none bs, nodes, List.map_append]
    obtain ⟨record, children, isLeaf⟩ := b
    rfl

end

/-! ## The counts of a walk -/

section Counts

variable (shown : Branch → Bool) (bs : List Branch)

theorem mem_paths_tally {p : String} :
    p ∈ (tally (bs.map (visitOf shown))).paths ↔ ∃ b ∈ bs, shown b = true ∧ b.path = p := by
  simp [tally, visitOf, and_assoc]

theorem leaves_tally :
    (tally (bs.map (visitOf shown))).leaves = bs.countP fun b ↦ b.isLeaf && shown b := by
  simp [tally, visitOf, List.countP_filter, List.countP_map, Function.comp_def]

theorem folders_tally :
    (tally (bs.map (visitOf shown))).folders = bs.countP fun b ↦ !b.isLeaf && shown b := by
  simp [tally, visitOf, List.countP_filter, List.countP_map, Function.comp_def]

/-- Every node that is shown is counted once, with the leaves or with the folders. -/
theorem visible_tally : (tally (bs.map (visitOf shown))).visible = bs.countP shown := by
  rw [Visibility.visible, leaves_tally, folders_tally]
  induction bs with
  | nil => rfl
  | cons b bs ih =>
    cases hleaf : b.isLeaf <;> cases hshown : shown b <;> simp [hleaf, hshown] <;> omega

end Counts

/-! ## Faults -/

mutual

theorem exists_ok_of_visit_eq_ok {b : Branch} {visits : List Visit}
    (h : visit (some test) b = .ok visits) {r : Record} (hr : r ∈ leavesOf b) :
    ∃ passed, test r = .ok passed := by
  obtain ⟨record, children, isLeaf⟩ := b
  rw [visit] at h
  rw [leavesOf, List.mem_append] at hr
  cases isLeaf with
  | false =>
    obtain ⟨matched, -, h⟩ := exists_of_bind_eq_ok h
    obtain ⟨below, hbelow, -⟩ := exists_of_bind_eq_ok h
    exact exists_ok_of_visitAll_eq_ok hbelow (hr.resolve_left List.not_mem_nil)
  | true =>
    obtain ⟨matched, hmatched, h⟩ := exists_of_bind_eq_ok h
    obtain ⟨below, hbelow, -⟩ := exists_of_bind_eq_ok h
    rcases hr with hr | hr
    · rw [List.mem_singleton.mp hr]
      exact ⟨matched, hmatched⟩
    · exact exists_ok_of_visitAll_eq_ok hbelow hr

theorem exists_ok_of_visitAll_eq_ok {f : Forest} {found : List Visit × Bool}
    (h : visitAll (some test) f = .ok found) {r : Record} (hr : r ∈ leafRecords f) :
    ∃ passed, test r = .ok passed := by
  cases f with
  | nil => exact nomatch hr
  | cons b bs =>
    rw [visitAll] at h
    obtain ⟨here, hhere, h⟩ := exists_of_bind_eq_ok h
    obtain ⟨more, hmore, -⟩ := exists_of_bind_eq_ok h
    rw [leafRecords, List.mem_append] at hr
    rcases hr with hr | hr
    · exact exists_ok_of_visit_eq_ok hhere hr
    · exact exists_ok_of_visitAll_eq_ok hmore hr

end

end Forest

/-- The answer of a test as a truth value; where the test goes wrong it counts as false. -/
def Answer.isYes (a : Answer Bool) : Bool := a.toOption.getD false

theorem Answer.eq_ok_isYes {a : Answer Bool} (h : ∃ b, a = .ok b) : a = .ok a.isYes := by
  obtain ⟨b, rfl⟩ := h
  rfl

/-- A forest can be walked exactly when the test goes wrong on no leaf. -/
theorem Forest.exists_visibility_iff {test : Record → Answer Bool} {f : Forest} :
    (∃ v, visibility (some test) f = .ok v) ↔ ∀ r ∈ leafRecords f, ∃ passed, test r = .ok passed := by
  constructor
  · rintro ⟨v, hv⟩ r hr
    obtain ⟨found, hfound⟩ | ⟨fault, hfault⟩ := exists_ok_or_exists_error (visitAll (some test) f)
    · exact exists_ok_of_visitAll_eq_ok hfound hr
    · rw [visibility, hfault] at hv
      exact nomatch hv
  · intro h
    have hyes : ∀ r ∈ leafRecords f, test r = .ok (test r).isYes :=
      fun r hr ↦ Answer.eq_ok_isYes (h r hr)
    rw [visibility, visitAll_eq_ok f hyes]
    exact ⟨_, rfl⟩

end NoteQuery
