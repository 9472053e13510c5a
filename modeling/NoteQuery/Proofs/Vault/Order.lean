import Mathlib
import NoteQuery.Proofs.Forest.Order
import NoteQuery.Proofs.Vault.Loading

/-!
# The order of a vault

The notes of a vault are loaded in the order of their paths, compared segment by segment and not as
texts, and none of them lies below another, since a file is no directory. In this order the notes of a
folder stand together, so the forest of the records has them as its leaves in the same order.
-/

namespace NoteQuery.Vault

variable {files : List VaultFile} {extensions : List String} {rs : List Record}

/-! ## Paths in order -/

theorem pathLe_iff {p q : List String} : pathLe p q = true ↔ p ≤ q := by
  induction p generalizing q with
  | nil => exact iff_of_true rfl (not_lt.mp (List.not_lt_nil q))
  | cons s p ih =>
    cases q with
    | nil => exact iff_of_false Bool.false_ne_true (not_le.mpr (List.nil_lt_cons s p))
    | cons t q =>
      have hcons : s :: p ≤ t :: q ↔ ¬(t < s ∨ t = s ∧ q < p) := by rw [← not_lt, List.cons_lt_cons_iff]
      rw [pathLe, hcons]
      by_cases hst : s = t
      · rw [if_pos hst, ih, ← not_lt]
        simp only [hst, lt_irrefl, true_and, false_or]
      · rw [if_neg hst, decide_eq_true_eq, ← not_lt]
        exact not_congr ⟨.inl, fun h ↦ h.resolve_right fun heq ↦ hst heq.1.symm⟩

/-- Whether files can be those of a directory. -/
structure IsVault (files : List VaultFile) : Prop where
  /-- Every path is one or more names. -/
  named : ∀ f ∈ files, f.path ≠ [] ∧ ∀ s ∈ f.path, IsSegment s
  /-- No two files have one path. -/
  distinct : (files.map VaultFile.path).Nodup
  /-- No file lies in another. -/
  unnested : ∀ f ∈ files, ∀ g ∈ files, ¬Forest.IsAbove f.path g.path

theorem mem_noteFiles {f : VaultFile} :
    f ∈ noteFiles files extensions ↔ f ∈ files ∧ f.isNote extensions = true := by
  rw [noteFiles, List.mem_mergeSort, List.mem_filter]

theorem IsVault.pairwise_noteFiles (h : IsVault files) (extensions : List String) :
    (noteFiles files extensions).Pairwise fun f g ↦ f.path < g.path := by
  have hsorted : (noteFiles files extensions).Pairwise fun f g ↦ f.path ≤ g.path := by
    have htotal : ∀ f g : VaultFile, (pathLe f.path g.path || pathLe g.path f.path) = true := by
      intro f g
      rw [Bool.or_eq_true, pathLe_iff, pathLe_iff]
      exact le_total f.path g.path
    have htrans : ∀ f g k : VaultFile, pathLe f.path g.path = true → pathLe g.path k.path = true →
        pathLe f.path k.path = true := by
      intro f g k
      rw [pathLe_iff, pathLe_iff, pathLe_iff]
      exact le_trans
    exact (List.pairwise_mergeSort htrans htotal _).imp pathLe_iff.mp
  have hdistinct : (noteFiles files extensions).Pairwise fun f g ↦ f.path ≠ g.path := by
    have hnodup : ((files.filter (·.isNote extensions)).map VaultFile.path).Nodup :=
      h.distinct.sublist (List.filter_sublist.map _)
    rw [← List.pairwise_map (f := VaultFile.path) (R := fun p q ↦ p ≠ q)]
    exact ((List.mergeSort_perm _ _).map _).nodup_iff.mpr hnodup
  exact hsorted.imp₂ (fun _ _ ↦ lt_of_le_of_ne) hdistinct

/-! ## Records in order -/

theorem paths_records (hrs : records files extensions = .ok rs) :
    rs.map Record.path = (noteFiles files extensions).map fun f ↦ pathOf f.path := by
  rw [records, load] at hrs
  cases hstopped : (readAll (noteFiles files extensions)).stopped with
  | some fault => rw [hstopped] at hrs; cases hrs
  | none =>
    rw [hstopped] at hrs
    cases hrs
    rw [← List.forall₂_eq_eq_eq, List.forall₂_map_left_iff, List.forall₂_map_right_iff]
    refine List.Forall₂.flip ((forall₂_of_readAll hstopped).imp ?_)
    rintro f r ⟨frontmatter, -, rfl⟩
    rfl

theorem IsVault.places_records (h : IsVault files) (hrs : records files extensions = .ok rs) :
    rs.map (fun r ↦ segments r.path) = (noteFiles files extensions).map VaultFile.path := by
  calc rs.map (fun r ↦ segments r.path) = (rs.map Record.path).map segments := by
        rw [List.map_map]
        rfl
    _ = (noteFiles files extensions).map fun f ↦ segments (pathOf f.path) := by
        rw [paths_records hrs, List.map_map]
        rfl
    _ = (noteFiles files extensions).map VaultFile.path :=
        List.map_congr_left fun f hf ↦ segments_pathOf (h.named f (mem_noteFiles.mp hf).1).2

theorem IsVault.exists_noteFile (h : IsVault files) (hrs : records files extensions = .ok rs)
    {r : Record} (hr : r ∈ rs) :
    ∃ f ∈ files, f.isNote extensions = true ∧ segments r.path = f.path := by
  have hplace : segments r.path ∈ (noteFiles files extensions).map VaultFile.path := by
    rw [← h.places_records hrs]
    exact List.mem_map_of_mem hr
  obtain ⟨f, hf, hpath⟩ := List.mem_map.mp hplace
  obtain ⟨hfile, hnote⟩ := mem_noteFiles.mp hf
  exact ⟨f, hfile, hnote, hpath.symm⟩

theorem IsVault.areSorted_records (h : IsVault files) (hrs : records files extensions = .ok rs) :
    Forest.AreSorted rs := by
  have hsorted := h.pairwise_noteFiles extensions
  rwa [← List.pairwise_map, ← h.places_records hrs, List.pairwise_map] at hsorted

theorem IsVault.pathsApart_records (h : IsVault files) (hrs : records files extensions = .ok rs) :
    PathsApart rs := by
  refine ⟨fun r hr ↦ ?_, (h.areSorted_records hrs).nodup, fun r hr r' hr' ↦ ?_⟩
  · obtain ⟨f, hf, -, hpath⟩ := h.exists_noteFile hrs hr
    rw [hpath]
    exact (h.named f hf).1
  · obtain ⟨f, hf, -, hpath⟩ := h.exists_noteFile hrs hr
    obtain ⟨g, hg, -, hpath'⟩ := h.exists_noteFile hrs hr'
    rw [hpath, hpath']
    exact h.unnested f hf g hg

theorem head?_ne_of_isNote {f : VaultFile} (h : f.isNote extensions = true) {s : String}
    (hs : s ∈ f.path) : s.toList.head? ≠ some '.' := by
  rw [VaultFile.isNote, VaultFile.isNotePath, Bool.and_eq_true, VaultFile.isHiddenPath,
    Bool.not_eq_true', List.any_eq_false] at h
  exact fun hpoint ↦ h.1 s hs (decide_eq_true hpoint)

/-- **A vault in order.** The records of a vault stand in the order of their paths, compared segment by
segment. No two have one path, none lies below another, and no segment begins with a point. The leaves
of their forest, read from the first to the last, are these records, and the path of every folder above
a record is that of one node. -/
theorem forest_lists_records_in_order (h : IsVault files)
    (hrs : records files extensions = .ok rs) :
    (rs.Pairwise fun r r' ↦ segments r.path < segments r'.path) ∧
    (rs.map Record.path).Nodup ∧
    (∀ r ∈ rs, ∀ r' ∈ rs, ¬Forest.IsAbove (segments r.path) (segments r'.path)) ∧
    (∀ r ∈ rs, ∀ s ∈ segments r.path, s.toList.head? ≠ some '.') ∧
    Forest.leafRecords (Forest.ofRecords rs) = rs ∧
    ∀ r ∈ rs, ∀ p ≠ [], Forest.IsAbove p (segments r.path) →
      ((Forest.nodes (Forest.ofRecords rs)).map Branch.path).count (pathOf p) = 1 ∧
        ∀ b ∈ Forest.nodes (Forest.ofRecords rs), b.path = pathOf p → b.isLeaf = false := by
  have hsorted := h.areSorted_records hrs
  have hapart := h.pathsApart_records hrs
  have hpaths : (rs.map Record.path).Nodup := by
    refine List.Nodup.of_map segments ?_
    rw [List.map_map]
    exact hapart.distinct
  have hpoints : ∀ r ∈ rs, ∀ s ∈ segments r.path, s.toList.head? ≠ some '.' := by
    intro r hr s hs
    obtain ⟨f, -, hnote, hpath⟩ := h.exists_noteFile hrs hr
    exact head?_ne_of_isNote hnote (hpath ▸ hs)
  exact ⟨hsorted, hpaths, hapart.unnested, hpoints, hsorted.leafRecords_ofRecords hapart,
    fun r hr p hp habove ↦ hapart.count_path_folder hr hp habove⟩

/-- A folder comes before a file whose name goes on with a blank, though a blank comes before a slash. -/
theorem forest_lists_records_in_order_of_folder_first :
    IsVault [⟨["a b.md"], []⟩, ⟨["a", "x.md"], []⟩] ∧
    ∃ rs, records [⟨["a b.md"], []⟩, ⟨["a", "x.md"], []⟩] [".md"] = .ok rs ∧
      rs.map Record.path = ["a/x.md", "a b.md"] ∧
      Forest.leafRecords (Forest.ofRecords rs) = rs := by
  have hvault : IsVault [⟨["a b.md"], []⟩, ⟨["a", "x.md"], []⟩] := by
    refine ⟨?_, ?_, ?_⟩ <;> decide
  have hrs : records [⟨["a b.md"], []⟩, ⟨["a", "x.md"], []⟩] [".md"]
      = .ok [Record.ofPath "a/x.md", Record.ofPath "a b.md"] := by cbv
  have hlisted := forest_lists_records_in_order hvault hrs
  exact ⟨hvault, _, hrs, rfl, hlisted.2.2.2.2.1⟩

end NoteQuery.Vault
