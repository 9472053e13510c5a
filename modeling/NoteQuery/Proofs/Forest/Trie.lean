import Mathlib.Data.List.Induction
import Mathlib.Data.List.Sort
import NoteQuery.Proofs.Forest.Insertion

/-!
# The forest as a trie

What the forest of some records is, said without the way it is built: which places have a node, which
nodes lie under which and in what order, and what record each node has. This leaves nothing open. A
forest of which it holds is the forest of the records, and that is also what putting the records into
folders one after the other comes to.

Places are read off the paths of nodes. The path of a node comes from its record or, where there is
none, from the segments of its place; both have the place as their segments, so no two nodes share a
path even though records may.
-/

namespace NoteQuery

/-- The place of a node: the segments of its path. -/
def Branch.place (b : Branch) : List String := segments b.path

theorem Branch.eq_of_parts {b c : Branch} (hrecord : b.record = c.record)
    (hchildren : b.children = c.children) (hleaf : b.isLeaf = c.isLeaf) : b = c := by
  obtain ⟨record, children, isLeaf⟩ := b
  obtain ⟨record', children', isLeaf'⟩ := c
  cases show record = record' from hrecord
  cases show children = children' from hchildren
  cases show isLeaf = isLeaf' from hleaf
  rfl

namespace Forest

variable {records : List Record} {start : List String} {f : Forest}

/-- The number of records before the first at a place or below it. -/
def firstBelow (records : List Record) (p : List String) : Nat :=
  records.findIdx fun r ↦ p.isPrefixOf (segments r.path)

/-- Whether a record is the last one of a place. -/
def IsLastAt (records : List Record) (p : List String) (r : Record) : Prop :=
  ∃ before after, records = before ++ r :: after ∧ segments r.path = p ∧
    ∀ r' ∈ after, segments r'.path ≠ p

/-- Whether some nodes have the places one segment below a place, in order of first appearance. -/
structure AreNextPlaces (records : List Record) (start : List String) (f : Forest) : Prop where
  /-- The places one segment longer that a record is at or below. -/
  mem_iff : ∀ p, p ∈ f.map Branch.place ↔
    (∃ s, p = start ++ [s]) ∧ ∃ r ∈ records, p <+: segments r.path
  /-- The place that appears first comes first. -/
  ordered : (f.map Branch.place).Pairwise fun p q ↦ firstBelow records p < firstBelow records q

/-- Whether a node is what some records have at its place, its children apart. -/
structure IsNodeOf (records : List Record) (b : Branch) : Prop where
  /-- It has the last record of its place, or none but its path. -/
  record : IsLastAt records b.place b.record ∨
    (∀ r ∈ records, segments r.path ≠ b.place) ∧ b.record = Record.ofPath (pathOf b.place)
  /-- It is a leaf if there is a record of its place and none below. -/
  isLeaf_iff : b.isLeaf = true ↔ (∃ r ∈ records, segments r.path = b.place) ∧
    ∀ r ∈ records, ¬IsAbove b.place (segments r.path)

/-- Whether a forest is the trie of the paths of some records. -/
structure IsPathTrie (records : List Record) (f : Forest) : Prop where
  /-- No place has two nodes. -/
  nodup : ((nodes f).map Branch.place).Nodup
  /-- The places are the prefixes of paths. -/
  mem_iff : ∀ p, p ∈ (nodes f).map Branch.place ↔ p ≠ [] ∧ ∃ r ∈ records, p <+: segments r.path
  /-- The trees are at the places of one segment. -/
  roots : AreNextPlaces records [] f
  /-- The children of a node are at the places one segment longer. -/
  children : ∀ b ∈ nodes f, AreNextPlaces records b.place b.children
  /-- Every node is what the records have at its place. -/
  isNodeOf : ∀ b ∈ nodes f, IsNodeOf records b

/-! ## The last record of a place -/

theorem recordAt?_entries_eq_none_iff {p : List String} :
    recordAt? (entries records) p = none ↔ ∀ r ∈ records, segments r.path ≠ p := by
  constructor
  · intro h r hr hp
    obtain ⟨r', hr'⟩ : ∃ r', recordAt? (entries records) (segments r.path) = some r' :=
      exists_recordAt? (e := (segments r.path, r)) (mem_entries.mpr ⟨hr, rfl⟩)
    rw [hp, h] at hr'
    cases hr'
  · intro h
    cases hrecord : recordAt? (entries records) p with
    | none => rfl
    | some r =>
      obtain ⟨hr, hp⟩ := mem_entries.mp (mem_of_recordAt? hrecord)
      exact absurd hp (h r hr)

theorem recordAt?_entries_eq_some_iff {p : List String} {r : Record} :
    recordAt? (entries records) p = some r ↔ IsLastAt records p r := by
  constructor
  · induction records using List.reverseRecOn with
    | nil =>
      intro h
      cases h
    | append_singleton records r' ih =>
      intro h
      rw [entries, List.map_append, List.map_singleton, recordAt?_concat] at h
      by_cases hp : p = segments r'.path
      · rw [if_pos hp] at h
        cases h
        exact ⟨records, [], rfl, hp.symm, List.forall_mem_nil _⟩
      · rw [if_neg hp] at h
        obtain ⟨before, after, rfl, hplace, hlast⟩ := ih h
        refine ⟨before, after ++ [r'], by simp, hplace, fun r'' hr'' ↦ ?_⟩
        rcases List.mem_append.mp hr'' with hr'' | hr''
        · exact hlast r'' hr''
        · rw [List.mem_singleton.mp hr'']
          exact Ne.symm hp
  · rintro ⟨before, after, rfl, hplace, hlast⟩
    have hafter : (entries after).filter (fun e ↦ e.1 = p) = [] := by
      rw [List.filter_eq_nil_iff]
      intro e he
      obtain ⟨he, hpath⟩ := mem_entries.mp he
      rw [← hpath, decide_eq_true_eq]
      exact hlast e.2 he
    have hr : (entries (r :: after)).filter (fun e ↦ e.1 = p) = [(segments r.path, r)] := by
      rw [← hafter]
      exact List.filter_cons_of_pos (decide_eq_true hplace)
    have hsplit : entries (before ++ r :: after) = entries before ++ entries (r :: after) :=
      List.map_append
    rw [recordAt?, hsplit, List.filter_append, hr, List.getLast?_concat, Option.map_some]

/-! ## The forest of some records is a trie -/

theorem places_under (records : List Record) (start : List String) :
    (under (entries records) start).map Branch.place
      = (nextSegments (entries records) start).map fun s ↦ start ++ [s] := by
  rw [under_eq, List.map_map]
  refine List.map_congr_left fun s hs ↦ ?_
  obtain ⟨e, he, hpre⟩ := mem_nextSegments.mp hs
  exact segments_path_node he hpre

theorem firstBelow_concat (records : List Record) (start : List String) (s : String) :
    firstBelow records (start ++ [s])
      = (entries records).findIdx fun e ↦ nextSegment? start e.1 == some s := by
  rw [firstBelow, entries, List.findIdx_map]
  congr 1
  funext r
  rw [Bool.eq_iff_iff, Function.comp_apply, beq_iff_eq, nextSegment?_eq_some_iff,
    List.isPrefixOf_iff_prefix]

theorem areNextPlaces_under (records : List Record) (start : List String) :
    AreNextPlaces records start (under (entries records) start) := by
  constructor
  · intro p
    rw [places_under, List.mem_map]
    constructor
    · rintro ⟨s, hs, rfl⟩
      obtain ⟨e, he, hpre⟩ := mem_nextSegments.mp hs
      obtain ⟨hr, hpath⟩ := mem_entries.mp he
      exact ⟨⟨s, rfl⟩, e.2, hr, hpath ▸ hpre⟩
    · rintro ⟨⟨s, rfl⟩, r, hr, hpre⟩
      have hentry : (segments r.path, r) ∈ entries records := mem_entries.mpr ⟨hr, rfl⟩
      exact ⟨s, mem_nextSegments.mpr ⟨_, hentry, hpre⟩, rfl⟩
  · rw [places_under, List.pairwise_map, nextSegments]
    refine (Text.pairwise_findIdx_distinct _ _).imp fun {s t} hst ↦ ?_
    rwa [firstBelow_concat, firstBelow_concat]

theorem record_eq_getD_iff {p : List String} {r : Record} :
    r = (recordAt? (entries records) p).getD (Record.ofPath (pathOf p)) ↔
      IsLastAt records p r ∨ (∀ r' ∈ records, segments r'.path ≠ p) ∧ r = Record.ofPath (pathOf p) := by
  rw [← recordAt?_entries_eq_some_iff, ← recordAt?_entries_eq_none_iff]
  cases recordAt? (entries records) p with
  | none => simp
  | some r' => simp [eq_comm]

theorem isSome_and_isEmpty_iff {p : List String} :
    ((recordAt? (entries records) p).isSome && (under (entries records) p).isEmpty) = true ↔
      (∃ r ∈ records, segments r.path = p) ∧ ∀ r ∈ records, ¬IsAbove p (segments r.path) := by
  have hsome : (recordAt? (entries records) p).isSome = true ↔ ∃ r ∈ records, segments r.path = p := by
    rw [Option.isSome_iff_ne_none, ne_eq, recordAt?_entries_eq_none_iff]
    simp
  have hempty : (under (entries records) p).isEmpty = true ↔
      ∀ r ∈ records, ¬IsAbove p (segments r.path) := by
    rw [List.isEmpty_iff, under_eq_nil_iff, entries, List.forall_mem_map]
  rw [Bool.and_eq_true, hsome, hempty]

/-- A node is what some records have at its place exactly when it is the node there, its children
apart. -/
theorem isNodeOf_iff {b : Branch} : IsNodeOf records b ↔
    b.record = (node (entries records) b.place).record ∧
      b.isLeaf = (node (entries records) b.place).isLeaf := by
  rw [record_node, isLeaf_node, record_eq_getD_iff, Bool.eq_iff_iff, isSome_and_isEmpty_iff]
  exact ⟨fun h ↦ ⟨h.record, h.isLeaf_iff⟩, fun h ↦ ⟨h.1, h.2⟩⟩

theorem isPathTrie_ofRecords (records : List Record) : IsPathTrie records (ofRecords records) := by
  rw [ofRecords_eq_under]
  have hnode : ∀ b ∈ nodes (under (entries records) []),
      IsAbove [] b.place ∧ b = node (entries records) b.place :=
    fun b hb ↦ segments_path_of_mem_nodes hb
  constructor
  · exact nodup_places records []
  · intro p
    rw [List.mem_map]
    constructor
    · rintro ⟨b, hb, rfl⟩
      obtain ⟨q, hq, ⟨e, he, hpre⟩, rfl⟩ := mem_nodes_under.mp hb
      rw [Branch.place, segments_path_node he hpre]
      obtain ⟨hr, hpath⟩ := mem_entries.mp he
      exact ⟨hq.2.symm, e.2, hr, hpath ▸ hpre⟩
    · rintro ⟨hne, r, hr, hpre⟩
      have hentry : (segments r.path, r) ∈ entries records := mem_entries.mpr ⟨hr, rfl⟩
      exact ⟨node (entries records) p,
        mem_nodes_under.mpr ⟨p, ⟨List.nil_prefix, hne.symm⟩, ⟨_, hentry, hpre⟩, rfl⟩,
        segments_path_node hentry hpre⟩
  · exact areNextPlaces_under records []
  · intro b hb
    have hchildren : b.children = under (entries records) b.place := by
      rw [(hnode b hb).2, children_node, ← (hnode b hb).2]
    rw [hchildren]
    exact areNextPlaces_under records b.place
  · intro b hb
    rw [isNodeOf_iff, ← (hnode b hb).2]
    exact ⟨rfl, rfl⟩

/-! ## A trie is the forest of its records -/

/-- The places decide in which order nodes stand. -/
theorem AreNextPlaces.places_eq {g : Forest} (hf : AreNextPlaces records start f)
    (hg : AreNextPlaces records start g) : f.map Branch.place = g.map Branch.place := by
  let before (p q : List String) : Prop := firstBelow records p < firstBelow records q
  have hirrefl : Std.Irrefl before := ⟨fun p ↦ Nat.lt_irrefl _⟩
  have hantisymm : Std.Antisymm before := ⟨fun p q hpq hqp ↦ absurd hqp (Nat.lt_asymm hpq)⟩
  exact hf.ordered.eq_of_mem_iff hg.ordered fun p ↦ (hf.mem_iff p).trans (hg.mem_iff p).symm

/-- Nodes whose places and records are right all the way down are the nodes under a place. -/
theorem eq_under_of_areNextPlaces (hf : AreNextPlaces records start f)
    (hchildren : ∀ b ∈ nodes f, AreNextPlaces records b.place b.children)
    (hnodes : ∀ b ∈ nodes f, IsNodeOf records b) : f = under (entries records) start := by
  induction start using @place_induction (entries records) generalizing f with
  | step start ih =>
    have hplaces := hf.places_eq (areNextPlaces_under records start)
    rw [places_under] at hplaces
    have hbranch : ∀ b ∈ f, b = node (entries records) b.place := by
      intro b hb
      have hmem : ∀ c ∈ b.nodes, c ∈ nodes f := by
        intro c hc
        rw [nodes_eq_flatMap]
        exact List.mem_flatMap.mpr ⟨b, hb, hc⟩
      have hself : b ∈ nodes f := hmem b (by rw [nodes_branch]; exact List.mem_cons_self)
      have hbelow : ∀ c ∈ nodes b.children, c ∈ nodes f :=
        fun c hc ↦ hmem c (by rw [nodes_branch]; exact List.mem_cons_of_mem b hc)
      -- the place of `b` is a step longer, so what is below it is known
      obtain ⟨s, hs, hplace⟩ := List.mem_map.mp (hplaces ▸ List.mem_map_of_mem hb)
      have hunder : b.children = under (entries records) b.place := by
        rw [← hplace]
        refine ih s hs ?_ (fun c hc ↦ hchildren c (hbelow c hc)) fun c hc ↦ hnodes c (hbelow c hc)
        rw [hplace]
        exact hchildren b hself
      obtain ⟨hrecord, hleaf⟩ := isNodeOf_iff.mp (hnodes b hself)
      exact Branch.eq_of_parts hrecord (hunder.trans (children_node _ _).symm) hleaf
    calc f = f.map fun b ↦ node (entries records) b.place :=
          (List.map_id f).symm.trans (List.map_congr_left hbranch)
      _ = (f.map Branch.place).map (node (entries records)) := by rw [List.map_map]; rfl
      _ = under (entries records) start := by rw [hplaces, under_eq, List.map_map]; rfl

/-- **The trie of paths.** The forest of some records is the one trie of their paths. No two of its
nodes have one path, and it is what the records make when they are put into folders one after the
other. -/
theorem isPathTrie_iff_eq_ofRecords (records : List Record) :
    (∀ f, IsPathTrie records f ↔ f = ofRecords records) ∧
    ((nodes (ofRecords records)).map Branch.path).Nodup ∧
    ofRecords records = (Folder.ofEntries (entries records)).forest := by
  refine ⟨fun f ↦ ⟨fun h ↦ ?_, ?_⟩, nodup_paths records, ofRecords_eq_forest records⟩
  · exact eq_under_of_areNextPlaces h.roots h.children h.isNodeOf
  · rintro rfl
    exact isPathTrie_ofRecords records

end Forest

end NoteQuery
