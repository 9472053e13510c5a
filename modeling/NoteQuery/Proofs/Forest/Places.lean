import Mathlib.Data.List.Nodup
import NoteQuery.Proofs.Forest.Walk
import NoteQuery.Proofs.Text.Distinct
import NoteQuery.Proofs.Text.Splitting

/-!
# The places of a forest

The forest of some records has one node for every place, which is a prefix of the segments of some
path. The bound on the recursion that builds it plays no part: what lies under a place is the list of
the nodes of the places one segment longer, and this equation is all that the proofs here use. They go
by induction from longer places to shorter ones.
-/

namespace NoteQuery

/-! ## Segments -/

/-- Whether a text can be a segment of a path: it is not empty and holds no slash. -/
def IsSegment (s : String) : Prop := s.toList ≠ [] ∧ '/' ∉ s.toList

instance (s : String) : Decidable (IsSegment s) := inferInstanceAs (Decidable (_ ∧ _))

theorem isSegment_of_mem_segments {path s : String} (h : s ∈ segments path) : IsSegment s := by
  rw [segments] at h
  obtain ⟨cs, hcs, rfl⟩ := List.mem_map.mp h
  rw [List.mem_filter] at hcs
  rw [IsSegment, String.toList_ofList]
  exact ⟨by simpa using hcs.2, Text.not_mem_of_mem_splitOn hcs.1⟩

theorem segments_pathOf {p : List String} (h : ∀ s ∈ p, IsSegment s) : segments (pathOf p) = p := by
  have hlist : (pathOf p).toList = ['/'].intercalate (p.map String.toList) := by
    rw [pathOf, String.toList_intercalate]
    rfl
  cases p with
  | nil => rfl
  | cons s p =>
    have hsplit : Text.splitOn '/' (pathOf (s :: p)).toList = (s :: p).map String.toList := by
      rw [hlist]
      refine Text.splitOn_intercalate (List.cons_ne_nil _ _) fun piece hpiece ↦ ?_
      obtain ⟨t, ht, rfl⟩ := List.mem_map.mp hpiece
      exact (h t ht).2
    have hkeep : ((s :: p).map String.toList).filter (!·.isEmpty) = (s :: p).map String.toList := by
      rw [List.filter_eq_self]
      intro piece hpiece
      obtain ⟨t, ht, rfl⟩ := List.mem_map.mp hpiece
      simpa using (h t ht).1
    rw [segments, hsplit, hkeep, List.map_map]
    exact (List.map_congr_left fun t _ ↦ String.ofList_toList).trans (List.map_id _)

namespace Forest

variable {es : List Entry} {start : List String}

/-! ## The next segments -/

theorem nextSegment?_eq_some_iff {path : List String} {s : String} :
    nextSegment? start path = some s ↔ start ++ [s] <+: path := by
  rw [nextSegment?]
  constructor
  · intro h
    split at h
    · rename_i hstart
      obtain ⟨rest, rfl⟩ := List.isPrefixOf_iff_prefix.mp hstart
      rw [List.getElem?_append_right (Nat.le_refl _), Nat.sub_self] at h
      obtain ⟨tail, rfl⟩ := List.head?_eq_some_iff.mp (List.head?_eq_getElem?.trans h)
      exact ⟨tail, by rw [List.append_assoc, List.singleton_append]⟩
    · exact nomatch h
  · rintro ⟨rest, rfl⟩
    rw [List.append_assoc, if_pos (List.isPrefixOf_iff_prefix.mpr (List.prefix_append _ _)),
      List.getElem?_append_right (Nat.le_refl _), Nat.sub_self]
    rfl

theorem nextSegment?_append (p rest : List String) : nextSegment? p (p ++ rest) = rest.head? := by
  rw [nextSegment?, if_pos (List.isPrefixOf_iff_prefix.mpr (List.prefix_append p rest)),
    List.getElem?_append_right (Nat.le_refl _), Nat.sub_self, List.head?_eq_getElem?]

theorem nextSegment?_of_not_prefix {p path : List String} (h : ¬p <+: path) :
    nextSegment? p path = none := by
  rw [nextSegment?, if_neg (mt List.isPrefixOf_iff_prefix.mp h)]

theorem mem_nextSegments {s : String} :
    s ∈ nextSegments es start ↔ ∃ e ∈ es, start ++ [s] <+: e.1 := by
  rw [nextSegments, Text.mem_distinct, List.mem_filterMap]
  exact exists_congr fun e ↦ and_congr_right fun _ ↦ nextSegment?_eq_some_iff

theorem nextSegments_concat (es : List Entry) (e : Entry) (p : List String) :
    nextSegments (es ++ [e]) p = match nextSegment? p e.1 with
      | some s => if s ∈ nextSegments es p then nextSegments es p else nextSegments es p ++ [s]
      | none => nextSegments es p := by
  have hlast : [e].filterMap (fun e ↦ nextSegment? p e.1) = (nextSegment? p e.1).toList := by
    cases h : nextSegment? p e.1 with
    | none => simp [h]
    | some s => simp [h]
  rw [nextSegments, List.filterMap_append, hlast]
  cases nextSegment? p e.1 with
  | none =>
    rw [Option.toList_none, List.append_nil]
    rfl
  | some s =>
    rw [Option.toList_some, Text.distinct_concat]
    simp only [nextSegments, Text.mem_distinct]

/-! ## One place above another -/

/-- Whether a place is a proper ancestor of another. -/
def IsAbove (p q : List String) : Prop := p <+: q ∧ p ≠ q

instance (p q : List String) : Decidable (IsAbove p q) := inferInstanceAs (Decidable (_ ∧ _))

theorem isAbove_append_cons (p : List String) (s : String) (rest : List String) :
    IsAbove p (p ++ s :: rest) := by
  refine ⟨List.prefix_append _ _, fun h ↦ ?_⟩
  have hlen := congrArg List.length h
  rw [List.length_append, List.length_cons] at hlen
  omega

theorem isAbove_iff {p q : List String} : IsAbove p q ↔ ∃ s, p ++ [s] <+: q := by
  constructor
  · rintro ⟨⟨rest, rfl⟩, hne⟩
    obtain ⟨s, rest, rfl⟩ := List.exists_cons_of_ne_nil (l := rest) fun h ↦
      hne (by rw [h, List.append_nil])
    exact ⟨s, rest, by rw [List.append_assoc, List.singleton_append]⟩
  · rintro ⟨s, rest, rfl⟩
    rw [List.append_assoc]
    exact isAbove_append_cons p s rest

theorem eq_or_isAbove_of_begins {p q : List String} (h : p <+: q) : p = q ∨ IsAbove p q := by
  by_cases heq : p = q
  · exact .inl heq
  · exact .inr ⟨h, heq⟩

theorem mem_nextSegments_of_prefix {s : String} {q : List String} (hq : start ++ [s] <+: q)
    {e : Entry} (he : e ∈ es) (hpre : q <+: e.1) : s ∈ nextSegments es start :=
  mem_nextSegments.mpr ⟨e, he, hq.trans hpre⟩

/-! ## What lies under a place -/

theorem length_le_depth {e : Entry} (he : e ∈ es) : e.1.length ≤ depth es := by
  have key : ∀ (l : List Nat) (n : Nat), n ≤ l.foldl max n ∧ ∀ m ∈ l, m ≤ l.foldl max n := by
    intro l
    induction l with
    | nil => exact fun n ↦ ⟨Nat.le_refl n, fun m hm ↦ nomatch hm⟩
    | cons k l ih =>
      intro n
      rw [List.foldl_cons]
      obtain ⟨hacc, hmem⟩ := ih (max n k)
      refine ⟨Nat.le_trans (Nat.le_max_left n k) hacc, fun m hm ↦ ?_⟩
      rcases List.mem_cons.mp hm with rfl | hm
      · exact Nat.le_trans (Nat.le_max_right n m) hacc
      · exact hmem m hm
  exact (key _ 0).2 _ (List.mem_map_of_mem he)

/-- Past the longest path that begins at a place, a greater depth changes nothing. -/
theorem below_eq_below {d e : Nat} (hdeep : ∀ x ∈ es, start <+: x.1 → x.1.length ≤ start.length + d)
    (hd : d ≤ e) : below es start e = below es start d := by
  induction d generalizing start e with
  | zero =>
    have hnil : nextSegments es start = [] := by
      rw [List.eq_nil_iff_forall_not_mem]
      intro s hs
      obtain ⟨x, hx, hpre⟩ := mem_nextSegments.mp hs
      have hlen := hpre.length_le
      have hle := hdeep x hx ((List.prefix_append _ _).trans hpre)
      rw [List.length_append, List.length_singleton] at hlen
      omega
    cases e with
    | zero => rfl
    | succ e => rw [below.eq_2, hnil, List.map_nil, below.eq_1]
  | succ d ih =>
    obtain ⟨e, rfl⟩ := Nat.exists_eq_succ_of_ne_zero (Nat.ne_of_gt (Nat.lt_of_lt_of_le d.succ_pos hd))
    rw [below, below]
    refine List.map_congr_left fun s _ ↦ ?_
    have hdeep' : ∀ x ∈ es, start ++ [s] <+: x.1 → x.1.length ≤ (start ++ [s]).length + d := by
      intro x hx hpre
      have hle := hdeep x hx ((List.prefix_append _ _).trans hpre)
      rw [List.length_append, List.length_singleton]
      omega
    rw [ih hdeep' (Nat.le_of_succ_le_succ hd)]

/-- What lies under a place. -/
def under (es : List Entry) (start : List String) : Forest := below es start (depth es)

/-- The node of a place. -/
def node (es : List Entry) (place : List String) : Branch := nodeAt es place (under es place)

theorem under_eq (es : List Entry) (start : List String) :
    under es start = (nextSegments es start).map fun s ↦ node es (start ++ [s]) := by
  have hdeep : ∀ e ∈ es, start <+: e.1 → e.1.length ≤ start.length + depth es :=
    fun e he _ ↦ Nat.le_trans (length_le_depth he) (Nat.le_add_left _ _)
  rw [under, ← below_eq_below hdeep (Nat.le_succ _)]
  rfl

/-- What holds of a place whenever it holds of the places one segment longer holds of all. -/
theorem place_induction {motive : List String → Prop}
    (step : ∀ start, (∀ s ∈ nextSegments es start, motive (start ++ [s])) → motive start)
    (start : List String) : motive start := by
  have key : ∀ (n : Nat) (start : List String), depth es < start.length + n → motive start := by
    intro n
    induction n with
    | zero =>
      refine fun start hn ↦ step start fun s hs ↦ ?_
      obtain ⟨e, he, hpre⟩ := mem_nextSegments.mp hs
      have hlen := Nat.le_trans hpre.length_le (length_le_depth he)
      rw [List.length_append] at hlen
      omega
    | succ n ih =>
      refine fun start hn ↦ step start fun s _ ↦ ih _ ?_
      rw [List.length_append, List.length_singleton]
      omega
  exact key (depth es + 1) start (by omega)

theorem under_eq_nil_iff : under es start = [] ↔ ∀ e ∈ es, ¬IsAbove start e.1 := by
  rw [under_eq, List.map_eq_nil_iff, List.eq_nil_iff_forall_not_mem]
  constructor
  · intro h e he habove
    obtain ⟨s, hs⟩ := isAbove_iff.mp habove
    exact h s (mem_nextSegments.mpr ⟨e, he, hs⟩)
  · intro h s hs
    obtain ⟨e, he, hpre⟩ := mem_nextSegments.mp hs
    exact h e he (isAbove_iff.mpr ⟨s, hpre⟩)

/-! ## Nodes and places -/

theorem nodes_branch (b : Branch) : b.nodes = b :: nodes b.children := by
  obtain ⟨record, children, isLeaf⟩ := b
  rfl

theorem nodes_eq_flatMap (f : Forest) : nodes f = f.flatMap Branch.nodes := by
  induction f with
  | nil => rfl
  | cons b bs ih => rw [nodes, ih, List.flatMap_cons]

theorem children_node (es : List Entry) (p : List String) : (node es p).children = under es p := by
  rw [node, nodeAt]
  split <;> rfl

theorem record_node (es : List Entry) (p : List String) :
    (node es p).record = (recordAt? es p).getD (Record.ofPath (pathOf p)) := by
  rw [node, nodeAt]
  cases recordAt? es p <;> rfl

theorem isLeaf_node (es : List Entry) (p : List String) :
    (node es p).isLeaf = ((recordAt? es p).isSome && (under es p).isEmpty) := by
  rw [node, nodeAt]
  cases recordAt? es p <;> rfl

theorem nodes_node (es : List Entry) (p : List String) :
    (node es p).nodes = node es p :: nodes (under es p) := by
  rw [nodes_branch, children_node]

theorem mem_nodes_under {b : Branch} :
    b ∈ nodes (under es start) ↔ ∃ p, IsAbove start p ∧ (∃ e ∈ es, p <+: e.1) ∧ b = node es p := by
  induction start using @place_induction es with
  | step start ih =>
    rw [under_eq, nodes_eq_flatMap, List.flatMap_map, List.mem_flatMap]
    constructor
    · rintro ⟨s, hs, hb⟩
      rw [nodes_node, List.mem_cons, ih s hs] at hb
      rcases hb with rfl | ⟨p, hp, he, rfl⟩
      · exact ⟨_, isAbove_append_cons start s [], mem_nextSegments.mp hs, rfl⟩
      · exact ⟨p, isAbove_iff.mpr ⟨s, hp.1⟩, he, rfl⟩
    · rintro ⟨p, hp, ⟨e, he, hpre⟩, rfl⟩
      obtain ⟨s, hsp⟩ := isAbove_iff.mp hp
      have hs := mem_nextSegments_of_prefix hsp he hpre
      refine ⟨s, hs, ?_⟩
      rw [nodes_node, List.mem_cons, ih s hs]
      rcases eq_or_isAbove_of_begins hsp with rfl | habove
      · exact .inl rfl
      · exact .inr ⟨p, habove, ⟨e, he, hpre⟩, rfl⟩

/-! ## The record at a place -/

theorem mem_of_recordAt? {p : List String} {r : Record} (h : recordAt? es p = some r) : (p, r) ∈ es := by
  rw [recordAt?, Option.map_eq_some_iff] at h
  obtain ⟨e, he, rfl⟩ := h
  have hmem := List.mem_of_getLast? he
  rw [List.mem_filter, decide_eq_true_eq] at hmem
  rw [← hmem.2]
  exact hmem.1

theorem exists_recordAt? {e : Entry} (he : e ∈ es) : ∃ r, recordAt? es e.1 = some r := by
  have hmem : e ∈ es.filter fun e' ↦ e'.1 = e.1 := List.mem_filter.mpr ⟨he, decide_eq_true rfl⟩
  rw [recordAt?, List.getLast?_eq_some_getLast (List.ne_nil_of_mem hmem)]
  exact ⟨_, rfl⟩

theorem recordAt?_concat (es : List Entry) (e : Entry) (p : List String) :
    recordAt? (es ++ [e]) p = if p = e.1 then some e.2 else recordAt? es p := by
  rw [recordAt?, recordAt?, List.filter_append, List.filter_singleton]
  by_cases hp : p = e.1
  · simp [hp]
  · simp [hp, Ne.symm hp]

variable {records : List Record}

theorem mem_entries {e : Entry} : e ∈ entries records ↔ e.2 ∈ records ∧ segments e.2.path = e.1 := by
  rw [entries, List.mem_map]
  constructor
  · rintro ⟨r, hr, rfl⟩
    exact ⟨hr, rfl⟩
  · rintro ⟨hr, he⟩
    exact ⟨e.2, hr, by rw [he]⟩

theorem ofRecords_eq_under (records : List Record) :
    ofRecords records = under (entries records) [] := rfl

theorem segments_path_node {p : List String} {e : Entry} (he : e ∈ entries records) (hpre : p <+: e.1) :
    segments (node (entries records) p).path = p := by
  rw [Branch.path, record_node]
  cases hrecord : recordAt? (entries records) p with
  | some r => exact (mem_entries.mp (mem_of_recordAt? hrecord)).2
  | none =>
    refine segments_pathOf fun s hs ↦ ?_
    have hmem : s ∈ segments e.2.path := by
      rw [(mem_entries.mp he).2]
      exact hpre.subset hs
    exact isSegment_of_mem_segments hmem

theorem segments_path_of_mem_nodes {b : Branch} {start : List String}
    (hb : b ∈ nodes (under (entries records) start)) :
    IsAbove start (segments b.path) ∧ b = node (entries records) (segments b.path) := by
  obtain ⟨p, hp, ⟨e, he, hpre⟩, rfl⟩ := mem_nodes_under.mp hb
  rw [segments_path_node he hpre]
  exact ⟨hp, rfl⟩

/-- **Places as they stand.** What holds between a place and those below it, and between what lies at or
below a segment and what lies at or below a later one, holds between the nodes in their order. -/
theorem pairwise_places {R : List String → List String → Prop} (habove : ∀ p q, IsAbove p q → R p q)
    (hbeside : ∀ start, (nextSegments (entries records) start).Pairwise fun s t ↦
      ∀ p q, start ++ [s] <+: p → start ++ [t] <+: q → R p q) (start : List String) :
    ((nodes (under (entries records) start)).map fun b ↦ segments b.path).Pairwise R := by
  induction start using @place_induction (entries records) with
  | step start ih =>
    rw [under_eq, nodes_eq_flatMap, List.flatMap_map, List.map_flatMap, List.pairwise_flatMap]
    -- the places at a next segment and below it are those that begin with it
    have hplaces : ∀ s ∈ nextSegments (entries records) start,
        (node (entries records) (start ++ [s])).nodes.map (fun b ↦ segments b.path)
          = (start ++ [s]) :: (nodes (under (entries records) (start ++ [s]))).map
              fun b ↦ segments b.path := by
      intro s hs
      obtain ⟨e, he, hpre⟩ := mem_nextSegments.mp hs
      rw [nodes_node, List.map_cons, segments_path_node he hpre]
    have hbelow : ∀ s, ∀ p ∈ (nodes (under (entries records) (start ++ [s]))).map
        (fun b ↦ segments b.path), IsAbove (start ++ [s]) p := by
      rintro s p hp
      obtain ⟨b, hb, rfl⟩ := List.mem_map.mp hp
      exact (segments_path_of_mem_nodes hb).1
    have hbegins : ∀ s ∈ nextSegments (entries records) start,
        ∀ p ∈ (node (entries records) (start ++ [s])).nodes.map (fun b ↦ segments b.path),
          start ++ [s] <+: p := by
      intro s hs p hp
      rw [hplaces s hs, List.mem_cons] at hp
      rcases hp with rfl | hp
      · exact List.prefix_refl _
      · exact (hbelow s p hp).1
    constructor
    · intro s hs
      rw [hplaces s hs, List.pairwise_cons]
      exact ⟨fun p hp ↦ habove _ p (hbelow s p hp), ih s hs⟩
    · exact (hbeside start).imp_of_mem fun hs ht h p hp q hq ↦
        h p q (hbegins _ hs p hp) (hbegins _ ht q hq)

/-- **No place twice.** The nodes of a forest of records have distinct places. -/
theorem nodup_places (records : List Record) (start : List String) :
    ((nodes (under (entries records) start)).map fun b ↦ segments b.path).Nodup := by
  refine pairwise_places (fun p q habove ↦ habove.2) (fun start ↦ ?_) start
  refine (Text.nodup_distinct _).imp fun {s t} hne p q hp hq hpq ↦ ?_
  -- two prefixes of one length are the same
  have hlen : (start ++ [s]).length = (start ++ [t]).length := by
    rw [List.length_append, List.length_append, List.length_singleton, List.length_singleton]
  have hst := List.prefix_of_prefix_length_le hp (hpq ▸ hq) (Nat.le_of_eq hlen)
  exact hne (List.singleton_inj.mp (List.append_cancel_left (hst.eq_of_length hlen)))

/-- No path twice: the nodes of a forest of records have distinct paths. -/
theorem nodup_paths (records : List Record) : ((nodes (ofRecords records)).map Branch.path).Nodup := by
  refine List.Nodup.of_map segments ?_
  rw [List.map_map]
  exact nodup_places records []

end Forest

end NoteQuery
