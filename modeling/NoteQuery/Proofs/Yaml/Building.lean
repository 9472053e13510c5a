import NoteQuery.Proofs.Outcome
import NoteQuery.Proofs.Yaml.Reading
import NoteQuery.Yaml.Document

/-!
# Building values

The value of a document goes wrong because the document is malformed or because one of its nodes has a
tag of scalars and a text that is none of its values. The bound on the recursion is never reached: merging
takes entries only from deeper nodes to a shallower one, so the parts of a collection are always less deep
than it, and a document is no deeper than it has lexemes.
-/

namespace NoteQuery.Yaml.Node

/-! ## Parts of a node -/

/-- The nodes that a node contains, itself among them. -/
inductive Contains (root : Node) : Node → Prop
  /-- The node itself. -/
  | self : Contains root root
  /-- An item of a sequence. -/
  | item {t : Tag} {items : List Node} {n : Node} :
      Contains root (.sequence t items) → n ∈ items → Contains root n
  /-- A key of a mapping. -/
  | key {t : Tag} {entries : List (Node × Node)} {e : Node × Node} :
      Contains root (.mapping t entries) → e ∈ entries → Contains root e.1
  /-- A value of a mapping. -/
  | value {t : Tag} {entries : List (Node × Node)} {e : Node × Node} :
      Contains root (.mapping t entries) → e ∈ entries → Contains root e.2

/-- Why no value can be built from a document. -/
def IsBuildingFault (root : Node) (f : Fault) : Prop :=
  f = .malformed ∨ ∃ n, Contains root n ∧ n.immediate? = .error f

theorem depth_le_of_mem {n : Node} {items : List Node} (h : n ∈ items) :
    n.depth ≤ depthOfItems items := by
  induction items with
  | nil => exact nomatch h
  | cons m items ih =>
    rw [depthOfItems]
    rcases List.mem_cons.mp h with rfl | h
    · exact Nat.le_max_left _ _
    · exact Nat.le_trans (ih h) (Nat.le_max_right _ _)

theorem depth_le_of_mem_entries {e : Node × Node} {entries : List (Node × Node)} (h : e ∈ entries) :
    max e.1.depth e.2.depth ≤ depthOfEntries entries := by
  induction entries with
  | nil => exact nomatch h
  | cons first entries ih =>
    obtain ⟨k, v⟩ := first
    rw [depthOfEntries]
    rcases List.mem_cons.mp h with rfl | h
    · exact Nat.le_max_left _ _
    · exact Nat.le_trans (ih h) (Nat.le_max_right _ _)

variable {root n : Node} {d : Nat}

/-- Whether a node is part of a document and less deep than a bound. -/
structure Below (root : Node) (d : Nat) (n : Node) : Prop where
  /-- The document contains it. -/
  contains : Contains root n
  /-- It is less deep than the bound. -/
  depth_lt : n.depth < d

/-- Whether a node is below a bound, or a text: a key under which a mapping has its own value is read as
one. -/
def BelowOrText (root : Node) (d : Nat) (n : Node) : Prop :=
  Below root d n ∨ ∃ text, n = .scalar .str text ∧ 0 < d

/-- Whether a key and a value are below a bound. -/
def EntryBelow (root : Node) (d : Nat) (e : Node × Node) : Prop :=
  BelowOrText root d e.1 ∧ Below root d e.2

theorem Below.mono {larger : Nat} (h : Below root d n) (hle : d ≤ larger) : Below root larger n :=
  ⟨h.contains, Nat.lt_of_lt_of_le h.depth_lt hle⟩

theorem EntryBelow.mono {larger : Nat} {e : Node × Node} (h : EntryBelow root d e) (hle : d ≤ larger) :
    EntryBelow root larger e := by
  refine ⟨?_, h.2.mono hle⟩
  rcases h.1 with hkey | ⟨text, hkey, hpos⟩
  · exact .inl (hkey.mono hle)
  · exact .inr ⟨text, hkey, Nat.lt_of_lt_of_le hpos hle⟩

theorem BelowOrText.depth_lt (h : BelowOrText root d n) : n.depth < d := by
  rcases h with h | ⟨text, rfl, hpos⟩
  · exact h.depth_lt
  · exact hpos

theorem below_of_mem_sequence {t : Tag} {items : List Node} (h : Contains root (.sequence t items))
    (hn : n ∈ items) : Below root (Node.sequence t items).depth n := by
  refine ⟨h.item hn, ?_⟩
  rw [depth]
  exact Nat.lt_succ_of_le (depth_le_of_mem hn)

theorem entryBelow_of_mem_mapping {t : Tag} {entries : List (Node × Node)}
    (h : Contains root (.mapping t entries)) {e : Node × Node} (he : e ∈ entries) :
    EntryBelow root (Node.mapping t entries).depth e := by
  have hle := depth_le_of_mem_entries he
  refine ⟨.inl ⟨h.key he, ?_⟩, h.value he, ?_⟩
  · rw [depth]
    omega
  · rw [depth]
    omega

/-! ## Merging -/

theorem belowOrText_asText {k : Node} (h : BelowOrText root d k) : BelowOrText root d k.asText := by
  cases k with
  | scalar t text =>
    have hpos := h.depth_lt
    rw [depth] at hpos
    exact .inr ⟨text, rfl, hpos⟩
  | _ => exact h

/-- The outcome of merging: entries below a bound, or a malformed document. -/
abbrev GivesEntries (root : Node) (d : Nat) (x : Except Fault (List (Node × Node))) : Prop :=
  Gives x (fun es ↦ ∀ e ∈ es, EntryBelow root d e) (· = .malformed)

mutual

theorem gives_flattened (n : Node) (h : Contains root n) : GivesEntries root n.depth n.flattened := by
  match n, h with
  | .scalar t text, _ =>
    rw [flattened]
    · exact rfl
    · exact nofun
  | .sequence t items, _ =>
    rw [flattened]
    · exact rfl
    · exact nofun
  | .mapping t entries, h =>
    have hentries := fun e he ↦ entryBelow_of_mem_mapping (e := e) h he
    rw [flattened]
    refine Gives.bind (gives_flattenEntries entries hentries) ?_
    rintro ⟨merged, own⟩ ⟨hmerged, hown⟩ e he
    exact (List.mem_append.mp he).elim (hmerged e) (hown e)

theorem gives_flattenEntries {d : Nat} (entries : List (Node × Node))
    (h : ∀ e ∈ entries, EntryBelow root d e) :
    Gives (flattenEntries entries) (fun es ↦ (∀ e ∈ es.1, EntryBelow root d e) ∧
      ∀ e ∈ es.2, EntryBelow root d e) (· = .malformed) := by
  match entries, h with
  | [], _ =>
    rw [flattenEntries]
    exact ⟨fun e he ↦ (nomatch he), fun e he ↦ nomatch he⟩
  | (k, v) :: rest, h =>
    have hentry := h (k, v) List.mem_cons_self
    have hrest := gives_flattenEntries rest fun e he ↦ h e (List.mem_cons_of_mem _ he)
    have hcons : ∀ {k'}, BelowOrText root d k' → ∀ es : List (Node × Node) × List (Node × Node),
        ((∀ e ∈ es.1, EntryBelow root d e) ∧ ∀ e ∈ es.2, EntryBelow root d e) →
        (∀ e ∈ es.1, EntryBelow root d e) ∧ ∀ e ∈ (k', v) :: es.2, EntryBelow root d e := by
      intro k' hk' es hes
      refine ⟨hes.1, fun e he ↦ ?_⟩
      rcases List.mem_cons.mp he with rfl | he
      · exact ⟨hk', hentry.2⟩
      · exact hes.2 e he
    rw [flattenEntries]
    -- a merge key, a key with its own value, which is read as a text, or any other key
    split
    · refine Gives.bind (gives_mergedFrom v hentry.2) fun here hhere ↦ Gives.bind hrest ?_
      rintro ⟨merged, own⟩ ⟨hmerged, hown⟩
      exact ⟨fun e he ↦ (List.mem_append.mp he).elim (hhere e) (hmerged e), hown⟩
    · exact hrest.map (hcons (belowOrText_asText hentry.1))
    · exact hrest.map (hcons hentry.1)

theorem gives_mergedFrom {d : Nat} (v : Node) (h : Below root d v) : GivesEntries root d v.mergedFrom := by
  match v, h with
  | .scalar t text, _ =>
    rw [mergedFrom]
    exact rfl
  | .mapping t entries, h =>
    rw [mergedFrom]
    exact (gives_flattened _ h.contains).mono
      (fun es hes e he ↦ (hes e he).mono (Nat.le_of_lt h.depth_lt)) fun _ hf ↦ hf
  | .sequence t items, h =>
    have hitems : ∀ n ∈ items, Below root d n := fun n hn ↦
      (below_of_mem_sequence h.contains hn).mono (Nat.le_of_lt h.depth_lt)
    rw [mergedFrom]
    refine (gives_flattenItems items hitems).map fun groups hgroups e he ↦ ?_
    obtain ⟨group, hgroup, he⟩ := List.mem_flatten.mp he
    exact hgroups group (List.mem_reverse.mp hgroup) e he

theorem gives_flattenItems {d : Nat} (items : List Node) (h : ∀ n ∈ items, Below root d n) :
    Gives (flattenItems items) (fun groups ↦ ∀ group ∈ groups, ∀ e ∈ group, EntryBelow root d e)
      (· = .malformed) := by
  match items, h with
  | [], _ =>
    rw [flattenItems]
    exact fun group hgroup ↦ nomatch hgroup
  | item :: rest, h =>
    have hitem := h item List.mem_cons_self
    rw [flattenItems]
    refine Gives.bind (gives_flattened item hitem.contains) fun here hhere ↦
      Gives.bind (gives_flattenItems rest fun n hn ↦ h n (List.mem_cons_of_mem _ hn))
        fun groups hgroups group hgroup ↦ ?_
    rcases List.mem_cons.mp hgroup with rfl | hgroup
    · exact fun e he ↦ (hhere e he).mono (Nat.le_of_lt hitem.depth_lt)
    · exact hgroups group hgroup

end

theorem gives_entries (h : Contains root n) :
    Gives n.flattened (fun es ↦ ∀ e ∈ es, EntryBelow root n.depth e) (IsBuildingFault root) :=
  (gives_flattened n h).mono (fun _ hes ↦ hes) fun _ ↦ .inl

/-! ## Levels -/

theorem gives_onlyEntry (h : Contains root n) :
    Gives n.onlyEntry (EntryBelow root n.depth) (IsBuildingFault root) := by
  match n, h with
  | .scalar .., _ | .sequence .., _ | .mapping _ [], _ | .mapping _ (_ :: _ :: _), _ => exact .inl rfl
  | .mapping t [e], h => exact entryBelow_of_mem_mapping h List.mem_cons_self

/-- A node that is met has its value, is a collection of the document, or is to blame. -/
theorem gives_immediate? (h : BelowOrText root d n) :
    Gives n.immediate? (fun v ↦ v.isSome = false → Below root d n) (IsBuildingFault root) := by
  rcases h with h | ⟨text, rfl, -⟩
  · cases himmediate : n.immediate? with
    | ok v => exact fun _ ↦ h
    | error f => exact .inr ⟨n, h.contains, himmediate⟩
  · exact fun hnone ↦ nomatch hnone

theorem contains_of_mem_flatten {α : Type} {l : List α} {groups : List (List Node)}
    (h : ∀ group ∈ groups, ∃ a ∈ l, ∀ m ∈ group, Contains root m) {m : Node} (hm : m ∈ groups.flatten) :
    Contains root m := by
  obtain ⟨group, hgroup, hm⟩ := List.mem_flatten.mp hm
  obtain ⟨a, -, hfound⟩ := h group hgroup
  exact hfound m hm

theorem gives_collections {nodes : List Node} (h : ∀ n ∈ nodes, BelowOrText root d n) :
    Gives (collections nodes) (fun found ↦ ∀ n ∈ found, Contains root n) (IsBuildingFault root) := by
  refine (Gives.mapM fun n hn ↦ (gives_immediate? (h n hn)).map
    (Q := fun found ↦ ∀ m ∈ found, Contains root m) fun v hv m hm ↦ ?_).map fun groups hgroups m ↦
      contains_of_mem_flatten hgroups
  split at hm
  · exact nomatch hm
  · rename_i hnone
    rw [List.mem_singleton.mp hm]
    exact (hv (Bool.eq_false_iff.mpr hnone)).contains

theorem gives_collectionsOfEntries {es : List (Node × Node)} (h : ∀ e ∈ es, EntryBelow root d e) :
    Gives (collectionsOfEntries es) (fun found ↦ ∀ n ∈ found, Contains root n)
      (IsBuildingFault root) := by
  induction es with
  | nil => exact fun n hn ↦ nomatch hn
  | cons e es ih =>
    obtain ⟨k, v⟩ := e
    have hentry := h (k, v) List.mem_cons_self
    have hvalue : ∀ n ∈ [v], BelowOrText root d n := fun n hn ↦ by
      rw [List.mem_singleton.mp hn]
      exact .inl hentry.2
    have hmore : Gives (do return (← collections [v]) ++ (← collectionsOfEntries es))
        (fun found ↦ ∀ n ∈ found, Contains root n) (IsBuildingFault root) :=
      Gives.bind (gives_collections hvalue) fun here hhere ↦
        Gives.bind (ih fun e he ↦ h e (List.mem_cons_of_mem _ he)) fun more hmore n hn ↦
          (List.mem_append.mp hn).elim (hhere n) (hmore n)
    rw [collectionsOfEntries]
    refine Gives.bind (gives_immediate? hentry.1) fun key _ ↦ ?_
    split
    · exact .inl rfl
    · exact hmore

theorem gives_parts (h : Contains root n) :
    Gives n.parts (fun found ↦ ∀ m ∈ found, Contains root m) (IsBuildingFault root) := by
  have hentries : Gives (n.flattened.bind collectionsOfEntries)
      (fun found ↦ ∀ m ∈ found, Contains root m) (IsBuildingFault root) :=
    Gives.bind (gives_entries h) fun _ ↦ gives_collectionsOfEntries
  have hitems : ∀ {t items}, Contains root (.sequence t items) →
      Gives (do
        let found ← items.mapM fun item ↦ do
          let e ← onlyEntry item
          collections [e.1, e.2]
        return found.flatten)
        (fun found ↦ ∀ m ∈ found, Contains root m) (IsBuildingFault root) := by
    intro t items hcontains
    refine Gives.bind (Gives.mapM (R := fun _ found ↦ ∀ m ∈ found, Contains root m)
      fun item hitem ↦ ?_) fun groups hgroups m ↦ contains_of_mem_flatten hgroups
    refine Gives.bind (gives_onlyEntry (hcontains.item hitem)) ?_
    rintro ⟨k, v⟩ ⟨hk, hv⟩
    refine gives_collections (d := item.depth) fun m hm ↦ ?_
    rcases List.mem_cons.mp hm with rfl | hm
    · exact hk
    · rw [List.mem_singleton.mp hm]
      exact .inl hv
  unfold parts
  split
  · exact gives_collections fun m hm ↦ .inl (below_of_mem_sequence h hm)
  · exact hentries
  · exact hentries
  · exact hitems h
  · exact hitems h
  · exact .inl rfl

theorem isBuildingFault_of_firstFault {level : List Node} {fuel : Nat} {f : Fault}
    (h : ∀ n ∈ level, Contains root n) (hf : firstFault level fuel = some f) :
    IsBuildingFault root f := by
  induction fuel generalizing level with
  | zero => exact nomatch hf
  | succ fuel ih =>
    have hparts : Gives (level.mapM parts) (fun groups ↦ ∀ group ∈ groups, ∃ n ∈ level,
        ∀ m ∈ group, Contains root m) (IsBuildingFault root) :=
      Gives.mapM fun n hn ↦ gives_parts (h n hn)
    rw [firstFault] at hf
    split at hf
    · exact nomatch hf
    · cases hnext : level.mapM parts with
      | error found =>
        rw [hnext] at hf
        rw [← Option.some.inj hf]
        exact hparts.fault hnext
      | ok next =>
        rw [hnext] at hf hparts
        exact ih (fun m ↦ contains_of_mem_flatten hparts) hf

/-! ## Values -/

/-- What is built on the way to a value, if anything, when only the document can be to blame. -/
abbrev Builds {α : Type} (root : Node) (x : Except Fault α) : Prop :=
  Gives x (fun _ ↦ True) (IsBuildingFault root)

/-- Whether a bound on the recursion is enough for all nodes of a document that are less deep. -/
def Suffices (root : Node) (fuel : Nat) : Prop :=
  ∀ n, BelowOrText root fuel n → Builds root (n.value fuel)

namespace Suffices

variable {fuel : Nat}

theorem pair (h : Suffices root fuel) {e : Node × Node} (he : EntryBelow root fuel e) :
    Builds root (do return (← e.1.value fuel, ← e.2.value fuel)) :=
  Gives.bind (h _ he.1) fun _ _ ↦ Gives.bind (h _ (.inl he.2)) fun _ _ ↦ trivial

theorem items (h : Suffices root fuel) {t : Tag} {items : List Node}
    (hn : Below root (fuel + 1) (.sequence t items)) :
    Builds root (do
      let values ← items.mapM (·.value fuel)
      return Value.list values) := by
  refine Gives.bind (Gives.mapM (R := fun _ _ ↦ True) fun item hitem ↦ ?_) fun _ _ ↦ trivial
  have hitem := below_of_mem_sequence hn.contains hitem
  exact h item (.inl (hitem.mono (Nat.le_of_lt_succ hn.depth_lt)))

theorem entries (h : Suffices root fuel) (hn : Below root (fuel + 1) n)
    {make : List (Value × Value) → Value} :
    Builds root (do
      let es ← n.flattened
      let pairs ← es.mapM fun e ↦ do return (← e.1.value fuel, ← e.2.value fuel)
      return make pairs) := by
  refine Gives.bind (gives_entries hn.contains) fun es hes ↦
    Gives.bind (Gives.mapM (R := fun _ _ ↦ True) fun e he ↦ ?_) fun _ _ ↦ trivial
  exact h.pair ((hes e he).mono (Nat.le_of_lt_succ hn.depth_lt))

theorem onlyEntries (h : Suffices root fuel) {t : Tag} {items : List Node}
    (hn : Below root (fuel + 1) (.sequence t items)) :
    Builds root (do
      let values ← items.mapM fun item ↦ do
        let e ← onlyEntry item
        let pair ← (do return (← e.1.value fuel, ← e.2.value fuel))
        return Value.tuple [pair.1, pair.2]
      return Value.list values) := by
  refine Gives.bind (Gives.mapM (R := fun _ _ ↦ True) fun item hitem ↦ ?_) fun _ _ ↦ trivial
  have hitem := below_of_mem_sequence hn.contains hitem
  have hdepth := Nat.lt_of_lt_of_le hitem.depth_lt (Nat.le_of_lt_succ hn.depth_lt)
  exact Gives.bind (gives_onlyEntry hitem.contains) fun e he ↦
    Gives.bind (h.pair (he.mono (Nat.le_of_lt hdepth))) fun _ _ ↦ trivial

end Suffices

/-- A node that is less deep than the bound on the recursion has a value unless something in it is to
blame. -/
theorem suffices_fuel (root : Node) (fuel : Nat) : Suffices root fuel := by
  induction fuel with
  | zero => exact fun n h ↦ absurd h.depth_lt (Nat.not_lt_zero _)
  | succ fuel ih =>
    intro n h
    -- a value that is not built at once is that of a collection, whose parts are less deep than it
    unfold value
    refine Gives.bind (gives_immediate? h) fun v hv ↦ ?_
    cases v with
    | some v => exact trivial
    | none =>
      have hn : Below root (fuel + 1) n := hv rfl
      dsimp only
      split
      · exact ih.items hn
      · exact ih.entries hn
      · exact ih.entries hn
      · exact ih.onlyEntries hn
      · exact ih.onlyEntries hn
      · exact .inl rfl

/-- **Building a document.** With a bound on the recursion above its depth, it has a value unless it is
malformed or a node in it has a text that is none of its tag's. -/
theorem gives_document {fuel : Nat} (h : n.depth < fuel) : Builds n (n.document fuel) := by
  have hself : Below n fuel n := ⟨.self, h⟩
  have hlevel : Gives (collections [n]) (fun found ↦ ∀ m ∈ found, Contains n m) (IsBuildingFault n) := by
    refine gives_collections (d := fuel) fun m hm ↦ ?_
    rw [List.mem_singleton.mp hm]
    exact .inl hself
  rw [document]
  cases hcollections : collections [n] with
  | error f => exact hlevel.fault hcollections
  | ok level =>
    rw [hcollections] at hlevel
    dsimp only
    cases hfirst : firstFault level fuel with
    | some f => exact isBuildingFault_of_firstFault hlevel hfirst
    | none => exact suffices_fuel n fuel n (.inl hself)

end NoteQuery.Yaml.Node
