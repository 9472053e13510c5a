import NoteQuery.Yaml.Node

/-!
# Reading nodes

The reader of nodes goes wrong for three reasons: the document is malformed, the lexemes end in a fault,
or a reference stands inside the node that it names, behind the anchor of the node. And a node is no
deeper than there are lexemes before its end, although references repeat nodes: a node that is repeated
has been read already, and the collections around the reference have lexemes of their own. Both follow
from one invariant of the state, which every reader keeps.
-/

namespace NoteQuery.Yaml.Node

/-! ## Depth -/

mutual

/-- How deep the collections in a node are nested. -/
def depth : Node → Nat
  | scalar .. => 0
  | sequence _ items => depthOfItems items + 1
  | mapping _ entries => depthOfEntries entries + 1

/-- The greatest depth of some nodes. -/
def depthOfItems : List Node → Nat
  | [] => 0
  | n :: ns => max n.depth (depthOfItems ns)

/-- The greatest depth of the keys and values of some entries. -/
def depthOfEntries : List (Node × Node) → Nat
  | [] => 0
  | (k, v) :: es => max (max k.depth v.depth) (depthOfEntries es)

end

/-! ## Outcomes of reading -/

variable {lexemes : List Lexeme} {bound : Nat} {s : Remainder} {α β : Type}

/-- Why a document of some lexemes cannot be read. -/
def IsReadingFault (lexemes : List Lexeme) (f : Fault) : Prop :=
  f = .malformed ∨ .fault f ∈ lexemes ∨
    f = .recursive ∧ ∃ name, [.anchor name, .reference name].Sublist lexemes

/-- Whether an outcome is a fault of the reading, or something with a property. -/
def Leads (lexemes : List Lexeme) (outcome : Except Fault (α × Remainder))
    (Q : α → Remainder → Prop) : Prop :=
  match outcome with
  | .ok (a, s) => Q a s
  | .error f => IsReadingFault lexemes f

theorem Leads.mono {outcome : Except Fault (α × Remainder)} {Q R : α → Remainder → Prop}
    (h : Leads lexemes outcome Q) (hQR : ∀ a s, Q a s → R a s) : Leads lexemes outcome R := by
  cases outcome with
  | ok found => exact hQR _ _ h
  | error f => exact h

theorem leads_bind {read : Reader α} {next : α → Reader β} {Q : α → Remainder → Prop}
    {R : β → Remainder → Prop} (h : Leads lexemes (read s) Q)
    (hnext : ∀ a s, Q a s → Leads lexemes (next a s) R) : Leads lexemes ((read >>= next) s) R := by
  change Leads lexemes (read s >>= fun found ↦ next found.1 found.2) R
  cases hread : read s with
  | ok found =>
    rw [hread] at h
    exact hnext _ _ h
  | error f =>
    rw [hread] at h
    exact h

theorem leads_malformed {Q : α → Remainder → Prop} :
    Leads lexemes ((throw .malformed : Reader α) s) Q := .inl rfl

/-! ## The invariant -/

/-- Whether a lexeme stands before those that are left. -/
def IsRead (lexemes : List Lexeme) (l : Lexeme) (s : Remainder) : Prop :=
  ∃ before, before ++ s.lexemes = lexemes ∧ l ∈ before

theorem IsRead.mono {l : Lexeme} {s' : Remainder} (h : IsRead lexemes l s)
    (hrest : s'.lexemes <:+ s.lexemes) : IsRead lexemes l s' := by
  obtain ⟨before, rfl, hl⟩ := h
  obtain ⟨between, hbetween⟩ := hrest
  exact ⟨before ++ between, by rw [← hbetween, List.append_assoc], List.mem_append_left _ hl⟩

/-- What holds of the state of a reader: what is left is the end of the lexemes and at most `bound` of
them, anchors have been read, and the nodes with anchors are no deeper than the bound allows. -/
structure Fits (lexemes : List Lexeme) (bound : Nat) (s : Remainder) : Prop where
  /-- What is left is the end of the lexemes. -/
  suffix : s.lexemes <:+ lexemes
  /-- The bound leaves room for what is left. -/
  length_le : s.lexemes.length ≤ bound
  /-- Anchors have been read. -/
  named : ∀ a ∈ s.anchors, IsRead lexemes (.anchor a.1) s
  /-- The bound leaves room for nodes with anchors and what is left. -/
  depth_le : ∀ name n, (name, some n) ∈ s.anchors → n.depth + s.lexemes.length ≤ bound

/-- What holds after something of a depth has been read from a state. -/
structure Follows (lexemes : List Lexeme) (bound : Nat) (s : Remainder) (depth : Nat)
    (s' : Remainder) : Prop extends Fits lexemes bound s' where
  /-- What was left ends in what is left. -/
  rest : s'.lexemes <:+ s.lexemes
  /-- The bound leaves room for what has been read and what is left. -/
  room : depth + s'.lexemes.length ≤ bound

namespace Fits

theorem mono {larger : Nat} (h : Fits lexemes bound s) (hle : bound ≤ larger) : Fits lexemes larger s :=
  ⟨h.suffix, Nat.le_trans h.length_le hle, h.named,
    fun name n hn ↦ Nat.le_trans (h.depth_le name n hn) hle⟩

theorem skip {l : Lexeme} {rest : List Lexeme} (h : Fits lexemes (bound + 1) s)
    (hs : s.lexemes = l :: rest) : Fits lexemes bound { s with lexemes := rest } := by
  obtain ⟨hsuffix, hlength, hnamed, hdepth⟩ := h
  rw [hs] at hsuffix hlength hdepth
  rw [List.length_cons] at hlength
  refine ⟨(List.suffix_cons l rest).trans hsuffix, Nat.le_of_succ_le_succ hlength,
    fun a ha ↦ (hnamed a ha).mono (hs ▸ List.suffix_cons l rest), fun name n hn ↦ ?_⟩
  have hroom := hdepth name n hn
  rw [List.length_cons] at hroom
  exact Nat.le_of_succ_le_succ hroom

theorem mem {l : Lexeme} {rest : List Lexeme} (h : Fits lexemes bound s)
    (hs : s.lexemes = l :: rest) : l ∈ lexemes :=
  h.suffix.subset (hs ▸ List.mem_cons_self)

theorem isRead {l : Lexeme} {rest : List Lexeme} (h : Fits lexemes bound s)
    (hs : s.lexemes = l :: rest) : IsRead lexemes l { s with lexemes := rest } := by
  obtain ⟨before, rfl⟩ := h.suffix
  refine ⟨before ++ [l], ?_, List.mem_append_right _ List.mem_cons_self⟩
  rw [hs, List.append_assoc, List.singleton_append]

theorem exists_succ {l : Lexeme} {rest : List Lexeme} (h : Fits lexemes bound s)
    (hs : s.lexemes = l :: rest) : ∃ smaller, bound = smaller + 1 := by
  have hlength := h.length_le
  rw [hs, List.length_cons] at hlength
  exact Nat.exists_eq_succ_of_ne_zero (by omega)

theorem follows (h : Fits lexemes bound s) : Follows lexemes bound s 0 s :=
  ⟨h, List.suffix_refl _, Nat.le_trans (Nat.le_of_eq (Nat.zero_add _)) h.length_le⟩

end Fits

/-! ## Peeking and skipping -/

/-- Whether a lexeme is next; the end of the text is when nothing is left. -/
def IsNext (l : Lexeme) (s : Remainder) : Prop :=
  l = .streamEnd ∧ s.lexemes = [] ∨ ∃ rest, s.lexemes = l :: rest

theorem IsNext.exists_rest {l : Lexeme} (h : IsNext l s) (hl : l ≠ .streamEnd) :
    ∃ rest, s.lexemes = l :: rest := h.resolve_left fun hend ↦ hl hend.1

theorem leads_get_bind {next : Remainder → Reader α} {Q : α → Remainder → Prop}
    (h : Leads lexemes (next s s) Q) : Leads lexemes ((get >>= next) s) Q := h

theorem leads_peek_bind {next : Lexeme → Reader α} {Q : α → Remainder → Prop}
    (h : Fits lexemes bound s) (hnext : ∀ l, IsNext l s → Leads lexemes (next l s) Q) :
    Leads lexemes ((peek >>= next) s) Q := by
  have hpeek : Leads lexemes (peek s) fun l s' ↦ IsNext l s ∧ s' = s := by
    obtain ⟨left, anchors⟩ := s
    cases left with
    | nil => exact ⟨.inl ⟨rfl, rfl⟩, rfl⟩
    | cons l rest =>
      cases l with
      | fault f => exact .inr (.inl (h.mem rfl))
      | _ => exact ⟨.inr ⟨rest, rfl⟩, rfl⟩
  refine leads_bind hpeek ?_
  rintro l _ ⟨hl, rfl⟩
  exact hnext l hl

theorem leads_skip_bind {l : Lexeme} {rest : List Lexeme} {next : Unit → Reader α}
    {Q : α → Remainder → Prop} (hs : s.lexemes = l :: rest)
    (h : Leads lexemes (next () { s with lexemes := rest }) Q) :
    Leads lexemes ((skip >>= next) s) Q := by
  obtain ⟨left, anchors⟩ := s
  cases hs
  exact h

/-! ## Steps one after the other -/

namespace Follows

variable {s₁ s₂ : Remainder} {d e : Nat}

theorem skip {l : Lexeme} {rest : List Lexeme} (h : Fits lexemes bound s)
    (hs : s.lexemes = l :: rest) : Follows lexemes bound s 0 { s with lexemes := rest } := by
  obtain ⟨smaller, rfl⟩ := h.exists_succ hs
  have hfits := (h.skip hs).mono (Nat.le_succ smaller)
  refine ⟨hfits, ?_, Nat.le_trans (Nat.le_of_eq (Nat.zero_add _)) hfits.length_le⟩
  rw [hs]
  exact List.suffix_cons l rest

theorem trans (h₁ : Follows lexemes bound s d s₁) (h₂ : Follows lexemes bound s₁ e s₂) :
    Follows lexemes bound s (max d e) s₂ := by
  have hlength := h₂.rest.length_le
  have hroom₁ := h₁.room
  have hroom₂ := h₂.room
  exact ⟨h₂.toFits, h₂.rest.trans h₁.rest, by omega⟩

theorem shallower (h : Follows lexemes bound s d s₁) (hle : e ≤ d) : Follows lexemes bound s e s₁ :=
  ⟨h.toFits, h.rest, Nat.le_trans (Nat.add_le_add_right hle _) h.room⟩

theorem nest {l : Lexeme} {rest : List Lexeme} (hs : s.lexemes = l :: rest)
    (h : Follows lexemes bound { s with lexemes := rest } d s₁) :
    Follows lexemes (bound + 1) s (d + 1) s₁ := by
  have hroom := h.room
  refine ⟨h.toFits.mono (Nat.le_succ bound), h.rest.trans ?_, by omega⟩
  rw [hs]
  exact List.suffix_cons l rest

end Follows

/-! ## Properties of a node -/

theorem leads_unlessNext {stops : List Lexeme} {read : Reader Node} (h : Fits lexemes bound s)
    (hread : Leads lexemes (read s) fun n s' ↦ Follows lexemes bound s n.depth s') :
    Leads lexemes (unlessNext stops read s) fun n s' ↦ Follows lexemes bound s n.depth s' := by
  refine leads_peek_bind h fun l _ ↦ ?_
  split
  · exact h.follows
  · exact hread

theorem leads_givenTag (handles : Handles) (handle : Option String) (text : String) :
    Leads lexemes (givenTag handles handle text s) fun _ s' ↦ s' = s := by
  cases handle with
  | none => exact rfl
  | some h =>
    rw [givenTag]
    cases handles.lookup h with
    | none => exact .inl rfl
    | some start => exact rfl

theorem leads_readProperties (handles : Handles) (h : Fits lexemes bound s) :
    Leads lexemes (readProperties handles s) fun found s' ↦
      Follows lexemes bound s 0 s' ∧ ∀ name ∈ found.1, IsRead lexemes (.anchor name) s' := by
  refine leads_peek_bind h fun l hl ↦ ?_
  split
  · rename_i name
    obtain ⟨rest, hs⟩ := hl.exists_rest (nofun)
    have hskip := Follows.skip h hs
    refine leads_skip_bind hs (leads_peek_bind hskip.toFits fun l' hl' ↦ ?_)
    split
    · obtain ⟨rest', hs'⟩ := hl'.exists_rest (nofun)
      refine leads_skip_bind hs' (leads_bind (leads_givenTag handles _ _) ?_)
      rintro given _ rfl
      have hskip' := Follows.skip hskip.toFits hs'
      refine ⟨hskip.trans hskip', fun n hn ↦ ?_⟩
      rw [← Option.some.inj hn]
      exact (h.isRead hs).mono hskip'.rest
    · refine ⟨hskip, fun n hn ↦ ?_⟩
      rw [← Option.some.inj hn]
      exact h.isRead hs
  · obtain ⟨rest, hs⟩ := hl.exists_rest (nofun)
    have hskip := Follows.skip h hs
    refine leads_skip_bind hs (leads_peek_bind hskip.toFits fun l' hl' ↦ ?_)
    split
    · obtain ⟨rest', hs'⟩ := hl'.exists_rest (nofun)
      refine leads_skip_bind hs' (leads_bind (leads_givenTag handles _ _) ?_)
      rintro given _ rfl
      refine ⟨hskip.trans (.skip hskip.toFits hs'), fun n hn ↦ ?_⟩
      rw [← Option.some.inj hn]
      exact hskip.toFits.isRead hs'
    · refine leads_bind (leads_givenTag handles _ _) ?_
      rintro given _ rfl
      exact ⟨hskip, fun n hn ↦ nomatch hn⟩
  · exact ⟨h.follows, fun n hn ↦ nomatch hn⟩

/-- A reference to a node that is not complete stands behind the anchor of the node. -/
theorem leads_aliased {name : String} {rest : List Lexeme} (h : Fits lexemes bound s)
    (hs : s.lexemes = .reference name :: rest) :
    Leads lexemes (aliased name { s with lexemes := rest })
      fun n s' ↦ Follows lexemes bound s n.depth s' := by
  have hskip := Follows.skip h hs
  have hmem : ∀ found, s.anchors.lookup name = some found → (name, found) ∈ s.anchors := by
    intro found hfound
    obtain ⟨before, after, hsplit, -⟩ := List.lookup_eq_some_iff.mp hfound
    rw [hsplit]
    exact List.mem_append_right _ List.mem_cons_self
  rw [aliased]
  refine leads_get_bind ?_
  dsimp only
  cases hlookup : s.anchors.lookup name with
  | none => exact leads_malformed
  | some found =>
    cases found with
    | none =>
      obtain ⟨before, hbefore, hanchor⟩ := h.named _ (hmem _ hlookup)
      refine .inr (.inr ⟨rfl, name, ?_⟩)
      rw [← hbefore, hs]
      exact (List.singleton_sublist.mpr hanchor).append
        (List.singleton_sublist.mpr List.mem_cons_self)
    | some n => exact ⟨hskip.toFits, hskip.rest, hskip.depth_le name n (hmem _ hlookup)⟩

theorem leads_withAnchor {name : Option String} {read : Reader Node} (h : Fits lexemes bound s)
    (hname : ∀ n ∈ name, IsRead lexemes (.anchor n) s)
    (hread : ∀ s, Fits lexemes bound s →
      Leads lexemes (read s) fun n s' ↦ Follows lexemes bound s n.depth s') :
    Leads lexemes (withAnchor name read s) fun n s' ↦ Follows lexemes bound s n.depth s' := by
  cases name with
  | none => exact hread s h
  | some name =>
    have hfits : Fits lexemes bound { s with anchors := (name, none) :: s.anchors } := by
      refine ⟨h.suffix, h.length_le, fun a ha ↦ ?_, fun m n hmem ↦ ?_⟩
      · rcases List.mem_cons.mp ha with rfl | ha
        · exact hname name rfl
        · exact h.named a ha
      · exact h.depth_le m n ((List.mem_cons.mp hmem).resolve_left nofun)
    change Leads lexemes ((if (s.anchors.lookup name).isSome then (throw .malformed : Reader Node)
      else do
        modify fun s ↦ { s with anchors := (name, none) :: s.anchors }
        let node ← read
        modify fun s ↦ { s with anchors := (name, some node) :: s.anchors }
        return node) s) _
    by_cases htaken : (s.anchors.lookup name).isSome
    · rw [if_pos htaken]
      exact leads_malformed
    · rw [if_neg htaken]
      change Leads lexemes ((read >>= fun node ↦ do
        modify fun s ↦ { s with anchors := (name, some node) :: s.anchors }
        return node) { s with anchors := (name, none) :: s.anchors }) _
      refine leads_bind (hread _ hfits) fun n s' hn ↦ ?_
      refine ⟨⟨hn.suffix, hn.length_le, fun a ha ↦ ?_, fun m n' hmem ↦ ?_⟩, hn.rest, hn.room⟩
      · rcases List.mem_cons.mp ha with rfl | ha
        · exact (hname name rfl).mono hn.rest
        · exact hn.named a ha
      · rcases List.mem_cons.mp hmem with heq | hmem
        · cases heq
          exact hn.room
        · exact hn.depth_le m n' hmem

theorem leads_emptyNode {anchor : Option String} {given : GivenTag} (h : Fits lexemes bound s) :
    Leads lexemes (emptyNode anchor given s) fun n s' ↦ Follows lexemes bound s n.depth s' := by
  rw [emptyNode]
  split
  · exact leads_malformed
  · exact h.follows

theorem leads_readAfterColon {stops : List Lexeme} {read : Reader Node} (h : Fits lexemes bound s)
    (hread : ∀ s, Fits lexemes bound s →
      Leads lexemes (read s) fun n s' ↦ Follows lexemes bound s n.depth s') :
    Leads lexemes (readAfterColon stops read s) fun n s' ↦ Follows lexemes bound s n.depth s' := by
  refine leads_peek_bind h fun l hl ↦ ?_
  split
  · obtain ⟨rest, hs⟩ := hl.exists_rest nofun
    have hskip := Follows.skip h hs
    refine leads_skip_bind hs ((leads_unlessNext hskip.toFits (hread _ hskip.toFits)).mono ?_)
    exact fun n s' hn ↦ (hskip.trans hn).shallower (Nat.le_max_right _ _)
  · exact h.follows

theorem leads_readComma (h : Fits lexemes bound s) :
    Leads lexemes (readComma s) fun _ s' ↦ Follows lexemes bound s 0 s' := by
  refine leads_peek_bind h fun l hl ↦ ?_
  split
  · rename_i hcomma
    subst hcomma
    obtain ⟨rest, hs⟩ := hl.exists_rest nofun
    obtain ⟨left, anchors⟩ := s
    cases hs
    exact Follows.skip h rfl
  · exact leads_malformed

/-! ## Nodes -/

/-- What the readers keep that have a given fuel. -/
structure Keeps (lexemes : List Lexeme) (handles : Handles) (fuel : Nat) : Prop where
  /-- A node fits. -/
  node : ∀ (block indentless : Bool) {bound : Nat} {s : Remainder}, Fits lexemes bound s →
    Leads lexemes (readNode handles block indentless fuel s)
      fun n s' ↦ Follows lexemes bound s n.depth s'
  /-- The items of a block sequence fit. -/
  items : ∀ {bound : Nat} {s : Remainder}, Fits lexemes bound s →
    Leads lexemes (readItems handles fuel s)
      fun ns s' ↦ Follows lexemes bound s (depthOfItems ns) s'
  /-- The items of a sequence without indentation fit, and the first hyphen makes room for its level. -/
  indentless : ∀ {bound : Nat} {s : Remainder}, Fits lexemes bound s →
    Leads lexemes (readIndentless handles fuel s) fun ns s' ↦
      Follows lexemes bound s (depthOfItems ns + 1) s' ∨
        ns = [] ∧ s' = s ∧ ∀ rest, s.lexemes ≠ .entry :: rest
  /-- The entries of a block mapping fit. -/
  entries : ∀ {bound : Nat} {s : Remainder}, Fits lexemes bound s →
    Leads lexemes (readEntries handles fuel s)
      fun es s' ↦ Follows lexemes bound s (depthOfEntries es) s'
  /-- The items of a flow sequence fit. -/
  flowItems : ∀ (first : Bool) {bound : Nat} {s : Remainder}, Fits lexemes bound s →
    Leads lexemes (readFlowItems handles first fuel s)
      fun ns s' ↦ Follows lexemes bound s (depthOfItems ns) s'
  /-- The entries of a flow mapping fit. -/
  flowEntries : ∀ (first : Bool) {bound : Nat} {s : Remainder}, Fits lexemes bound s →
    Leads lexemes (readFlowEntries handles first fuel s)
      fun es s' ↦ Follows lexemes bound s (depthOfEntries es) s'

theorem leads_collection {l : Lexeme} {rest : List Lexeme} {read : Reader α} {make : α → Node}
    {depthOf : α → Nat} (hmake : ∀ a, (make a).depth = depthOf a + 1) (h : Fits lexemes bound s)
    (hs : s.lexemes = l :: rest)
    (hread : ∀ {bound s}, Fits lexemes bound s →
      Leads lexemes (read s) fun a s' ↦ Follows lexemes bound s (depthOf a) s') :
    Leads lexemes ((do skip; return make (← read)) s)
      fun n s' ↦ Follows lexemes bound s n.depth s' := by
  obtain ⟨smaller, rfl⟩ := h.exists_succ hs
  refine leads_skip_bind hs (leads_bind (hread (h.skip hs)) fun a s' ha ↦ ?_)
  change Follows lexemes (smaller + 1) s (make a).depth s'
  rw [hmake]
  exact ha.nest hs

variable {handles : Handles} {fuel : Nat}

theorem leads_readNode (keeps : Keeps lexemes handles fuel) (block indentless : Bool)
    (h : Fits lexemes bound s) :
    Leads lexemes (readNode handles block indentless (fuel + 1) s)
      fun n s' ↦ Follows lexemes bound s n.depth s' := by
  rw [readNode]
  refine leads_peek_bind h fun l hl ↦ ?_
  split
  · obtain ⟨rest, hs⟩ := hl.exists_rest nofun
    -- the node has been read already, and the bound has had room for it since
    exact leads_skip_bind hs (leads_aliased h hs)
  · refine leads_bind (leads_readProperties handles h) ?_
    rintro ⟨anchor, given⟩ s₁ ⟨hprops, hanchor⟩
    refine (leads_withAnchor hprops.toFits hanchor fun s hs ↦ ?_).mono fun n s' hn ↦
      (hprops.trans hn).shallower (Nat.le_max_right _ _)
    refine leads_peek_bind hs fun l hl ↦ ?_
    split
    · obtain ⟨rest, hrest⟩ := hl.exists_rest nofun
      split
      · refine leads_bind (keeps.indentless hs) fun items s' hitems ↦ ?_
        -- a hyphen is next, so there is an item, and its hyphen makes room for the sequence
        exact hitems.resolve_right fun hnone ↦ hnone.2.2 rest hrest
      · exact leads_emptyNode hs
    · obtain ⟨rest, hrest⟩ := hl.exists_rest nofun
      exact leads_skip_bind hrest (Follows.skip hs hrest)
    · obtain ⟨rest, hrest⟩ := hl.exists_rest nofun
      exact leads_collection (fun _ ↦ rfl) hs hrest (keeps.flowItems true)
    · obtain ⟨rest, hrest⟩ := hl.exists_rest nofun
      exact leads_collection (fun _ ↦ rfl) hs hrest (keeps.flowEntries true)
    · obtain ⟨rest, hrest⟩ := hl.exists_rest nofun
      split
      · exact leads_collection (fun _ ↦ rfl) hs hrest keeps.items
      · exact leads_emptyNode hs
    · obtain ⟨rest, hrest⟩ := hl.exists_rest nofun
      split
      · exact leads_collection (fun _ ↦ rfl) hs hrest keeps.entries
      · exact leads_emptyNode hs
    · exact leads_emptyNode hs

theorem leads_readItems (keeps : Keeps lexemes handles fuel) (h : Fits lexemes bound s) :
    Leads lexemes (readItems handles (fuel + 1) s)
      fun ns s' ↦ Follows lexemes bound s (depthOfItems ns) s' := by
  rw [readItems]
  refine leads_peek_bind h fun l hl ↦ ?_
  split
  · obtain ⟨rest, hs⟩ := hl.exists_rest nofun
    have hskip := Follows.skip h hs
    have hitem := keeps.node true false hskip.toFits
    refine leads_skip_bind hs (leads_bind (leads_unlessNext hskip.toFits hitem) fun n s₁ hn ↦ ?_)
    refine leads_bind (keeps.items hn.toFits) fun ns s₂ hns ↦ ?_
    exact ((hskip.trans hn).trans hns).shallower
      (Nat.le_of_eq (by rw [depthOfItems, Nat.zero_max]))
  · obtain ⟨rest, hs⟩ := hl.exists_rest nofun
    exact leads_skip_bind hs (Follows.skip h hs)
  · exact leads_malformed

theorem leads_readIndentless (keeps : Keeps lexemes handles fuel) (h : Fits lexemes bound s) :
    Leads lexemes (readIndentless handles (fuel + 1) s) fun ns s' ↦
      Follows lexemes bound s (depthOfItems ns + 1) s' ∨
        ns = [] ∧ s' = s ∧ ∀ rest, s.lexemes ≠ .entry :: rest := by
  rw [readIndentless]
  refine leads_peek_bind h fun l hl ↦ ?_
  split
  · obtain ⟨rest, hs⟩ := hl.exists_rest nofun
    obtain ⟨smaller, rfl⟩ := h.exists_succ hs
    have hskip := h.skip hs
    have hitem := keeps.node true false hskip
    refine leads_skip_bind hs (leads_bind (leads_unlessNext hskip hitem) fun n s₁ hn ↦ ?_)
    refine leads_bind (keeps.indentless hn.toFits) fun ns s₂ hns ↦ .inl ?_
    rcases hns with hns | ⟨rfl, rfl, -⟩
    · -- the first hyphen pays for the level; the later ones are not needed
      refine ((hn.trans hns).shallower ?_).nest hs
      rw [depthOfItems]
      omega
    · exact (hn.shallower (Nat.le_of_eq (by rw [depthOfItems, depthOfItems, Nat.max_zero]))).nest hs
  · rename_i hentry
    refine .inr ⟨rfl, rfl, fun rest hs ↦ ?_⟩
    rcases hl with ⟨-, hnil⟩ | ⟨rest', hrest⟩
    · rw [hs] at hnil
      exact nomatch hnil
    · rw [hs] at hrest
      exact hentry (List.cons.inj hrest).1.symm

/-- A key and its value behind the lexeme that begins the key, which makes room for one more level. -/
theorem leads_pair_bind {l : Lexeme} {rest stops stops' : List Lexeme} {block indentless : Bool}
    {next : Node → Node → Reader α} {Q : α → Remainder → Prop} (keeps : Keeps lexemes handles fuel)
    (h : Fits lexemes bound s) (hs : s.lexemes = l :: rest)
    (hnext : ∀ k v s', Follows lexemes bound s (max k.depth v.depth + 1) s' →
      Leads lexemes (next k v s') Q) :
    Leads lexemes ((do
      skip
      let k ← unlessNext stops (readNode handles block indentless fuel)
      let v ← readAfterColon stops' (readNode handles block indentless fuel)
      next k v) s) Q := by
  obtain ⟨smaller, rfl⟩ := h.exists_succ hs
  have hskip := h.skip hs
  refine leads_skip_bind hs (leads_bind (leads_unlessNext hskip (keeps.node block indentless hskip))
    fun k s₁ hk ↦ ?_)
  exact leads_bind (leads_readAfterColon hk.toFits fun _ ↦ keeps.node block indentless)
    fun v s₂ hv ↦ hnext k v s₂ ((hk.trans hv).nest hs)

theorem leads_readEntries (keeps : Keeps lexemes handles fuel) (h : Fits lexemes bound s) :
    Leads lexemes (readEntries handles (fuel + 1) s)
      fun es s' ↦ Follows lexemes bound s (depthOfEntries es) s' := by
  rw [readEntries]
  refine leads_peek_bind h fun l hl ↦ ?_
  split
  · obtain ⟨rest, hs⟩ := hl.exists_rest nofun
    refine leads_pair_bind keeps h hs fun k v s₁ hpair ↦ ?_
    refine leads_bind (keeps.entries hpair.toFits) fun es s₂ hes ↦ ?_
    refine (hpair.trans hes).shallower ?_
    rw [depthOfEntries]
    omega
  · obtain ⟨rest, hs⟩ := hl.exists_rest nofun
    exact leads_skip_bind hs (Follows.skip h hs)
  · exact leads_malformed

theorem leads_separated {first : Bool} {next : Reader α} {Q : α → Remainder → Prop}
    (h : Fits lexemes bound s)
    (hnext : ∀ s', Follows lexemes bound s 0 s' → Leads lexemes (next s') Q) :
    Leads lexemes ((do if !first then readComma
                       next) s) Q := by
  cases first with
  | true => exact hnext s h.follows
  | false => exact leads_bind (leads_readComma h) fun _ s' hs ↦ hnext s' hs

theorem leads_readFlowItems (keeps : Keeps lexemes handles fuel) (first : Bool)
    (h : Fits lexemes bound s) :
    Leads lexemes (readFlowItems handles first (fuel + 1) s)
      fun ns s' ↦ Follows lexemes bound s (depthOfItems ns) s' := by
  rw [readFlowItems]
  refine leads_peek_bind h fun l hl ↦ ?_
  split
  · rename_i hend
    obtain ⟨rest, hs⟩ := hl.exists_rest (hend ▸ nofun)
    exact leads_skip_bind hs (Follows.skip h hs)
  · refine leads_separated h fun s₁ hs₁ ↦ leads_peek_bind hs₁.toFits fun l hl ↦ ?_
    split
    · obtain ⟨rest, hs⟩ := hl.exists_rest nofun
      exact leads_skip_bind hs (hs₁.trans (Follows.skip hs₁.toFits hs))
    · obtain ⟨rest, hs⟩ := hl.exists_rest nofun
      refine leads_pair_bind keeps hs₁.toFits hs fun k v s₂ hpair ↦ ?_
      refine leads_bind (keeps.flowItems false hpair.toFits) fun ns s₃ hns ↦ ?_
      refine ((hs₁.trans hpair).trans hns).shallower ?_
      rw [depthOfItems, depth, depthOfEntries, depthOfEntries]
      omega
    · refine leads_bind (keeps.node false false hs₁.toFits) fun n s₂ hn ↦ ?_
      refine leads_bind (keeps.flowItems false hn.toFits) fun ns s₃ hns ↦ ?_
      exact ((hs₁.trans hn).trans hns).shallower
        (Nat.le_of_eq (by rw [depthOfItems, Nat.zero_max]))

theorem leads_readFlowEntries (keeps : Keeps lexemes handles fuel) (first : Bool)
    (h : Fits lexemes bound s) :
    Leads lexemes (readFlowEntries handles first (fuel + 1) s)
      fun es s' ↦ Follows lexemes bound s (depthOfEntries es) s' := by
  rw [readFlowEntries]
  refine leads_peek_bind h fun l hl ↦ ?_
  split
  · rename_i hend
    obtain ⟨rest, hs⟩ := hl.exists_rest (hend ▸ nofun)
    exact leads_skip_bind hs (Follows.skip h hs)
  · refine leads_separated h fun s₁ hs₁ ↦ leads_peek_bind hs₁.toFits fun l hl ↦ ?_
    split
    · obtain ⟨rest, hs⟩ := hl.exists_rest nofun
      exact leads_skip_bind hs (hs₁.trans (Follows.skip hs₁.toFits hs))
    · obtain ⟨rest, hs⟩ := hl.exists_rest nofun
      refine leads_pair_bind keeps hs₁.toFits hs fun k v s₂ hpair ↦ ?_
      refine leads_bind (keeps.flowEntries false hpair.toFits) fun es s₃ hes ↦ ?_
      refine ((hs₁.trans hpair).trans hes).shallower ?_
      rw [depthOfEntries]
      omega
    · refine leads_bind (keeps.node false false hs₁.toFits) fun k s₂ hk ↦ ?_
      refine leads_bind (keeps.flowEntries false hk.toFits) fun es s₃ hes ↦ ?_
      refine ((hs₁.trans hk).trans hes).shallower ?_
      rw [depthOfEntries, empty, depth]
      omega

/-- **Reading keeps the invariant.** -/
theorem keeps (lexemes : List Lexeme) (handles : Handles) (fuel : Nat) :
    Keeps lexemes handles fuel := by
  induction fuel with
  | zero =>
    exact ⟨fun _ _ _ _ _ ↦ leads_malformed, fun _ ↦ leads_malformed, fun _ ↦ leads_malformed,
      fun _ ↦ leads_malformed, fun _ _ _ _ ↦ leads_malformed, fun _ _ _ _ ↦ leads_malformed⟩
  | succ fuel ih =>
    exact ⟨fun block indentless _ _ ↦ leads_readNode ih block indentless, leads_readItems ih,
      leads_readIndentless ih, leads_readEntries ih, fun first _ _ ↦ leads_readFlowItems ih first,
      fun first _ _ ↦ leads_readFlowEntries ih first⟩

/-! ## Documents -/

theorem leads_readDirectives (versioned : Bool) (handles : Handles) (fuel : Nat)
    (h : Fits lexemes bound s) :
    Leads lexemes (readDirectives versioned handles fuel s)
      fun _ s' ↦ Follows lexemes bound s 0 s' := by
  induction fuel generalizing s versioned handles with
  | zero => exact h.follows
  | succ fuel ih =>
    rw [readDirectives]
    refine leads_peek_bind h fun l hl ↦ ?_
    split
    · obtain ⟨rest, hs⟩ := hl.exists_rest nofun
      have hskip := Follows.skip h hs
      have hmore : ∀ versioned handles, Leads lexemes
          (readDirectives versioned handles fuel { s with lexemes := rest })
            fun _ s' ↦ Follows lexemes bound s 0 s' :=
        fun versioned handles ↦ (ih versioned handles hskip.toFits).mono fun _ _ hs' ↦ hskip.trans hs'
      refine leads_skip_bind hs ?_
      split
      · split
        · exact .inl rfl
        · exact hmore true handles
      · split
        · exact .inl rfl
        · exact hmore versioned _
      · exact hmore versioned handles
    · exact h.follows

theorem leads_readDocument (fuel : Nat) (h : Fits lexemes bound s) :
    Leads lexemes (readDocument fuel s) fun n s' ↦ Follows lexemes bound s n.depth s' := by
  refine leads_peek_bind h fun l hl ↦ ?_
  split
  case h_1 | h_2 =>
    refine leads_bind (leads_readDirectives false [] fuel h) fun handles s₁ hs₁ ↦ ?_
    refine leads_peek_bind hs₁.toFits fun l hl ↦ ?_
    by_cases hstart : l = .documentStart
    · subst hstart
      obtain ⟨rest, hs⟩ := hl.exists_rest nofun
      have hskip := hs₁.trans (Follows.skip hs₁.toFits hs)
      refine leads_skip_bind hs (leads_peek_bind hskip.toFits fun l hl ↦ ?_)
      have hnode := ((keeps lexemes (handles ++ standardHandles) fuel).node true false
        hskip.toFits).mono fun n s' hn ↦ (hskip.trans hn).shallower (Nat.le_max_right _ _)
      split
      · exact hskip
      · exact hskip
      · exact hskip
      · exact hskip
      · exact hnode
    · rw [if_pos (by simpa using hstart)]
      exact .inl rfl
  case h_3 => exact (keeps lexemes standardHandles fuel).node true false h

theorem leads_skipEnds (fuel : Nat) (h : Fits lexemes bound s) :
    Leads lexemes (skipEnds fuel s) fun _ s' ↦ Follows lexemes bound s 0 s' := by
  induction fuel generalizing s with
  | zero => exact h.follows
  | succ fuel ih =>
    rw [skipEnds]
    refine leads_peek_bind h fun l hl ↦ ?_
    split
    · rename_i hend
      obtain ⟨rest, hs⟩ := hl.exists_rest (hend ▸ nofun)
      have hskip := Follows.skip h hs
      exact leads_skip_bind hs ((ih hskip.toFits).mono fun _ _ hs' ↦ hskip.trans hs')
    · exact h.follows

/-- **Reading a document.** It goes wrong for the three reasons only, and no node that is read is deeper
than there are lexemes. -/
theorem ofLexemes_outcome (lexemes : List Lexeme) :
    (∃ f, ofLexemes lexemes = .error f ∧ IsReadingFault lexemes f) ∨
    ofLexemes lexemes = .ok none ∨
    ∃ n, ofLexemes lexemes = .ok (some n) ∧ n.depth ≤ lexemes.length := by
  have h : Fits lexemes lexemes.length ⟨lexemes, []⟩ :=
    ⟨List.suffix_refl _, Nat.le_refl _, fun _ ha ↦ (nomatch ha), fun _ _ hn ↦ nomatch hn⟩
  have hstream : Leads lexemes (readStream (4 * lexemes.length + 16) ⟨lexemes, []⟩)
      fun found _ ↦ ∀ n ∈ found, n.depth ≤ lexemes.length := by
    refine leads_peek_bind h fun l hl ↦ ?_
    split
    · exact fun n hn ↦ nomatch hn
    · refine leads_bind (leads_readDocument _ h) fun n s₁ hn ↦ ?_
      refine leads_bind (leads_skipEnds _ hn.toFits) fun _ s₂ hs₂ ↦ ?_
      refine leads_peek_bind hs₂.toFits fun l hl ↦ ?_
      split
      · intro m hm
        rw [← Option.some.inj hm]
        exact Nat.le_trans (Nat.le_add_right _ _) hn.room
      · exact leads_malformed
  rw [ofLexemes]
  cases hread : readStream (4 * lexemes.length + 16) ⟨lexemes, []⟩ with
  | error f =>
    rw [hread] at hstream
    exact .inl ⟨f, rfl, hstream⟩
  | ok found =>
    rw [hread] at hstream
    obtain ⟨_ | n, s'⟩ := found
    · exact .inr (.inl rfl)
    · exact .inr (.inr ⟨n, rfl, hstream n rfl⟩)

end NoteQuery.Yaml.Node
