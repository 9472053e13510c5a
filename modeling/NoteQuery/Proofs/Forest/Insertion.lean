import NoteQuery.Proofs.Forest.Places

/-!
# Building a forest by insertion

The forest of some records can also be built by putting one record after the other into nested
folders: along the segments of its path each folder is looked up by name or made as the last one, and
the record takes the place of what was put at the same path before. What comes out is the same forest.

The invariant is that after some insertions the folder at any place, the empty one where there is
none, has the last record of that place and the next segments of that place as its names. It speaks of
all places at once, so that one insertion is one lookup: along the path the folders change, elsewhere
they do not.
-/

namespace NoteQuery

open Forest

/-- A folder that records are put into. -/
inductive Folder
  /-- A folder with the record of its own path and its parts under their names, in the order in which
  they were made. -/
  | node (record : Option Record) (parts : List (String × Folder))

namespace Folder

/-! ## Insertion -/

/-- A folder without a record and without parts. -/
def empty : Folder := node none []

/-- The record of the folder's own path. -/
def record : Folder → Option Record
  | node r _ => r

/-- The parts under their names. -/
def parts : Folder → List (String × Folder)
  | node _ ps => ps

/-- The names of the parts. -/
def names (f : Folder) : List String := f.parts.map Prod.fst

/-- The part with a name; an empty folder if there is none. -/
def part (f : Folder) (name : String) : Folder := (f.parts.lookup name).getD empty

/-- Changes the part with a name. A part that is missing is made, after the others. -/
def changePart (name : String) (change : Folder → Folder) :
    List (String × Folder) → List (String × Folder)
  | [] => [(name, change empty)]
  | (n, f) :: rest =>
    if n = name then (n, change f) :: rest else (n, f) :: changePart name change rest

/-- Puts a record at the end of a path. -/
def insert (r : Record) : List String → Folder → Folder
  | [], f => node (some r) f.parts
  | s :: path, f => node f.record (changePart s (insert r path) f.parts)

/-- The folder with the records of some entries, put into it one after the other. -/
def ofEntries (es : List Entry) : Folder := es.foldl (fun f e ↦ f.insert e.2 e.1) empty

mutual

/-- The node that a folder is at a place. -/
def branch (place : List String) : Folder → Branch
  | node (some r) ps => .node r (branches place ps) (branches place ps).isEmpty
  | node none ps => .node (Record.ofPath (pathOf place)) (branches place ps) false

/-- The nodes that the parts of a folder are. -/
def branches (place : List String) : List (String × Folder) → Forest
  | [] => []
  | (s, f) :: rest => f.branch (place ++ [s]) :: branches place rest

end

/-- The forest that a folder is. A record of the empty path is nowhere in it. -/
def forest (f : Folder) : Forest := branches [] f.parts

/-! ## Looking up -/

/-- The folder at a place; an empty one if there is none. -/
def descend : Folder → List String → Folder
  | f, [] => f
  | f, s :: place => (f.part s).descend place

theorem descend_empty (place : List String) : empty.descend place = empty := by
  induction place with
  | nil => rfl
  | cons s place ih => exact ih

theorem descend_concat (f : Folder) (place : List String) (s : String) :
    f.descend (place ++ [s]) = (f.descend place).part s := by
  induction place generalizing f with
  | nil => rfl
  | cons t place ih => exact ih (f.part t)

theorem lookup_cons_eq_ite (s t : String) (f : Folder) (ps : List (String × Folder)) :
    List.lookup t ((s, f) :: ps) = if t = s then some f else ps.lookup t := by
  rw [List.lookup_cons]
  by_cases ht : t = s
  · rw [if_pos ht, beq_iff_eq.mpr ht]
  · rw [if_neg ht, beq_eq_false_iff_ne.mpr ht]

theorem lookup_changePart (name t : String) (change : Folder → Folder)
    (ps : List (String × Folder)) :
    (changePart name change ps).lookup t
      = if t = name then some (change ((ps.lookup name).getD empty)) else ps.lookup t := by
  induction ps with
  | nil => exact lookup_cons_eq_ite name t _ []
  | cons p ps ih =>
    obtain ⟨n, f⟩ := p
    rw [changePart, lookup_cons_eq_ite n t, lookup_cons_eq_ite n name]
    by_cases hn : n = name
    · rw [if_pos hn, if_pos hn.symm, lookup_cons_eq_ite, hn]
      by_cases ht : t = name
      · rw [if_pos ht, if_pos ht, Option.getD_some]
      · rw [if_neg ht, if_neg ht, if_neg ht]
    · rw [if_neg hn, if_neg (Ne.symm hn), lookup_cons_eq_ite, ih]
      by_cases ht : t = n
      · rw [if_pos ht, if_pos ht, if_neg (ht ▸ hn)]
      · rw [if_neg ht, if_neg ht]

theorem names_changePart (name : String) (change : Folder → Folder) (ps : List (String × Folder)) :
    (changePart name change ps).map Prod.fst
      = if name ∈ ps.map Prod.fst then ps.map Prod.fst else ps.map Prod.fst ++ [name] := by
  induction ps with
  | nil => rfl
  | cons p ps ih =>
    obtain ⟨n, f⟩ := p
    rw [changePart]
    by_cases hn : n = name
    · rw [if_pos hn, if_pos (by simp [hn])]
      rfl
    · rw [if_neg hn, List.map_cons, ih, List.map_cons]
      by_cases hmem : name ∈ ps.map Prod.fst
      · rw [if_pos hmem, if_pos (List.mem_cons_of_mem _ hmem)]
      · rw [if_neg hmem, if_neg (List.not_mem_cons_of_ne_of_not_mem (Ne.symm hn) hmem)]
        rfl

/-- **One insertion.** The folders along the path change, the others stay. -/
theorem descend_insert (r : Record) (path : List String) (f : Folder) (place : List String) :
    (f.insert r path).descend place
      = if place <+: path then (f.descend place).insert r (path.drop place.length)
        else f.descend place := by
  induction place generalizing f path with
  | nil => rfl
  | cons s place ih =>
    cases path with
    | nil =>
      have hnot : ¬s :: place <+: [] := fun h ↦ nomatch List.prefix_nil.mp h
      rw [if_neg hnot]
      rfl
    | cons t path =>
      have hpart : (f.insert r (t :: path)).part s
          = if s = t then (f.part s).insert r path else f.part s := by
        rw [part, insert, parts, lookup_changePart]
        by_cases hst : s = t
        · rw [if_pos hst, if_pos hst, hst]
          rfl
        · rw [if_neg hst, if_neg hst]
          rfl
      rw [descend, hpart, descend]
      by_cases hst : s = t
      · rw [if_pos hst, ih]
        simp [hst]
      · have hnot : ¬s :: place <+: t :: path := fun h ↦ hst (List.cons_prefix_cons.mp h).1
        rw [if_neg hst, if_neg hnot]

/-! ## What a folder shows after some insertions -/

/-- Whether every place of a folder is as some entries have it. -/
structure Shows (f : Folder) (es : List Entry) : Prop where
  /-- The records are the last ones of their places. -/
  record_descend : ∀ p, (f.descend p).record = recordAt? es p
  /-- The names are the next segments of their places. -/
  names_descend : ∀ p, (f.descend p).names = nextSegments es p

theorem shows_insert {f : Folder} {es : List Entry} (h : f.Shows es) (e : Entry) :
    (f.insert e.2 e.1).Shows (es ++ [e]) := by
  have hat : ∀ p, (f.insert e.2 e.1).descend p = if p <+: e.1
      then (f.descend p).insert e.2 (e.1.drop p.length) else f.descend p := descend_insert e.2 e.1 f
  constructor
  · intro p
    rw [hat, recordAt?_concat]
    by_cases hp : p <+: e.1
    · obtain ⟨rest, hrest⟩ := hp
      rw [← hrest, if_pos (List.prefix_append p rest), List.drop_left]
      cases rest with
      | nil => rw [List.append_nil, if_pos rfl, insert, record]
      | cons s rest => rw [if_neg (isAbove_append_cons p s rest).2, insert, record, h.record_descend]
    · have hne : p ≠ e.1 := fun heq ↦ hp (heq ▸ List.prefix_refl p)
      rw [if_neg hp, if_neg hne, h.record_descend]
  · intro p
    rw [hat, nextSegments_concat]
    by_cases hp : p <+: e.1
    · obtain ⟨rest, hrest⟩ := hp
      rw [← hrest, if_pos (List.prefix_append p rest), List.drop_left, nextSegment?_append]
      cases rest with
      | nil => rw [insert, ← h.names_descend]; rfl
      | cons s rest =>
        rw [insert, ← h.names_descend]
        exact names_changePart s _ _
    · rw [if_neg hp, nextSegment?_of_not_prefix hp, h.names_descend]

theorem shows_ofEntries (es : List Entry) : (ofEntries es).Shows es := by
  have key : ∀ (done more : List Entry) (f : Folder), f.Shows done →
      (more.foldl (fun f e ↦ f.insert e.2 e.1) f).Shows (done ++ more) := by
    intro done more
    induction more generalizing done with
    | nil =>
      intro f h
      rwa [List.append_nil]
    | cons e more ih =>
      intro f h
      rw [List.foldl_cons, List.append_cons]
      exact ih _ _ (shows_insert h e)
  refine key [] es empty ⟨fun p ↦ ?_, fun p ↦ ?_⟩
  · rw [descend_empty]
    rfl
  · rw [descend_empty]
    rfl

/-! ## The forest of a folder -/

theorem branches_eq_map (place : List String) (ps : List (String × Folder)) :
    branches place ps = ps.map fun p ↦ p.2.branch (place ++ [p.1]) := by
  induction ps with
  | nil => rw [branches, List.map_nil]
  | cons p ps ih => rw [branches, ih, List.map_cons]

theorem branch_eq (f : Folder) (place : List String) :
    f.branch place = match f.record with
      | some r => .node r (branches place f.parts) (branches place f.parts).isEmpty
      | none => .node (Record.ofPath (pathOf place)) (branches place f.parts) false := by
  obtain ⟨_ | r, ps⟩ := f
  · rw [branch]
    rfl
  · rw [branch]
    rfl

theorem lookup_eq_some_of_mem {ps : List (String × Folder)} (h : (ps.map Prod.fst).Nodup)
    {p : String × Folder} (hp : p ∈ ps) : ps.lookup p.1 = some p.2 := by
  induction ps with
  | nil => exact nomatch hp
  | cons q ps ih =>
    rw [List.map_cons, List.nodup_cons] at h
    rw [lookup_cons_eq_ite]
    rcases List.mem_cons.mp hp with rfl | hp
    · rw [if_pos rfl]
    · have hne : p.1 ≠ q.1 := fun heq ↦ h.1 (heq ▸ List.mem_map_of_mem hp)
      rw [if_neg hne, ih h.2 hp]

theorem Shows.branches_descend {f : Folder} {es : List Entry} (h : f.Shows es) (place : List String) :
    branches place (f.descend place).parts = under es place := by
  induction place using @place_induction es with
  | step place ih =>
    have hnodup : (f.descend place).names.Nodup := by
      rw [h.names_descend]
      exact Text.nodup_distinct _
    have hpart : ∀ p ∈ (f.descend place).parts,
        p.2.branch (place ++ [p.1]) = Forest.node es (place ++ [p.1]) := by
      intro p hp
      have hfolder : p.2 = f.descend (place ++ [p.1]) := by
        rw [descend_concat, part, lookup_eq_some_of_mem hnodup hp, Option.getD_some]
      have hname : p.1 ∈ nextSegments es place := by
        rw [← h.names_descend]
        exact List.mem_map_of_mem hp
      rw [hfolder, branch_eq, ih p.1 hname, h.record_descend]
      rfl
    rw [branches_eq_map, List.map_congr_left hpart, under_eq, ← h.names_descend, names, List.map_map]
    rfl

end Folder

/-- **Insertion.** The forest of some records is what they make when they are put into folders one
after the other. -/
theorem Forest.ofRecords_eq_forest (records : List Record) :
    ofRecords records = (Folder.ofEntries (entries records)).forest :=
  ((Folder.shows_ofEntries (entries records)).branches_descend []).symm

end NoteQuery
