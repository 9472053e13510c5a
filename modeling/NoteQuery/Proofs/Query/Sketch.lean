import NoteQuery.Query.Tree

/-!
# Trees with gaps

A query may lack operands: `a OR` has nothing on the right, `a OR ()` has an empty group there. A
sketch is a tree in which such places are left open. Two things are read off it.

* `Sketch.tree?` is the tree that is meant: a joint that lacks an operand is its other operand, and
  nothing at all if both are missing.
* `Sketch.build` is what the pass over the tokens makes of it: leaves are put on the stack of
  operands, and a joint combines the two topmost ones, whatever they belong to.

## Where the two agree

The pass drops a joint when it finds fewer than two operands. It counts the operands of the whole
query, so a joint that lacks an operand is kept when two others wait, and then some later joint
finds one operand too few and is dropped in its place. Both readings leave the leaves in order and
differ only in the joints they keep. A tree is determined by its leaves and joints in postfix order,
so the two agree exactly when the joints kept by counting spell the same word as the joints that
have both operands. That is `Sketch.CountsRight`, and `head?_build_eq_tree?_iff` is the equivalence.
-/

namespace NoteQuery

variable {α : Type}

/-- A tree in which operands may be missing. -/
inductive Sketch (α : Type)
  /-- A missing operand. -/
  | gap
  /-- A single term. -/
  | leaf (a : α)
  /-- Two parts, joined. -/
  | node (op : Connective) (left right : Sketch α)
deriving Repr, DecidableEq

namespace Sketch

/-- The tree that is meant. -/
def tree? : Sketch α → Option (Tree α)
  | gap => none
  | leaf a => some (.leaf a)
  | node op l r => Option.merge (.node op) l.tree? r.tree?

/-- What the pass makes of a sketch, on a stack of operands with its top first. -/
def build : Sketch α → List (Tree α) → List (Tree α)
  | gap, operands => operands
  | leaf a, operands => .leaf a :: operands
  | node op l r, operands => Stacks.combine op (r.build (l.build operands))

/-- No operand is missing. -/
def Whole : Sketch α → Prop
  | gap => False
  | leaf _ => True
  | node _ l r => l.Whole ∧ r.Whole

theorem exists_tree_of_whole {t : Sketch α} (h : t.Whole) :
    ∃ u, t.tree? = some u ∧ ∀ operands, t.build operands = u :: operands := by
  induction t with
  | gap => exact absurd h id
  | leaf a => exact ⟨.leaf a, rfl, fun _ ↦ rfl⟩
  | node op l r ihl ihr =>
    obtain ⟨u, hu, hbuildu⟩ := ihl h.1
    obtain ⟨v, hv, hbuildv⟩ := ihr h.2
    refine ⟨.node op u v, ?_, fun operands ↦ ?_⟩
    · rw [tree?, hu, hv, Option.merge_some_some]
    · rw [build, hbuildu, hbuildv, Stacks.combine]

theorem length_combine_le {op : Connective} {operands : List (Tree α)} {n : Nat}
    (h : operands.length ≤ n + 2) : (Stacks.combine op operands).length ≤ n + 1 := by
  match operands, h with
  | [], _ => exact Nat.zero_le _
  | [_], _ => exact Nat.succ_le_succ (Nat.zero_le n)
  | _ :: _ :: rest, h =>
    simp only [List.length_cons] at h
    simp only [Stacks.combine, List.length_cons]
    omega

/-- A sketch adds at most one operand, so that none is left over in the end. -/
theorem length_build_le (t : Sketch α) (operands : List (Tree α)) :
    (t.build operands).length ≤ operands.length + 1 := by
  induction t generalizing operands with
  | gap => exact Nat.le_succ _
  | leaf a => exact Nat.le_refl _
  | node op l r ihl ihr =>
    rw [build]
    refine length_combine_le ?_
    have hl := ihl operands
    have hr := ihr (l.build operands)
    omega

end Sketch

/-! ## Postfix words -/

/-- A sign of a postfix word. -/
inductive Mark (α : Type)
  /-- A term. -/
  | term (a : α)
  /-- A joint, with whether both of its operands are there. -/
  | joint (op : Connective) (complete : Bool)
deriving Repr, DecidableEq

namespace Mark

/-- The word without the joints that lack an operand. -/
def keepComplete (word : List (Mark α)) : List (Mark α) :=
  word.filter fun
    | term _ => true
    | joint _ complete => complete

/-- The word without the joints that find fewer than two operands, `waiting` operands being there at
the start. A joint that is kept counts as complete. -/
def keepCounted (waiting : Nat) : List (Mark α) → List (Mark α)
  | [] => []
  | term a :: rest => term a :: keepCounted (waiting + 1) rest
  | joint op _ :: rest =>
    if waiting < 2 then keepCounted waiting rest
    else joint op true :: keepCounted (waiting - 1) rest

end Mark

namespace Tree

/-- The leaves and joints of a tree, every joint after its operands. -/
def toPostfix : Tree α → List (Mark α)
  | leaf a => [.term a]
  | node op l r => l.toPostfix ++ r.toPostfix ++ [.joint op true]

end Tree

namespace Mark

/-- Reads a postfix word with a stack of operands. -/
def read : List (Mark α) → List (Tree α) → List (Tree α)
  | [], operands => operands
  | term a :: rest, operands => read rest (.leaf a :: operands)
  | joint op _ :: rest, operands => read rest (Stacks.combine op operands)

theorem read_append (u v : List (Mark α)) (operands : List (Tree α)) :
    read (u ++ v) operands = read v (read u operands) := by
  induction u generalizing operands with
  | nil => rfl
  | cons m u ih =>
    cases m with
    | term a => rw [List.cons_append, read, read, ih]
    | joint op b => rw [List.cons_append, read, read, ih]

theorem read_toPostfix (t : Tree α) (operands : List (Tree α)) :
    read t.toPostfix operands = t :: operands := by
  induction t generalizing operands with
  | leaf a => rfl
  | node op l r ihl ihr =>
    rw [Tree.toPostfix, read_append, read_append, ihl, ihr]
    rfl

/-- The word of a tree that may be missing. -/
def ofTree? (t : Option (Tree α)) : List (Mark α) := t.elim [] Tree.toPostfix

theorem ofTree?_injective {t u : Option (Tree α)} (h : ofTree? t = ofTree? u) : t = u := by
  have hread (v : Option (Tree α)) : (read (ofTree? v) []).head? = v := by
    cases v with
    | none => rfl
    | some v => rw [ofTree?, Option.elim_some, read_toPostfix, List.head?_cons]
  rw [← hread t, ← hread u, h]

/-- The word of a stack of operands, the lowest one first. -/
def ofStack : List (Tree α) → List (Mark α)
  | [] => []
  | t :: rest => ofStack rest ++ t.toPostfix

/-- **Counting.** Reading a word adds to the stack what counting keeps of the word. -/
theorem ofStack_read (word : List (Mark α)) (operands : List (Tree α)) :
    ofStack (read word operands) = ofStack operands ++ keepCounted operands.length word := by
  induction word generalizing operands with
  | nil => rw [read, keepCounted, List.append_nil]
  | cons m word ih =>
    cases m with
    | term a =>
      rw [read, ih, ofStack, keepCounted, List.length_cons, Tree.toPostfix, List.append_assoc,
        List.singleton_append]
    | joint op b =>
      rw [read, ih, keepCounted]
      match operands with
      | [] => rfl
      | [t] => rfl
      | r :: l :: rest =>
        rw [if_neg (by simp), Stacks.combine, ofStack, ofStack, ofStack, Tree.toPostfix]
        simp only [List.length_cons, Nat.add_sub_cancel, List.append_assoc, List.singleton_append]

end Mark

namespace Sketch

/-- The leaves and joints of a sketch, every joint after its operands. -/
def toPostfix : Sketch α → List (Mark α)
  | gap => []
  | leaf a => [.term a]
  | node op l r =>
    l.toPostfix ++ r.toPostfix ++ [.joint op (l.tree?.isSome && r.tree?.isSome)]

/-- Counting the operands that wait singles out the joints that lack one. -/
def CountsRight (t : Sketch α) : Prop :=
  Mark.keepCounted 0 t.toPostfix = Mark.keepComplete t.toPostfix

instance [DecidableEq α] (t : Sketch α) : Decidable t.CountsRight :=
  inferInstanceAs (Decidable (_ = _))

theorem read_toPostfix (t : Sketch α) (operands : List (Tree α)) :
    Mark.read t.toPostfix operands = t.build operands := by
  induction t generalizing operands with
  | gap => rfl
  | leaf a => rfl
  | node op l r ihl ihr =>
    rw [toPostfix, Mark.read_append, Mark.read_append, ihl, ihr]
    rfl

theorem keepComplete_toPostfix (t : Sketch α) :
    Mark.keepComplete t.toPostfix = Mark.ofTree? t.tree? := by
  induction t with
  | gap => rfl
  | leaf a => rfl
  | node op l r ihl ihr =>
    rw [Mark.keepComplete] at ihl ihr ⊢
    rw [toPostfix, List.filter_append, List.filter_append, ihl, ihr, tree?]
    cases l.tree? <;> cases r.tree? <;> simp [Mark.ofTree?, Tree.toPostfix]

/-- **What is built is what is meant** exactly when counting singles out the joints that lack an
operand. -/
theorem head?_build_eq_tree?_iff (t : Sketch α) :
    (t.build []).head? = t.tree? ↔ t.CountsRight := by
  have hlen := t.length_build_le []
  -- both sides are trees that may be missing, and their words tell them apart
  have hcounted : Mark.ofTree? (t.build []).head? = Mark.keepCounted 0 t.toPostfix := by
    have hread := Mark.ofStack_read t.toPostfix []
    rw [read_toPostfix, Mark.ofStack, List.nil_append, List.length_nil] at hread
    rw [← hread]
    match t.build [], hlen with
    | [], _ => rfl
    | [u], _ => rfl
  rw [CountsRight, ← hcounted, keepComplete_toPostfix]
  exact ⟨fun h ↦ by rw [h], Mark.ofTree?_injective⟩

end Sketch

end NoteQuery
