import Mathlib.Data.List.Chain
import Mathlib.Logic.Relation
import NoteQuery.Proofs.Query.Precedence

/-!
# Dangling operators and empty groups

A token list is pruned by deleting empty groups and every `OR` that lacks an operand, as long as
there are any. For balanced lists this file decides when pruning leaves the tree as it is.

What is meant by a token list does not change under deletions. To see this without comparing parses,
the meaning is read off by a pass of its own, `intended`, that keeps one level for each open group;
every deletion is then an identity between states of that pass. On an expression it comes to the
tree of the sketch, and a pruned list is an expression without gaps, which is built as it is meant.
So the question comes down to whether the sketch of the original list is built as it is meant, which
is `Sketch.CountsRight`.

It is not always so: in `x (OR a)` the dangling `OR` joins `a` to the `x` outside the group, and in
`x OR () y` the empty group turns the `OR` into a joint by `and`.
-/

namespace NoteQuery

variable {α : Type}

namespace Token

/-! ## Pruning -/

/-- One deletion. -/
inductive Deletion : List (Token α) → List (Token α) → Prop
  /-- An empty group. -/
  | emptyGroup (before after : List (Token α)) :
    Deletion (before ++ .opening :: .closing :: after) (before ++ after)
  /-- An `OR` at the start. -/
  | orAtStart (after : List (Token α)) : Deletion (.or :: after) after
  /-- An `OR` directly after an opening parenthesis. -/
  | orAfterOpening (before after : List (Token α)) :
    Deletion (before ++ .opening :: .or :: after) (before ++ .opening :: after)
  /-- An `OR` directly after another. -/
  | orAfterOr (before after : List (Token α)) :
    Deletion (before ++ .or :: .or :: after) (before ++ .or :: after)
  /-- An `OR` at the end. -/
  | orAtEnd (before : List (Token α)) : Deletion (before ++ [.or]) before
  /-- An `OR` directly before a closing parenthesis. -/
  | orBeforeClosing (before after : List (Token α)) :
    Deletion (before ++ .or :: .closing :: after) (before ++ .closing :: after)

/-- What is left when everything that can be deleted has been deleted. -/
def Pruned (ts us : List (Token α)) : Prop :=
  Relation.ReflTransGen Deletion ts us ∧ ∀ vs, ¬Deletion us vs

theorem length_lt_of_deletion {ts us : List (Token α)} (h : Deletion ts us) :
    us.length < ts.length := by
  cases h with
  | orAtStart after => exact Nat.lt_succ_self _
  | orAtEnd before => simp
  | _ before after => simp only [List.length_append, List.length_cons]; omega

theorem exists_pruned (ts : List (Token α)) : ∃ us, Pruned ts us := by
  by_cases h : ∃ vs, Deletion ts vs
  · obtain ⟨vs, hvs⟩ := h
    have hlen := length_lt_of_deletion hvs
    obtain ⟨us, hstar, hirr⟩ := exists_pruned vs
    exact ⟨us, hstar.head hvs, hirr⟩
  · exact ⟨ts, .refl, fun vs hvs ↦ h ⟨vs, hvs⟩⟩
termination_by ts.length

/-- Whether neither of two neighbouring tokens can be deleted on account of the other. -/
def mayPrecede : Token α → Token α → Bool
  | .opening, .closing => false
  | .opening, .or => false
  | .or, .or => false
  | .or, .closing => false
  | _, _ => true

/-- A token list without anything to delete, as a condition on neighbours and ends. -/
structure Tidy (ts : List (Token α)) : Prop where
  /-- No pair of neighbours calls for a deletion. -/
  chain : ts.IsChain fun t u ↦ mayPrecede t u = true
  /-- There is no `OR` at the start. -/
  start : ts.head? ≠ some .or
  /-- There is no `OR` at the end. -/
  finish : ts.getLast? ≠ some .or

theorem tidy_of_forall_not_deletion {ts : List (Token α)} (h : ∀ us, ¬Deletion ts us) :
    Tidy ts where
  chain := by
    rw [List.isChain_iff_forall_rel_of_append_cons_cons]
    intro t u before after hts
    subst hts
    cases t <;> cases u <;> try rfl
    · exact absurd (.orAfterOr before after) (h _)
    · exact absurd (.orBeforeClosing before after) (h _)
    · exact absurd (.orAfterOpening before after) (h _)
    · exact absurd (.emptyGroup before after) (h _)
  start := by
    intro hstart
    obtain ⟨after, rfl⟩ := List.head?_eq_some_iff.mp hstart
    exact h _ (.orAtStart after)
  finish := by
    intro hfinish
    obtain ⟨before, rfl⟩ := List.getLast?_eq_some_iff.mp hfinish
    exact h _ (.orAtEnd before)

theorem not_deletion_of_tidy {ts : List (Token α)} (h : Tidy ts) (us : List (Token α)) :
    ¬Deletion ts us := by
  intro hdel
  have hpair := List.isChain_iff_forall_rel_of_append_cons_cons.mp h.chain
  cases hdel with
  | emptyGroup before after => exact Bool.false_ne_true (hpair rfl)
  | orAtStart after => exact h.start rfl
  | orAfterOpening before after => exact Bool.false_ne_true (hpair rfl)
  | orAfterOr before after => exact Bool.false_ne_true (hpair rfl)
  | orAtEnd before => exact h.finish List.getLast?_concat
  | orBeforeClosing before after => exact Bool.false_ne_true (hpair rfl)

theorem depthFrom_of_deletion {ts us : List (Token α)} (h : Deletion ts us) (depth : Nat) :
    depthFrom depth ts = depthFrom depth us := by
  cases h with
  | orAtStart after => rfl
  | orAtEnd before =>
    rw [depthFrom_append]
    exact Option.bind_fun_some _
  | _ before after =>
    rw [depthFrom_append, depthFrom_append]
    rfl

end Token

/-! ## What is meant -/

/-- An open group, or the whole: what its `OR`s close, and the neighbours read since. -/
structure Level (α : Type) where
  /-- The tree of all that stands before the last `OR`. -/
  before : Option (Tree α)
  /-- The tree of what stands after it. -/
  current : Option (Tree α)

namespace Level

/-- Nothing read yet. -/
def empty : Level α := ⟨none, none⟩

/-- The tree of a level. -/
def tree? (l : Level α) : Option (Tree α) := Option.merge (.node .or) l.before l.current

/-- A level with one more neighbour. -/
def add (t : Option (Tree α)) (l : Level α) : Level α :=
  { l with current := Option.merge (.node .and) l.current t }

/-- The innermost level and those around it after one more token. -/
def push : Level α × List (Level α) → Token α → Level α × List (Level α)
  | (l, outer), .term a => (l.add (some (.leaf a)), outer)
  | (l, outer), .or => (⟨l.tree?, none⟩, outer)
  | (l, outer), .opening => (empty, l :: outer)
  | (l, m :: outer), .closing => (m.add l.tree?, outer)
  | (l, []), .closing => (empty.add l.tree?, [])

@[simp] theorem tree?_closed (t : Option (Tree α)) : tree? ⟨t, none⟩ = t := Option.merge_none_right

@[simp] theorem add_none (l : Level α) : l.add none = l := by
  rw [add, Option.merge_none_right]

theorem push_opening (l : Level α) (outer : List (Level α)) :
    push (l, outer) .opening = (empty, l :: outer) := rfl

theorem push_opening_closing (s : Level α × List (Level α)) :
    push (push s .opening) .closing = s := by
  obtain ⟨l, outer⟩ := s
  rw [push, push, empty, tree?_closed, add_none]

theorem push_or_closing (s : Level α × List (Level α)) :
    push (push s .or) .closing = push s .closing := by
  obtain ⟨l, outer⟩ := s
  cases outer <;> rw [push, push, tree?_closed, push]

theorem push_or_or (s : Level α × List (Level α)) : push (push s .or) .or = push s .or := by
  obtain ⟨l, outer⟩ := s
  rw [push, push, tree?_closed]

theorem push_opening_or (s : Level α × List (Level α)) :
    push (push s .opening) .or = push s .opening := rfl

theorem tree?_push_or (s : Level α × List (Level α)) : (push s .or).1.tree? = s.1.tree? :=
  tree?_closed _

end Level

/-- The tree that is meant by some tokens, a missing operand being no operand. -/
def intended (ts : List (Token α)) : Option (Tree α) :=
  (ts.foldl Level.push (Level.empty, [])).1.tree?

theorem intended_of_deletion {ts us : List (Token α)} (h : Token.Deletion ts us) :
    intended ts = intended us := by
  cases h with
  | orAtStart after => rfl
  | orAtEnd before => rw [intended, List.foldl_append, List.foldl_cons, List.foldl_nil,
      Level.tree?_push_or, intended]
  | emptyGroup before after =>
    rw [intended, intended, List.foldl_append, List.foldl_cons, List.foldl_cons,
      Level.push_opening_closing, List.foldl_append]
  | orAfterOpening before after =>
    rw [intended, intended, List.foldl_append, List.foldl_cons, List.foldl_cons,
      Level.push_opening_or, List.foldl_append, List.foldl_cons]
  | orAfterOr before after =>
    rw [intended, intended, List.foldl_append, List.foldl_cons, List.foldl_cons,
      Level.push_or_or, List.foldl_append, List.foldl_cons]
  | orBeforeClosing before after =>
    rw [intended, intended, List.foldl_append, List.foldl_cons, List.foldl_cons,
      Level.push_or_closing, List.foldl_append, List.foldl_cons]

theorem intended_of_pruned {ts us : List (Token α)} (h : Token.Pruned ts us) :
    intended ts = intended us := by
  obtain ⟨hstar, -⟩ := h
  induction hstar with
  | refl => rfl
  | tail _ hdel ih => exact ih.trans (intended_of_deletion hdel)

/-! On an expression, what is meant is what its sketch means. -/

section

variable {gaps : Prop}

mutual

theorem Expression.foldl_level : ∀ (e : Expression α gaps) (outer : List (Level α)),
    ∃ l, e.tokens.foldl Level.push (Level.empty, outer) = (l, outer) ∧ l.tree? = e.sketch.tree?
  | .nothing _, outer => ⟨Level.empty, rfl, rfl⟩
  | .single c, outer => ⟨⟨none, c.sketch.tree?⟩, c.foldl_level none outer, Option.merge_none_left⟩
  | .orNothing _ e, outer => by
    obtain ⟨l, hl, htree⟩ := e.foldl_level outer
    refine ⟨⟨e.sketch.tree?, none⟩, ?_, rfl⟩
    rw [Expression.tokens, List.foldl_append, hl, List.foldl_cons, List.foldl_nil, Level.push,
      htree]
  | .or e c, outer => by
    obtain ⟨l, hl, htree⟩ := e.foldl_level outer
    refine ⟨⟨e.sketch.tree?, c.sketch.tree?⟩, ?_, rfl⟩
    rw [Expression.tokens, List.foldl_append, hl, List.foldl_cons, Level.push, htree, c.foldl_level]

theorem Conjunction.foldl_level : ∀ (c : Conjunction α gaps) (before : Option (Tree α))
    (outer : List (Level α)),
    c.tokens.foldl Level.push (⟨before, none⟩, outer) = (⟨before, c.sketch.tree?⟩, outer)
  | .single f, before, outer => by
    rw [Conjunction.tokens, f.foldl_level, Level.add, Option.merge_none_left, Conjunction.sketch]
  | .and c f, before, outer => by
    rw [Conjunction.tokens, List.foldl_append, c.foldl_level, f.foldl_level, Level.add,
      Conjunction.sketch, Sketch.tree?]

theorem Factor.foldl_level : ∀ (f : Factor α gaps) (l : Level α) (outer : List (Level α)),
    f.tokens.foldl Level.push (l, outer) = (l.add f.sketch.tree?, outer)
  | .term _, _, _ => rfl
  | .group e, l, outer => by
    obtain ⟨m, hm, htree⟩ := e.foldl_level (l :: outer)
    rw [Factor.tokens, List.foldl_append, List.foldl_cons, List.foldl_cons, List.foldl_nil,
      Level.push_opening, hm, Level.push, htree, Factor.sketch]

end

theorem Expression.intended_tokens (e : Expression α gaps) :
    intended e.tokens = e.sketch.tree? := by
  obtain ⟨l, hl, htree⟩ := e.foldl_level []
  rw [intended, hl, htree]

/-! ## Pruned lists have no gaps -/

mutual

theorem Expression.whole_of_tidy : ∀ {e : Expression α gaps}, Token.Tidy e.tokens →
    e.tokens = [] ∨ e.sketch.Whole
  | .nothing _, _ => .inl rfl
  | .single c, h => .inr (c.whole_of_chain h.chain)
  | .orNothing _ e, h => absurd List.getLast?_concat h.finish
  | .or e c, h => by
    obtain ⟨hchain, hchain', hjoin⟩ := List.isChain_append.mp h.chain
    have htidy : Token.Tidy e.tokens := by
      refine ⟨hchain, fun hstart ↦ h.start ?_, fun hfinish ↦ ?_⟩
      · rw [Expression.tokens, List.head?_append, hstart]
        rfl
      · exact Bool.false_ne_true (hjoin _ hfinish _ rfl)
    -- if nothing stood before the `OR`, it would stand at the start
    right
    rcases e.whole_of_tidy htidy with hnil | hwhole
    · refine absurd ?_ h.start
      rw [Expression.tokens, hnil]
      rfl
    · exact ⟨hwhole, c.whole_of_chain hchain'.tail⟩

theorem Conjunction.whole_of_chain : ∀ {c : Conjunction α gaps},
    c.tokens.IsChain (fun t u ↦ Token.mayPrecede t u = true) → c.sketch.Whole
  | .single f, h => f.whole_of_chain h
  | .and c f, h => by
    obtain ⟨hc, hf, -⟩ := List.isChain_append.mp h
    exact ⟨c.whole_of_chain hc, f.whole_of_chain hf⟩

theorem Factor.whole_of_chain : ∀ {f : Factor α gaps},
    f.tokens.IsChain (fun t u ↦ Token.mayPrecede t u = true) → f.sketch.Whole
  | .term _, _ => trivial
  | .group e, h => by
    obtain ⟨hinner, -, hclose⟩ := List.isChain_append.mp h
    have htidy : Token.Tidy e.tokens := by
      refine ⟨hinner.tail, fun hstart ↦ ?_, fun hfinish ↦ ?_⟩
      · obtain ⟨ts, hts⟩ := List.head?_eq_some_iff.mp hstart
        rw [hts] at hinner
        exact Bool.false_ne_true (List.isChain_cons_cons.mp hinner).1
      · refine Bool.false_ne_true (hclose .or ?_ _ rfl)
        rw [List.getLast?_cons, hfinish]
        rfl
    rcases e.whole_of_tidy htidy with hnil | hwhole
    · rw [hnil] at hclose
      exact absurd (hclose _ rfl _ rfl) Bool.false_ne_true
    · exact hwhole

end

theorem ofTokens_eq_intended_of_tidy {ts : List (Token α)} (hb : Token.Balanced ts)
    (h : Token.Tidy ts) : Tree.ofTokens ts = intended ts := by
  obtain ⟨e, rfl⟩ := exists_expression_of_balanced hb
  rcases e.whole_of_tidy h with hnil | hwhole
  · rw [hnil]
    rfl
  · obtain ⟨t, htree, hbuild⟩ := Sketch.exists_tree_of_whole hwhole
    rw [e.ofTokens_tokens, e.intended_tokens, htree, hbuild, List.head?_cons]

end

/-! ## When pruning leaves the tree as it is -/

/-- The joints of a token list that find two operands waiting spell the same word as those that have
both of their own. -/
def Token.CountsRight (ts : List (Token α)) : Prop :=
  ∃ e : Expression α True, e.tokens = ts ∧ e.sketch.CountsRight

/-- No group is empty, and no `OR` inside a group lacks an operand. -/
def Expression.WholeInside : Expression α True → Prop
  | .nothing _ => True
  | .single c => c.sketch.Whole
  | .orNothing _ e => e.WholeInside
  | .or e c => e.WholeInside ∧ c.sketch.Whole

theorem Expression.build_of_wholeInside {e : Expression α True} (h : e.WholeInside) :
    e.sketch.build [] = e.sketch.tree?.toList := by
  match e, h with
  | .nothing _, _ => rfl
  | .single c, h =>
    obtain ⟨u, hu, hbuild⟩ := Sketch.exists_tree_of_whole (t := c.sketch) h
    rw [Expression.sketch, hu, hbuild, Option.toList_some]
  | .orNothing _ e, h =>
    rw [Expression.sketch, Sketch.build, Sketch.build, e.build_of_wholeInside h, Sketch.tree?]
    cases e.sketch.tree? with
    | none => rfl
    | some t => rfl
  | .or e c, h =>
    obtain ⟨u, hu, hbuild⟩ := Sketch.exists_tree_of_whole h.2
    rw [Expression.sketch, Sketch.build, e.build_of_wholeInside h.1, hbuild, Sketch.tree?, hu]
    cases e.sketch.tree? with
    | none => rfl
    | some t => rfl

theorem Token.balanced_of_pruned {ts us : List (Token α)} (hb : Token.Balanced ts)
    (h : Token.Pruned ts us) : Token.Balanced us := by
  obtain ⟨hstar, -⟩ := h
  induction hstar with
  | refl => exact hb
  | tail _ hdel ih => exact (Token.depthFrom_of_deletion hdel 0).symm.trans ih

/-- **Dangling operators and empty groups.** Every list can be pruned, and pruning a balanced one
leaves its tree as it is exactly when its joints are counted right. -/
theorem ofTokens_eq_ofTokens_pruned_iff {ts : List (Token α)} (hb : Token.Balanced ts) :
    (∃ us, Token.Pruned ts us) ∧ ∀ us, Token.Pruned ts us →
      (Tree.ofTokens ts = Tree.ofTokens us ↔ Token.CountsRight ts) := by
  refine ⟨Token.exists_pruned ts, fun us hus ↦ ?_⟩
  -- deletions keep what is meant, and a pruned list is built as it is meant
  have hpruned : Tree.ofTokens us = intended ts := by
    rw [ofTokens_eq_intended_of_tidy (Token.balanced_of_pruned hb hus)
      (Token.tidy_of_forall_not_deletion hus.2), intended_of_pruned hus]
  have hexpr (e : Expression α True) (he : e.tokens = ts) :
      Tree.ofTokens ts = Tree.ofTokens us ↔ e.sketch.CountsRight := by
    rw [hpruned, ← he, e.ofTokens_tokens, e.intended_tokens, e.sketch.head?_build_eq_tree?_iff]
  constructor
  · intro h
    obtain ⟨e, he⟩ := exists_expression_of_balanced hb
    exact ⟨e, he, (hexpr e he).mp h⟩
  · rintro ⟨e, he, hcounts⟩
    exact (hexpr e he).mpr hcounts

theorem pruned_of_deletion {ts us : List (Token α)} (h : Token.Deletion ts us)
    (htidy : Token.Tidy us) : Token.Pruned ts us :=
  ⟨.single h, Token.not_deletion_of_tidy htidy⟩

/-- `a OR OR (b)` keeps its tree. -/
theorem ofTokens_doubled_or_eq :
    Token.Balanced [.term 'a', .or, .or, .opening, .term 'b', .closing] ∧
      Token.Pruned [.term 'a', .or, .or, .opening, .term 'b', .closing]
        [.term 'a', .or, .opening, .term 'b', .closing] ∧
      Token.CountsRight [.term 'a', .or, .or, .opening, .term 'b', .closing] ∧
      Tree.ofTokens [.term 'a', .or, .or, .opening, .term 'b', .closing]
        = Tree.ofTokens [.term 'a', .or, .opening, .term 'b', .closing] := by
  have hbal : Token.Balanced [.term 'a', .or, .or, .opening, .term 'b', .closing] := by decide
  have hpruned : Token.Pruned [.term 'a', .or, .or, .opening, .term 'b', .closing]
      [.term 'a', .or, .opening, .term 'b', .closing] :=
    pruned_of_deletion (.orAfterOr [.term 'a'] [.opening, .term 'b', .closing])
      ⟨by decide, by decide, by decide⟩
  have hcounts : Token.CountsRight [.term 'a', .or, .or, .opening, .term 'b', .closing] :=
    ⟨.or (.orNothing trivial (.single (.single (.term 'a'))))
      (.single (.group (.single (.single (.term 'b'))))), rfl, by decide⟩
  exact ⟨hbal, hpruned, hcounts, ((ofTokens_eq_ofTokens_pruned_iff hbal).2 _ hpruned).mpr hcounts⟩

/-- Pruning does not always leave the tree as it is: `x (OR a)` joins its terms by `or`, and `x OR
() y` by `and`. -/
theorem not_forall_ofTokens_eq_ofTokens_pruned :
    (Token.Balanced [.term 'x', .opening, .or, .term 'a', .closing] ∧
      Token.Pruned [.term 'x', .opening, .or, .term 'a', .closing]
        [.term 'x', .opening, .term 'a', .closing] ∧
      Tree.ofTokens [.term 'x', .opening, .or, .term 'a', .closing]
        ≠ Tree.ofTokens [.term 'x', .opening, .term 'a', .closing]) ∧
    (Token.Balanced [.term 'x', .or, .opening, .closing, .term 'y'] ∧
      Token.Pruned [.term 'x', .or, .opening, .closing, .term 'y'] [.term 'x', .or, .term 'y'] ∧
      Tree.ofTokens [.term 'x', .or, .opening, .closing, .term 'y']
        ≠ Tree.ofTokens [.term 'x', .or, .term 'y']) := by
  refine ⟨⟨by decide, ?_, by decide⟩, by decide, ?_, by decide⟩
  · exact pruned_of_deletion (.orAfterOpening [.term 'x'] [.term 'a', .closing])
      ⟨by decide, by decide, by decide⟩
  · exact pruned_of_deletion (.emptyGroup [.term 'x', .or] [.term 'y'])
      ⟨by decide, by decide, by decide⟩

end NoteQuery
