import NoteQuery.Matching.Evaluate
import NoteQuery.Proofs.Outcome
import NoteQuery.Proofs.Query.Leaves
import NoteQuery.Proofs.Query.Scanning

/-!
# Disjunctive normal form

The walk with its two stacks does what the recursion `Tree.clausesWithin` does: visiting a tree puts
its clauses on the stack of results and goes on with the rest of the work. Without a cap these are
`Tree.clauses`, and with a cap they are still these unless they are refused. One of the clauses
holds in full exactly when the tree holds, so that applying a query and evaluating its tree are the
same.
-/

namespace NoteQuery

variable {α : Type}

namespace Tree

/-- The clauses of a tree, refused where a joint has more of them than the cap allows. -/
def clausesWithin (cap : Clauses.Cap) : Tree α → Except QueryFault (List (Clause α))
  | leaf a => .ok [[a]]
  | node op l r => do
    let left ← l.clausesWithin cap
    let right ← r.clausesWithin cap
    Clauses.joinWithin cap op left right

theorem clausesWithin_none (t : Tree α) : t.clausesWithin none = .ok t.clauses := by
  induction t with
  | leaf a => rfl
  | node op l r ihl ihr =>
    rw [clausesWithin, ihl, ihr]
    rfl

end Tree

namespace Clauses

theorem eq_join_of_joinWithin {cap : Cap} {op : Connective} {left right clauses : List (Clause α)}
    (h : joinWithin cap op left right = .ok clauses) : clauses = join op left right := by
  rw [joinWithin] at h
  split at h
  · exact (Except.ok.inj h).symm
  · split at h
    · exact nomatch h
    · exact (Except.ok.inj h).symm

end Clauses

theorem Tree.eq_clauses_of_clausesWithin {cap : Clauses.Cap} {t : Tree α}
    {clauses : List (Clause α)} (h : t.clausesWithin cap = .ok clauses) : clauses = t.clauses := by
  induction t generalizing clauses with
  | leaf a => exact (Except.ok.inj h).symm
  | node op l r ihl ihr =>
    obtain ⟨left, hl, h⟩ := exists_of_bind_eq_ok h
    obtain ⟨right, hr, h⟩ := exists_of_bind_eq_ok h
    rw [Clauses.eq_join_of_joinWithin h, ihl hl, ihr hr, Tree.clauses]

namespace Clauses

/-! ## The walk -/

/-- **The walk.** Visiting a tree puts its clauses on the results. -/
theorem walk_visit (cap : Cap) (t : Tree α) (work : List (Work α))
    (results : List (List (Clause α))) :
    walk cap (.visit t :: work) results
      = (t.clausesWithin cap).bind fun clauses ↦ walk cap work (clauses :: results) := by
  induction t generalizing work results with
  | leaf a =>
    rw [walk]
    rfl
  | node op l r ihl ihr =>
    -- the left part, the right part and the joint are the next three pieces of work
    rw [walk, ihl, Tree.clausesWithin]
    cases l.clausesWithin cap with
    | error fault => rfl
    | ok left =>
      change walk cap (.visit r :: .join op :: work) (left :: results) = _
      rw [ihr]
      cases r.clausesWithin cap with
      | error fault => rfl
      | ok right =>
        change walk cap (.join op :: work) (right :: left :: results) = _
        rw [walk]
        rfl

theorem ofTree_eq_clausesWithin (cap : Cap) (t : Tree α) : ofTree cap t = t.clausesWithin cap := by
  rw [ofTree, walk_visit]
  cases t.clausesWithin cap with
  | error fault => rfl
  | ok clauses =>
    change (walk cap [] [clauses]).map _ = _
    rw [walk]
    rfl

/-! ## What the clauses mean -/

theorem any_map_append (f : α → Bool) (l : Clause α) (right : List (Clause α)) :
    (right.map fun r ↦ l ++ r).any (·.all f) = (l.all f && right.any (·.all f)) := by
  induction right with
  | nil => exact (Bool.and_false _).symm
  | cons r right ih =>
    rw [List.map_cons, List.any_cons, ih, List.all_append, List.any_cons, Bool.and_or_distrib_left]

theorem any_product (f : α → Bool) (left right : List (Clause α)) :
    (product left right).any (·.all f) = (left.any (·.all f) && right.any (·.all f)) := by
  induction left with
  | nil => rfl
  | cons l left ih =>
    rw [product, List.flatMap_cons, List.any_append, any_map_append, ← product, ih, List.any_cons,
      Bool.and_or_distrib_right]

end Clauses

theorem Tree.any_clauses (f : α → Bool) (t : Tree α) : t.clauses.any (·.all f) = t.holds f := by
  induction t with
  | leaf a => simp [clauses, holds]
  | node op l r ihl ihr =>
    cases op with
    | and => rw [clauses, Clauses.join, Clauses.any_product, ihl, ihr, holds]
    | or => rw [clauses, Clauses.join, List.any_append, ihl, ihr, holds]

theorem Tree.sublist_leaves_of_mem_clauses {t : Tree α} {c : Clause α} (hc : c ∈ t.clauses) :
    c.Sublist t.leaves := by
  induction t generalizing c with
  | leaf a =>
    rw [List.mem_singleton.mp hc]
    exact List.Sublist.refl _
  | node op l r ihl ihr =>
    cases op with
    | and =>
      obtain ⟨x, hx, hc⟩ := List.mem_flatMap.mp hc
      obtain ⟨y, hy, rfl⟩ := List.mem_map.mp hc
      exact (ihl hx).append (ihr hy)
    | or =>
      rcases List.mem_append.mp hc with hc | hc
      · exact (ihl hc).trans (List.sublist_append_left _ _)
      · exact (ihr hc).trans (List.sublist_append_right _ _)

/-! ## Applying a query -/

theorem Matching.holds_eq_ok {clauses : List (Clause Term)} (hne : clauses ≠ [])
    {defaultKey : String} {s : Subject} {f : Term → Bool}
    (h : ∀ c ∈ clauses, ∀ t ∈ c, termHolds (normalKey defaultKey) s t = .ok (f t)) :
    holds clauses defaultKey s = .ok (clauses.any (·.all f)) := by
  rw [holds, if_neg (by simpa using hne)]
  exact anyM_eq_ok fun c hc ↦ allM_eq_ok (h c hc)

theorem Tree.clauses_ne_nil (t : Tree α) : t.clauses ≠ [] := by
  induction t with
  | leaf a => exact List.cons_ne_nil _ _
  | node op l r ihl ihr =>
    obtain ⟨x, xs, hl⟩ := List.exists_cons_of_ne_nil ihl
    obtain ⟨y, ys, hr⟩ := List.exists_cons_of_ne_nil ihr
    rw [clauses, hl, hr]
    cases op with
    | and => exact List.cons_ne_nil _ _
    | or => exact List.cons_ne_nil _ _

/-- A query that parses has the clauses of the tree of its tokens; without a term it has the empty
one. -/
theorem Query.exists_tokens_of_parse {text key : String} {cap : Clauses.Cap} {q : Query}
    (h : Query.parse text key cap = .ok q) :
    ∃ ts, tokenize text key = .ok ts ∧ q.clauses = (Tree.ofTokens ts).elim [[]] Tree.clauses := by
  obtain ⟨ts, hts, h⟩ := exists_of_bind_eq_ok h
  obtain ⟨clauses, hclauses, h⟩ := exists_of_bind_eq_ok h
  cases Except.ok.inj h
  refine ⟨ts, hts, ?_⟩
  cases htree : Tree.ofTokens ts with
  | none =>
    rw [htree] at hclauses
    exact (Except.ok.inj hclauses).symm
  | some t =>
    rw [htree, Clauses.ofTree?, Clauses.ofTree_eq_clausesWithin] at hclauses
    exact Tree.eq_clauses_of_clausesWithin hclauses

/-! ## Trees with named joints -/

/-- A tree whose joints carry names. -/
inductive NamedTree (α : Type)
  /-- A single term. -/
  | leaf (a : α)
  /-- Two parts, joined. -/
  | node (name : String) (left right : NamedTree α)

namespace NamedTree

/-- The tree that is named: `OR` is the one name for `or`, every other is one for `and`. -/
def tree : NamedTree α → Tree α
  | leaf a => .leaf a
  | node name l r => .node (if name = "OR" then .or else .and) l.tree r.tree

/-- The clauses of a tree by recursion on its named joints. -/
def clauses : NamedTree α → List (Clause α)
  | leaf a => [[a]]
  | node name l r =>
    if name = "OR" then l.clauses ++ r.clauses
    else l.clauses.flatMap fun lc ↦ r.clauses.map fun rc ↦ lc ++ rc

theorem clauses_tree (t : NamedTree α) : t.tree.clauses = t.clauses := by
  induction t with
  | leaf a => rfl
  | node name l r ihl ihr =>
    rw [tree, Tree.clauses, ihl, ihr, clauses]
    split
    · rfl
    · rfl

end NamedTree

/-- **The normal form preserves meaning.** The walk comes to the clauses of the recursion; some of
them holds in full exactly when the tree holds; and a query applied to a subject on which none of
its terms goes wrong gives what its tree evaluates to, and true if it has no terms. -/
theorem normalForm_preserves_meaning :
    (∀ t : NamedTree α, Clauses.ofTree none t.tree = .ok t.clauses) ∧
    (∀ (t : NamedTree α) (f : α → Bool), t.clauses.any (·.all f) = t.tree.holds f) ∧
    ∀ (text key : String) (cap : Clauses.Cap) (q : Query), Query.parse text key cap = .ok q →
      ∃ ts, tokenize text key = .ok ts ∧ ∀ (defaultKey : String) (s : Subject) (f : Term → Bool),
        (∀ t ∈ Token.terms ts,
          Matching.termHolds (Matching.normalKey defaultKey) s t = .ok (f t)) →
        Matching.holds q.clauses defaultKey s
          = .ok ((Tree.ofTokens ts).elim true (Tree.holds f)) := by
  refine ⟨fun t ↦ ?_, fun t f ↦ ?_, fun text key cap q hq ↦ ?_⟩
  · rw [Clauses.ofTree_eq_clausesWithin, Tree.clausesWithin_none, t.clauses_tree]
  · rw [← t.clauses_tree, Tree.any_clauses]
  · obtain ⟨ts, hts, hclauses⟩ := Query.exists_tokens_of_parse hq
    refine ⟨ts, hts, fun defaultKey s f hterms ↦ ?_⟩
    rw [hclauses]
    cases htree : Tree.ofTokens ts with
    | none => rfl
    | some t =>
      rw [Option.elim_some, Matching.holds_eq_ok t.clauses_ne_nil, t.any_clauses, Option.elim_some]
      intro c hc a ha
      exact hterms a (mem_terms_of_mem_leaves htree ((Tree.sublist_leaves_of_mem_clauses hc).subset ha))

/-- The query `a OR -b` on a note that says `c`. -/
theorem normalForm_preserves_meaning_of_negated_term :
    Query.parse "a OR -b" "default" none
      = .ok ⟨[[⟨"default", "a", false⟩], [⟨"default", "b", true⟩]]⟩ ∧
    ∃ ts : List (Token Term), tokenize "a OR -b" "default" = .ok ts ∧
      (∀ t ∈ Token.terms ts, Matching.termHolds (Matching.normalKey "content")
        (.ofRecord ⟨"n.md", "c", none, [], [], []⟩) t = .ok (t.value != "a")) ∧
      Matching.holds [[⟨"default", "a", false⟩], [⟨"default", "b", true⟩]] "content"
          (.ofRecord ⟨"n.md", "c", none, [], [], []⟩)
        = .ok ((Tree.ofTokens ts).elim true (Tree.holds fun t ↦ t.value != "a")) := by
  have htokens : tokenize "a OR -b" "default"
      = .ok [.term ⟨"default", "a", false⟩, .or, .term ⟨"default", "b", true⟩] := by
    let key := Text.lower "default".toList
    have ha : Scan.pass key "a OR -b".toList
        = .read (some (.term ⟨"default", "a", false⟩)) " OR -b".toList := rfl
    have hor : Scan.pass key " OR -b".toList = .read (some .or) " -b".toList := rfl
    have hb : Scan.pass key " -b".toList = .read (some (.term ⟨"default", "b", true⟩)) [] := rfl
    rw [tokenize, Scan.tokens_of_read ha, Scan.tokens_of_read hor, Scan.tokens_of_read hb,
      Scan.tokens_nil]
    rfl
  have hparse : Query.parse "a OR -b" "default" none
      = .ok ⟨[[⟨"default", "a", false⟩], [⟨"default", "b", true⟩]]⟩ := by
    rw [Query.parse, htokens]
    change (Clauses.ofTree none (.node .or (.leaf ⟨"default", "a", false⟩)
      (.leaf ⟨"default", "b", true⟩))).map Query.mk = _
    rw [Clauses.ofTree_eq_clausesWithin, Tree.clausesWithin_none]
    rfl
  obtain ⟨ts, hts, h⟩ := (normalForm_preserves_meaning (α := Term)).2.2 _ _ _ _ hparse
  cases hts.symm.trans htokens
  have hterms : ∀ t ∈ Token.terms
      [.term ⟨"default", "a", false⟩, .or, .term ⟨"default", "b", true⟩],
      Matching.termHolds (Matching.normalKey "content")
        (.ofRecord ⟨"n.md", "c", none, [], [], []⟩) t = .ok (t.value != "a") := by
    intro t ht
    simp only [Token.terms, List.mem_cons, List.not_mem_nil, or_false] at ht
    rcases ht with rfl | rfl
    · rfl
    · rfl
  exact ⟨hparse, _, hts, hterms, h "content" _ _ hterms⟩

end NoteQuery
