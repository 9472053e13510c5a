import Mathlib
import NoteQuery.Proofs.Query.Relabelling

/-!
# Clauses as selections of terms

A clause is made by putting clauses of the two parts of a joint side by side, the left part first. So it
reads some of the leaves of the tree from left to right, and never one of them twice. Two terms of a query
may be equal, so that this is said of the places of the terms: the tokens are relabelled by these places,
and since no step looks into a label, what holds of the places holds of the terms that stand there.

Every clause of a tree has a term. So only a query without terms has the empty clause, and matches
everything.
-/

namespace NoteQuery

variable {α β : Type}

/-! ## Clauses of a tree -/

namespace Tree

theorem ne_nil_of_mem_clauses {t : Tree α} {c : Clause α} (hc : c ∈ t.clauses) : c ≠ [] := by
  induction t generalizing c with
  | leaf a =>
    rw [List.mem_singleton.mp hc]
    exact List.cons_ne_nil _ _
  | node op l r ihl ihr =>
    cases op with
    | and =>
      obtain ⟨x, hx, hc⟩ := List.mem_flatMap.mp hc
      obtain ⟨y, -, rfl⟩ := List.mem_map.mp hc
      exact List.append_ne_nil_of_left_ne_nil (ihl hx) y
    | or => exact (List.mem_append.mp hc).elim ihl ihr

/-- No leaf is lost: each is in a clause. -/
theorem exists_mem_clauses_of_mem_leaves {t : Tree α} {a : α} (ha : a ∈ t.leaves) :
    ∃ c ∈ t.clauses, a ∈ c := by
  induction t with
  | leaf b => exact ⟨[b], List.mem_singleton.mpr rfl, ha⟩
  | node op l r ihl ihr =>
    rw [leaves, List.mem_append] at ha
    cases op with
    | and =>
      -- the clause on one side is put beside any clause of the other side
      have hpair : ∀ {x y : Clause α}, x ∈ l.clauses → y ∈ r.clauses → x ++ y ∈ (node .and l r).clauses :=
        fun hx hy ↦ List.mem_flatMap.mpr ⟨_, hx, List.mem_map.mpr ⟨_, hy, rfl⟩⟩
      rcases ha with ha | ha
      · obtain ⟨x, hx, hmem⟩ := ihl ha
        obtain ⟨y, hy⟩ := List.exists_mem_of_ne_nil _ r.clauses_ne_nil
        exact ⟨x ++ y, hpair hx hy, List.mem_append_left y hmem⟩
      · obtain ⟨x, hx⟩ := List.exists_mem_of_ne_nil _ l.clauses_ne_nil
        obtain ⟨y, hy, hmem⟩ := ihr ha
        exact ⟨x ++ y, hpair hx hy, List.mem_append_right x hmem⟩
    | or =>
      rcases ha with ha | ha
      · obtain ⟨x, hx, hmem⟩ := ihl ha
        exact ⟨x, List.mem_append_left _ hx, hmem⟩
      · obtain ⟨y, hy, hmem⟩ := ihr ha
        exact ⟨y, List.mem_append_right _ hy, hmem⟩

end Tree

/-! ## Queries that match everything -/

/-- Among the queries that are read from a text only one without a term matches everything. -/
theorem Query.clauses_of_isMatchAll {text key : String} {cap : Clauses.Cap} {q : Query}
    (hq : Query.parse text key cap = .ok q) (hall : q.isMatchAll = true) : q.clauses = [[]] := by
  obtain ⟨ts, -, hclauses⟩ := Query.exists_tokens_of_parse hq
  rw [isMatchAll, hclauses] at hall
  rw [hclauses]
  cases htree : Tree.ofTokens ts with
  | none => rfl
  | some t =>
    rw [htree, Option.elim_some, Bool.or_eq_true, List.isEmpty_iff, List.any_eq_true] at hall
    rcases hall with hnil | ⟨c, hc, hempty⟩
    · exact absurd hnil t.clauses_ne_nil
    · exact absurd (List.isEmpty_iff.mp hempty) (Tree.ne_nil_of_mem_clauses hc)

theorem Query.isMatchAll_iff_of_parse {text key : String} {cap : Clauses.Cap} {q : Query}
    (hq : Query.parse text key cap = .ok q) :
    ∃ ts, tokenize text key = .ok ts ∧ (q.isMatchAll = true ↔ Token.terms ts = []) := by
  obtain ⟨ts, hts, hclauses⟩ := Query.exists_tokens_of_parse hq
  refine ⟨ts, hts, fun hall ↦ ?_, fun hterms ↦ ?_⟩
  · rw [Query.clauses_of_isMatchAll hq hall] at hclauses
    rw [← Tree.ofTokens_eq_none_iff]
    cases htree : Tree.ofTokens ts with
    | none => rfl
    | some t =>
      rw [htree, Option.elim_some] at hclauses
      have hempty : [] ∈ t.clauses := hclauses ▸ List.mem_singleton.mpr rfl
      exact absurd rfl (Tree.ne_nil_of_mem_clauses hempty)
  · rw [isMatchAll, hclauses, Tree.ofTokens_eq_none_iff.mpr hterms]
    rfl

/-! ## Places of terms -/

/-- Tokens can be labelled anew by whatever their terms are images of. -/
theorem Token.exists_map_eq {f : β → α} {ts : List (Token α)} {labels : List β}
    (h : labels.map f = Token.terms ts) :
    ∃ us : List (Token β), us.map (Token.map f) = ts ∧ Token.terms us = labels := by
  induction ts generalizing labels with
  | nil => exact ⟨[], rfl, (List.map_eq_nil_iff.mp h).symm⟩
  | cons t ts ih =>
    cases t with
    | term a =>
      obtain ⟨b, labels, rfl, rfl, hlabels⟩ := List.map_eq_cons_iff.mp h
      obtain ⟨us, rfl, rfl⟩ := ih hlabels
      exact ⟨.term b :: us, rfl, rfl⟩
    | or =>
      obtain ⟨us, rfl, rfl⟩ := ih h
      exact ⟨.or :: us, rfl, rfl⟩
    | opening =>
      obtain ⟨us, rfl, rfl⟩ := ih h
      exact ⟨.opening :: us, rfl, rfl⟩
    | closing =>
      obtain ⟨us, rfl, rfl⟩ := ih h
      exact ⟨.closing :: us, rfl, rfl⟩

/-- **Clauses select terms.** Whatever the tokens are, each clause reads off the terms at some of their
places, in ascending order, and every place is in a clause. Without a term there is the empty clause and
no other; with one no clause is empty. So of the queries that are read from a text those without a term
match everything, and no others. -/
theorem clauses_select_terms :
    (∀ ts : List (Token α), ∃ places : List (List (Fin (Token.terms ts).length)),
      Clauses.ofTree? none (Tree.ofTokens ts)
          = .ok (places.map fun clause ↦ clause.map (Token.terms ts).get) ∧
      places ≠ [] ∧ (∀ clause ∈ places, clause.Pairwise (· < ·)) ∧
      (∀ place, ∃ clause ∈ places, place ∈ clause) ∧
      (Token.terms ts = [] → places = [[]]) ∧ (Token.terms ts ≠ [] → [] ∉ places)) ∧
    ∀ (text key : String) (cap : Clauses.Cap) (q : Query), Query.parse text key cap = .ok q →
      ∃ ts, tokenize text key = .ok ts ∧ (q.isMatchAll = true ↔ Token.terms ts = []) := by
  refine ⟨fun ts ↦ ?_, fun text key cap q hq ↦ Query.isMatchAll_iff_of_parse hq⟩
  obtain ⟨us, hus, hplaces⟩ := Token.exists_map_eq (List.map_get_finRange (Token.terms ts))
  have htree : Tree.ofTokens ts = (Tree.ofTokens us).map (Tree.map (Token.terms ts).get) := by
    rw [← Tree.ofTokens_map, hus]
  rw [htree, Clauses.ofTree?_map]
  have hleaves := leaves_ofTokens us
  rw [hplaces] at hleaves
  cases hu : Tree.ofTokens us with
  | none =>
    rw [hu] at hleaves htree
    have hterms := Tree.ofTokens_eq_none_iff.mp htree
    refine ⟨[[]], rfl, List.cons_ne_nil _ _, ?_, fun place ↦ ?_, fun _ ↦ rfl, fun h ↦ absurd hterms h⟩
    · exact fun clause hclause ↦ by rw [List.mem_singleton.mp hclause]; exact List.Pairwise.nil
    · exact absurd (List.mem_finRange place) (hleaves ▸ List.not_mem_nil)
  | some t =>
    rw [hu, Option.elim_some] at hleaves
    refine ⟨t.clauses, ?_, t.clauses_ne_nil, fun clause hclause ↦ ?_, fun place ↦ ?_, fun hterms ↦ ?_,
      fun _ hempty ↦ Tree.ne_nil_of_mem_clauses hempty rfl⟩
    · rw [Clauses.ofTree?, Clauses.ofTree_eq_clausesWithin, Tree.clausesWithin_none]
      rfl
    · have hascends := (List.sortedLT_finRange (Token.terms ts).length).pairwise
      rw [← hleaves] at hascends
      exact hascends.sublist (Tree.sublist_leaves_of_mem_clauses hclause)
    · exact Tree.exists_mem_clauses_of_mem_leaves (hleaves ▸ List.mem_finRange place)
    · rw [Tree.ofTokens_eq_none_iff.mpr hterms, hu] at htree
      cases htree

/-- An empty group and a stray `OR` are no terms. -/
theorem clauses_select_terms_of_empty_group :
    Query.parse "() OR" "default" none = .ok ⟨[[]]⟩ ∧
    ∃ ts, tokenize "() OR" "default" = .ok ts ∧ Token.terms ts = [] := by
  have hparse : Query.parse "() OR" "default" none = .ok ⟨[[]]⟩ := by cbv
  obtain ⟨ts, hts, hall⟩ := (clauses_select_terms (α := Term)).2 _ _ _ _ hparse
  exact ⟨hparse, ts, hts, hall.mp rfl⟩

end NoteQuery
