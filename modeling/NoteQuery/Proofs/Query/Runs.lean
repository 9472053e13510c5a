import NoteQuery.Proofs.Query.ClauseCount
import NoteQuery.Proofs.Query.Pruning
import NoteQuery.Proofs.Query.Selection

/-!
# Queries without parentheses

Without parentheses a query is a row of terms, parted by the word `OR` into runs. Each run that has a term is
a clause, and no other clause is made, wherever an `OR` stands that joins nothing (`clauses_of_isFlat`).

The pass over the tokens leaves such an `OR` at the bottom of its stack, below the joints of the terms that
follow. It is not followed there again: a token list without parentheses is an expression without groups, so
that an operand can only be missing beside an `OR` of the whole, and the tree is the one that is meant
(`Expression.build_of_wholeInside`). What remains is an induction over the expression.
-/

namespace NoteQuery

variable {α : Type}

namespace Token

/-! ## Runs -/

/-- Whether a token is the word `OR`. -/
def isOr : Token α → Bool
  | .or => true
  | _ => false

/-- Whether some tokens are terms and the word `OR` only. -/
def IsFlat (ts : List (Token α)) : Prop := ∀ t ∈ ts, t = .or ∨ ∃ a, t = .term a

/-- The runs of terms between the words `OR`, in order; those without a term are left out. -/
def runs (ts : List (Token α)) : List (List α) :=
  ((ts.splitOnP isOr).map terms).filter (!·.isEmpty)

theorem runs_append_or (ts us : List (Token α)) : runs (ts ++ .or :: us) = runs ts ++ runs us := by
  rw [runs, List.splitOnP_append_cons ts us rfl, List.map_append, List.filter_append, runs, runs]

theorem terms_map_term (as : List α) : terms (as.map term) = as := by
  induction as with
  | nil => rfl
  | cons a as ih => rw [List.map_cons, terms, ih]

theorem runs_map_term {as : List α} (h : as ≠ []) : runs (as.map term) = [as] := by
  have hsplit : (as.map term).splitOnP isOr = [as.map term] :=
    List.splitOnP_eq_singleton (by simp [isOr])
  rw [runs, hsplit, List.map_singleton, terms_map_term]
  simp [h]

theorem IsFlat.of_append {ts us : List (Token α)} (h : IsFlat (ts ++ us)) : IsFlat ts ∧ IsFlat us :=
  ⟨fun t ht ↦ h t (List.mem_append_left us ht), fun t ht ↦ h t (List.mem_append_right ts ht)⟩

theorem IsFlat.of_cons {t : Token α} {ts : List (Token α)} (h : IsFlat (t :: ts)) : IsFlat ts :=
  fun u hu ↦ h u (List.mem_cons_of_mem t hu)

theorem IsFlat.opening_notMem {ts : List (Token α)} (h : IsFlat ts) : .opening ∉ ts := by
  intro hmem
  simpa using h _ hmem

theorem IsFlat.balanced {ts : List (Token α)} (h : IsFlat ts) : Balanced ts := by
  induction ts with
  | nil => rfl
  | cons t ts ih =>
    rcases h t List.mem_cons_self with rfl | ⟨a, rfl⟩
    · exact ih h.of_cons
    · exact ih h.of_cons

end Token

open Token

/-! ## Expressions without groups -/

variable {gaps : Prop}

theorem Factor.exists_eq_term {f : Factor α gaps} (h : IsFlat f.tokens) : ∃ a, f = .term a := by
  cases f with
  | term a => exact ⟨a, rfl⟩
  | group e => exact absurd List.mem_cons_self h.opening_notMem

/-- A conjunction without groups is a row of terms, and its tree has one clause, which are these. -/
theorem Conjunction.exists_of_isFlat {c : Conjunction α gaps} (h : IsFlat c.tokens) :
    ∃ as ≠ [], c.tokens = as.map .term ∧ c.sketch.Whole ∧
      ∃ t, c.sketch.tree? = some t ∧ t.clauses = [as] := by
  match c, h with
  | .single f, h =>
    obtain ⟨a, rfl⟩ := f.exists_eq_term h
    exact ⟨[a], List.cons_ne_nil _ _, rfl, trivial, .leaf a, rfl, rfl⟩
  | .and c f, h =>
    obtain ⟨hc, hf⟩ := h.of_append
    obtain ⟨as, -, htokens, hwhole, t, htree, hclauses⟩ := c.exists_of_isFlat hc
    obtain ⟨a, rfl⟩ := f.exists_eq_term hf
    refine ⟨as ++ [a], by simp, ?_, ⟨hwhole, trivial⟩, .node .and t (.leaf a), ?_, ?_⟩
    · rw [Conjunction.tokens, htokens, List.map_append]
      rfl
    · rw [Conjunction.sketch, Sketch.tree?, htree]
      rfl
    · rw [Tree.clauses, hclauses]
      rfl

/-- In an expression without groups an operand is missing beside an `OR` of the whole, if anywhere. -/
theorem Expression.wholeInside_of_isFlat {e : Expression α True} (h : IsFlat e.tokens) : e.WholeInside := by
  match e, h with
  | .nothing _, _ => trivial
  | .single c, h =>
    obtain ⟨-, -, -, hwhole, -⟩ := c.exists_of_isFlat h
    exact hwhole
  | .orNothing _ e, h => exact e.wholeInside_of_isFlat h.of_append.1
  | .or e c, h =>
    obtain ⟨he, hor⟩ := h.of_append
    obtain ⟨-, -, -, hwhole, -⟩ := c.exists_of_isFlat hor.of_cons
    exact ⟨e.wholeInside_of_isFlat he, hwhole⟩

/-- The clauses that are meant by an expression without groups are its runs. -/
theorem Expression.clauses_tree?_of_isFlat {e : Expression α True} (h : IsFlat e.tokens) :
    e.sketch.tree?.elim [] Tree.clauses = runs e.tokens := by
  match e, h with
  | .nothing _, _ => rfl
  | .single c, h =>
    obtain ⟨as, hne, htokens, -, t, htree, hclauses⟩ := c.exists_of_isFlat h
    rw [Expression.tokens, htokens, runs_map_term hne, Expression.sketch, htree]
    exact hclauses
  | .orNothing _ e, h =>
    rw [Expression.tokens, runs_append_or, ← e.clauses_tree?_of_isFlat h.of_append.1, Expression.sketch,
      Sketch.tree?, Sketch.tree?, Option.merge_none_right]
    exact (List.append_nil _).symm
  | .or e c, h =>
    obtain ⟨he, hor⟩ := h.of_append
    obtain ⟨as, hne, htokens, -, t, htree, hclauses⟩ := c.exists_of_isFlat hor.of_cons
    rw [Expression.tokens, runs_append_or, ← e.clauses_tree?_of_isFlat he, htokens, runs_map_term hne,
      Expression.sketch, Sketch.tree?, htree, ← hclauses]
    cases e.sketch.tree? with
    | none => rfl
    | some u => rfl

/-! ## Their clauses -/

theorem Clauses.ofTree?_of_limit? {cap : Cap} (hcap : cap.limit? = none) (t : Option (Tree α)) :
    ofTree? cap t = .ok (t.elim [[]] Tree.clauses) := by
  cases t with
  | none => rfl
  | some t => rw [ofTree?, ofTree_eq_clausesWithin, t.clausesWithin_of_limit? hcap, Option.elim_some]

/-- **Queries without parentheses.** Without a limit, the clauses of a query without parentheses are its runs
of terms between the words `OR`, wherever these stand and however many. Without a term it has the empty
clause. -/
theorem clauses_of_isFlat {ts : List (Token α)} (hflat : IsFlat ts) {cap : Clauses.Cap}
    (hcap : cap.limit? = none) :
    Clauses.ofTree? cap (Tree.ofTokens ts) = .ok (if terms ts = [] then [[]] else runs ts) := by
  obtain ⟨e, rfl⟩ := exists_expression_of_balanced hflat.balanced
  have hmeant : Tree.ofTokens e.tokens = e.sketch.tree? := by
    rw [e.ofTokens_tokens, e.build_of_wholeInside (e.wholeInside_of_isFlat hflat), Option.head?_toList]
  rw [Clauses.ofTree?_of_limit? hcap, ← e.clauses_tree?_of_isFlat hflat, ← hmeant]
  simp only [← Tree.ofTokens_eq_none_iff]
  cases Tree.ofTokens e.tokens with
  | none => rfl
  | some t => rfl

/-- The tokens `OR a b OR OR c OR`, under a cap of zero. -/
theorem clauses_of_isFlat_of_stray_or :
    let ts : List (Token Char) := [.or, .term 'a', .term 'b', .or, .or, .term 'c', .or]
    IsFlat ts ∧ Clauses.Cap.limit? (some 0) = none ∧
      Clauses.ofTree? (some 0) (Tree.ofTokens ts) = .ok [['a', 'b'], ['c']] := by
  intro ts
  have hflat : IsFlat ts := by simp [ts, IsFlat]
  exact ⟨hflat, rfl, clauses_of_isFlat hflat rfl⟩

end NoteQuery
