import NoteQuery.Proofs.Query.Sketch

/-!
# The grammar of token lists

An expression is a list of conjunctions with the word `OR` between them, a conjunction is a list of
neighbouring factors, and a factor is a term or an expression in parentheses. The grammar is left
recursive, so that its trees are folded from the left.

The parameter `gaps` says whether conjunctions may be left out. Without gaps the grammar is that of
the well-formed queries; with gaps, `OR` may lack operands and groups may be empty. Every balanced
token list is an expression with gaps: `exists_expression_of_balanced`.
-/

namespace NoteQuery

variable {α : Type} {gaps : Prop}

mutual

/-- Conjunctions with the word `OR` between them, of which some may be left out if gaps are allowed.
-/
inductive Expression (α : Type) (gaps : Prop)
  /-- Nothing. -/
  | nothing (h : gaps)
  /-- A single conjunction. -/
  | single (c : Conjunction α gaps)
  /-- The word `OR` with nothing after it. -/
  | orNothing (h : gaps) (e : Expression α gaps)
  /-- The word `OR` with a conjunction after it. -/
  | or (e : Expression α gaps) (c : Conjunction α gaps)

/-- Neighbouring factors, at least one. -/
inductive Conjunction (α : Type) (gaps : Prop)
  /-- A single factor. -/
  | single (f : Factor α gaps)
  /-- A further factor. -/
  | and (c : Conjunction α gaps) (f : Factor α gaps)

/-- A term or a group. -/
inductive Factor (α : Type) (gaps : Prop)
  /-- A term. -/
  | term (a : α)
  /-- An expression in parentheses. -/
  | group (e : Expression α gaps)

end

/-! ## What is written -/

mutual

/-- The tokens of an expression. -/
def Expression.tokens : Expression α gaps → List (Token α)
  | .nothing _ => []
  | .single c => c.tokens
  | .orNothing _ e => e.tokens ++ [.or]
  | .or e c => e.tokens ++ .or :: c.tokens

/-- The tokens of a conjunction. -/
def Conjunction.tokens : Conjunction α gaps → List (Token α)
  | .single f => f.tokens
  | .and c f => c.tokens ++ f.tokens

/-- The tokens of a factor. -/
def Factor.tokens : Factor α gaps → List (Token α)
  | .term a => [.term a]
  | .group e => .opening :: e.tokens ++ [.closing]

end

/-! ## What is meant -/

mutual

/-- The tree of a well-formed expression: its conjunctions are joined by `or`, from the left. -/
def Expression.tree : Expression α False → Tree α
  | .nothing h => h.elim
  | .single c => c.tree
  | .orNothing h _ => h.elim
  | .or e c => .node .or e.tree c.tree

/-- The tree of a well-formed conjunction: its factors are joined by `and`, from the left. -/
def Conjunction.tree : Conjunction α False → Tree α
  | .single f => f.tree
  | .and c f => .node .and c.tree f.tree

/-- The tree of a well-formed factor. The parentheses leave no trace. -/
def Factor.tree : Factor α False → Tree α
  | .term a => .leaf a
  | .group e => e.tree

end

mutual

/-- The sketch of an expression: its tree, with gaps where something is left out. -/
def Expression.sketch : Expression α gaps → Sketch α
  | .nothing _ => .gap
  | .single c => c.sketch
  | .orNothing _ e => .node .or e.sketch .gap
  | .or e c => .node .or e.sketch c.sketch

/-- The sketch of a conjunction. -/
def Conjunction.sketch : Conjunction α gaps → Sketch α
  | .single f => f.sketch
  | .and c f => .node .and c.sketch f.sketch

/-- The sketch of a factor. -/
def Factor.sketch : Factor α gaps → Sketch α
  | .term a => .leaf a
  | .group e => e.sketch

end

/-! A well-formed expression is built as its tree. -/

mutual

theorem Expression.build_sketch : ∀ (e : Expression α False) (operands : List (Tree α)),
    e.sketch.build operands = e.tree :: operands
  | .nothing h, _ => h.elim
  | .single c, operands => c.build_sketch operands
  | .orNothing h _, _ => h.elim
  | .or e c, operands => by
    rw [Expression.sketch, Sketch.build, e.build_sketch, c.build_sketch]
    rfl

theorem Conjunction.build_sketch : ∀ (c : Conjunction α False) (operands : List (Tree α)),
    c.sketch.build operands = c.tree :: operands
  | .single f, operands => f.build_sketch operands
  | .and c f, operands => by
    rw [Conjunction.sketch, Sketch.build, c.build_sketch, f.build_sketch]
    rfl

theorem Factor.build_sketch : ∀ (f : Factor α False) (operands : List (Tree α)),
    f.sketch.build operands = f.tree :: operands
  | .term _, _ => rfl
  | .group e, operands => e.build_sketch operands

end

/-! ## Balanced parentheses -/

/-- How many groups are open after some tokens, `depth` being open before them; none if a
parenthesis closes without a group. -/
def Token.depthFrom (depth : Nat) : List (Token α) → Option Nat
  | [] => some depth
  | .opening :: rest => depthFrom (depth + 1) rest
  | .closing :: rest =>
    match depth with
    | 0 => none
    | depth + 1 => depthFrom depth rest
  | _ :: rest => depthFrom depth rest

/-- Every parenthesis has its partner. -/
def Token.Balanced (ts : List (Token α)) : Prop := Token.depthFrom 0 ts = some 0

instance (ts : List (Token α)) : Decidable (Token.Balanced ts) :=
  inferInstanceAs (Decidable (_ = _))

theorem Token.depthFrom_append (depth : Nat) (ts us : List (Token α)) :
    depthFrom depth (ts ++ us) = (depthFrom depth ts).bind (depthFrom · us) := by
  induction ts generalizing depth with
  | nil => rfl
  | cons t ts ih =>
    cases t with
    | closing =>
      cases depth with
      | zero => rfl
      | succ depth => exact ih depth
    | opening => exact ih (depth + 1)
    | term a => exact ih depth
    | or => exact ih depth

/-- An expression with a factor after it. -/
def Expression.addFactor (f : Factor α gaps) : Expression α gaps → Expression α gaps
  | .nothing _ => .single (.single f)
  | .single c => .single (.and c f)
  | .orNothing _ e => .or e (.single f)
  | .or e c => .or e (.and c f)

theorem Expression.tokens_addFactor (f : Factor α gaps) (e : Expression α gaps) :
    (e.addFactor f).tokens = e.tokens ++ f.tokens := by
  cases e with
  | nothing h => rfl
  | single c => rfl
  | orNothing h e =>
    rw [addFactor, tokens, tokens, Conjunction.tokens, List.append_assoc, List.singleton_append]
  | or e c =>
    rw [addFactor, tokens, tokens, Conjunction.tokens, List.append_assoc, List.cons_append]

/-- The tokens of an expression inside the open groups of others, the innermost first. -/
def Expression.tokensInside (e : Expression α gaps) : List (Expression α gaps) → List (Token α)
  | [] => e.tokens
  | outer :: others => outer.tokensInside others ++ .opening :: e.tokens

theorem Expression.tokensInside_congr {e e' : Expression α gaps} {ts : List (Token α)}
    (others : List (Expression α gaps)) (h : e'.tokens = e.tokens ++ ts) :
    e'.tokensInside others = e.tokensInside others ++ ts := by
  cases others with
  | nil => exact h
  | cons outer others => rw [tokensInside, tokensInside, h, List.append_assoc, List.cons_append]

/-- What is read so far is an expression inside open groups; each token extends the innermost one,
opens a further one or closes it. -/
theorem exists_expression_of_depthFrom {ts : List (Token α)} (e : Expression α True)
    (others : List (Expression α True)) (h : Token.depthFrom others.length ts = some 0) :
    ∃ e' : Expression α True, e'.tokens = e.tokensInside others ++ ts := by
  induction ts generalizing e others with
  | nil =>
    have hothers : others = [] := List.length_eq_zero_iff.mp (Option.some.inj h)
    subst hothers
    exact ⟨e, (List.append_nil _).symm⟩
  | cons t ts ih =>
    cases t with
    | term a =>
      obtain ⟨e', he'⟩ := ih (e.addFactor (.term a)) others h
      refine ⟨e', ?_⟩
      rw [he', Expression.tokensInside_congr others (e.tokens_addFactor (.term a)),
        List.append_assoc]
      rfl
    | or =>
      obtain ⟨e', he'⟩ := ih (.orNothing trivial e) others h
      have htokens : (Expression.orNothing trivial e).tokens = e.tokens ++ [.or] := rfl
      refine ⟨e', ?_⟩
      rw [he', Expression.tokensInside_congr others htokens, List.append_assoc]
      rfl
    | opening =>
      obtain ⟨e', he'⟩ := ih (.nothing trivial) (e :: others) h
      refine ⟨e', ?_⟩
      rw [he', Expression.tokensInside, Expression.tokens, List.append_assoc]
      rfl
    | closing =>
      cases others with
      | nil => exact absurd h (by simp [Token.depthFrom])
      | cons outer others =>
        -- what stands in the group becomes a factor of what stands around it
        obtain ⟨e', he'⟩ := ih (outer.addFactor (.group e)) others h
        refine ⟨e', ?_⟩
        rw [he', Expression.tokensInside_congr others (outer.tokens_addFactor (.group e)),
          Expression.tokensInside, Factor.tokens]
        simp only [List.append_assoc, List.cons_append, List.nil_append]

theorem exists_expression_of_balanced {ts : List (Token α)} (h : Token.Balanced ts) :
    ∃ e : Expression α True, e.tokens = ts :=
  exists_expression_of_depthFrom (.nothing trivial) [] h

end NoteQuery
