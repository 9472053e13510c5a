import NoteQuery.Proofs.Query.Precedence

/-!
# Parentheses without a partner

The pass over the tokens refuses no parenthesis. One that closes where no group is open reduces what it
can, and a group that is never closed is dropped in the end. Both do what a partner at the very end of
the query would have done: `( a` is read as `( a )`, and `a )` as `( a )`.

## Two runs side by side

Groups opened in front of everything else lie at the bottom of the pending operators, where no reduction
gets past them. So a run that starts inside such groups stays in step with the run that does not, and
its pending operators differ by groups at the bottom only (`exists_foldl_push_inside`). How many are left
there does not matter: a closing parenthesis that finds no other group takes one away where the other
run has none to take, and draining drops the rest.

Which partners are missing is told by `Token.unopened` and `Token.unclosed`; the completions of a list to
a balanced one are those with these numbers and pairs around them (`Token.balanced_append_iff`).
-/

namespace NoteQuery

variable {α : Type}

/-! ## Counting what has no partner -/

namespace Token

/-- How many parentheses close where no group is open, `depth` groups being open before the tokens. -/
def unopened (depth : Nat) : List (Token α) → Nat
  | [] => 0
  | .opening :: rest => unopened (depth + 1) rest
  | .closing :: rest =>
    match depth with
    | 0 => unopened 0 rest + 1
    | depth + 1 => unopened depth rest
  | _ :: rest => unopened depth rest

/-- How many groups are still open in the end, `depth` groups being open before the tokens. -/
def unclosed (depth : Nat) : List (Token α) → Nat
  | [] => depth
  | .opening :: rest => unclosed (depth + 1) rest
  | .closing :: rest => unclosed (depth - 1) rest
  | _ :: rest => unclosed depth rest

/-- With `extra` more groups open, the parentheses that would find none close these first. -/
theorem depthFrom_add (ts : List (Token α)) (depth extra : Nat) :
    depthFrom (depth + extra) ts
      = if unopened depth ts ≤ extra then some (unclosed depth ts + (extra - unopened depth ts))
        else none := by
  induction ts generalizing depth extra with
  | nil => simp [depthFrom, unopened, unclosed]
  | cons t ts ih =>
    cases t with
    | term a => exact ih depth extra
    | or => exact ih depth extra
    | opening =>
      have hdepth : depth + extra + 1 = depth + 1 + extra := by omega
      rw [depthFrom, unopened, unclosed, hdepth, ih]
    | closing =>
      cases depth with
      | succ depth =>
        have hdepth : depth + 1 + extra = depth + extra + 1 := by omega
        rw [hdepth, depthFrom, unopened, unclosed, Nat.add_sub_cancel]
        exact ih depth extra
      | zero =>
        -- nothing but the extra groups is open, and one of them is closed
        cases extra with
        | zero => simp [depthFrom, unopened]
        | succ extra =>
          have hrest := ih 0 extra
          rw [Nat.zero_add] at hrest ⊢
          rw [depthFrom, unopened, unclosed, hrest]
          simp only [Nat.add_le_add_iff_right, Nat.add_sub_add_right, Nat.zero_sub]

theorem depthFrom_replicate_opening (depth n : Nat) :
    depthFrom depth (List.replicate n (.opening : Token α)) = some (depth + n) := by
  induction n generalizing depth with
  | zero => rfl
  | succ n ih =>
    rw [List.replicate_succ, depthFrom, ih, Nat.add_assoc, Nat.add_comm 1 n]

theorem depthFrom_replicate_closing (depth n : Nat) :
    depthFrom depth (List.replicate n (.closing : Token α))
      = if n ≤ depth then some (depth - n) else none := by
  induction n generalizing depth with
  | zero => simp [depthFrom]
  | succ n ih =>
    cases depth with
    | zero => simp [List.replicate_succ, depthFrom]
    | succ depth => simp [List.replicate_succ, depthFrom, ih]

/-- **Completions.** Parentheses in front and behind balance a list exactly when they are the partners
that it lacks, and as many further pairs as one likes. -/
theorem balanced_append_iff {ts : List (Token α)} {k m : Nat} :
    Balanced (List.replicate k .opening ++ ts ++ List.replicate m .closing) ↔
      ∃ pairs, k = unopened 0 ts + pairs ∧ m = unclosed 0 ts + pairs := by
  have hdepth := depthFrom_add ts 0 k
  rw [Nat.zero_add] at hdepth
  rw [Balanced, depthFrom_append, depthFrom_append, depthFrom_replicate_opening, Option.bind_some,
    Nat.zero_add, hdepth]
  by_cases hk : unopened 0 ts ≤ k
  · rw [if_pos hk, Option.bind_some, depthFrom_replicate_closing]
    constructor
    · intro h
      split at h
      · have hzero := Option.some.inj h
        exact ⟨k - unopened 0 ts, by omega, by omega⟩
      · exact nomatch h
    · rintro ⟨pairs, rfl, rfl⟩
      rw [if_pos (by omega)]
      exact congrArg some (by omega)
  · rw [if_neg hk]
    constructor
    · exact fun h ↦ nomatch h
    · rintro ⟨pairs, hopen, -⟩
      omega

end Token

/-! ## Inside further groups -/

namespace Stacks

/-- The state in which `n` more groups are open, below everything else that is pending. -/
def inside (n : Nat) (s : Stacks α) : Stacks α :=
  { s with pending := s.pending ++ List.replicate n .group }

theorem idle_replicate_group (ops : List Connective) (n : Nat) :
    Idle ops (List.replicate n .group) := by
  cases n with
  | zero => trivial
  | succ n => trivial

theorem reduce_append_of_idle {ops : List Connective} {below : List Pending} (h : Idle ops below)
    (pending : List Pending) (operands : List (Tree α)) :
    reduce ops (pending ++ below) operands
      = ((reduce ops pending operands).1 ++ below, (reduce ops pending operands).2) := by
  induction pending generalizing operands with
  | nil => exact reduce_of_idle h operands
  | cons p pending ih =>
    cases p with
    | group => rfl
    | join op =>
      rw [List.cons_append, reduce, reduce]
      split
      · exact ih _
      · rfl

theorem reduceBy_inside (ops : List Connective) (n : Nat) (s : Stacks α) :
    (s.inside n).reduceBy ops = (s.reduceBy ops).inside n := by
  rw [reduceBy, inside, reduce_append_of_idle (idle_replicate_group ops n)]
  rfl

theorem joinNeighbour_inside (n : Nat) (s : Stacks α) :
    (s.inside n).joinNeighbour = s.joinNeighbour.inside n := by
  have hafter : (s.inside n).afterOperand = s.afterOperand := rfl
  rw [joinNeighbour, joinNeighbour, hafter]
  split
  · rw [reduceBy_inside]
    rfl
  · rfl

theorem exists_push_inside (n : Nat) (s : Stacks α) (t : Token α) :
    ∃ m, (s.inside n).push t = (s.push t).inside m := by
  cases t with
  | term a =>
    refine ⟨n, ?_⟩
    rw [push, joinNeighbour_inside]
    rfl
  | or =>
    refine ⟨n, ?_⟩
    rw [push, reduceBy_inside]
    rfl
  | opening =>
    refine ⟨n, ?_⟩
    rw [push, joinNeighbour_inside]
    rfl
  | closing =>
    rw [push, push, reduceBy_inside]
    -- the group that is closed is the innermost one, or the first of those at the bottom
    cases hpending : (s.reduceBy [.and, .or]).pending with
    | nil => exact ⟨n - 1, by simp [inside, hpending]⟩
    | cons p pending => exact ⟨n, by simp [inside, hpending]⟩

/-- **Two runs side by side.** A run that starts inside further groups ends inside further groups. -/
theorem exists_foldl_push_inside (ts : List (Token α)) (n : Nat) (s : Stacks α) :
    ∃ m, ts.foldl push (s.inside n) = (ts.foldl push s).inside m := by
  induction ts generalizing n s with
  | nil => exact ⟨n, rfl⟩
  | cons t ts ih =>
    obtain ⟨m, hm⟩ := exists_push_inside n s t
    rw [List.foldl_cons, List.foldl_cons, hm]
    exact ih m (s.push t)

theorem foldl_push_replicate_opening (n : Nat) :
    (List.replicate n .opening).foldl push (empty : Stacks α) = empty.inside n := by
  induction n with
  | zero => rfl
  | succ n ih =>
    rw [List.replicate_succ', List.foldl_append, ih, List.foldl_cons, List.foldl_nil, push,
      joinNeighbour_inside, inside, inside, List.replicate_succ]
    rfl

/-! ## At the end -/

theorem drain_append_replicate (pending : List Pending) (n : Nat) (operands : List (Tree α)) :
    drain (pending ++ List.replicate n .group) operands = drain pending operands := by
  induction pending generalizing operands with
  | nil =>
    induction n with
    | zero => rfl
    | succ n ih => exact ih
  | cons p pending ih =>
    cases p with
    | group => exact ih operands
    | join op => exact ih (combine op operands)

theorem finish_inside (n : Nat) (s : Stacks α) : (s.inside n).finish = s.finish := by
  rw [finish, inside, drain_append_replicate, finish]

/-- After all joints are reduced at most a group is on top, which draining drops. -/
theorem drain_tail_reduce (pending : List Pending) (operands : List (Tree α)) :
    drain (reduce [.and, .or] pending operands).1.tail (reduce [.and, .or] pending operands).2
      = drain pending operands := by
  induction pending generalizing operands with
  | nil => rfl
  | cons p pending ih =>
    match p with
    | .group => rfl
    | .join op =>
      have hop : op ∈ [Connective.and, Connective.or] := by cases op <;> simp
      rw [reduce_join hop, ih, drain]

/-- A closing parenthesis at the end of a query does what the end does. -/
theorem finish_push_closing (s : Stacks α) : (s.push .closing).finish = s.finish := by
  have hdrain := drain_tail_reduce s.pending s.operands
  rw [finish, push, reduceBy]
  simp only [hdrain]
  rw [finish]

theorem finish_foldl_push_closing (n : Nat) (s : Stacks α) :
    ((List.replicate n .closing).foldl push s).finish = s.finish := by
  induction n generalizing s with
  | zero => rfl
  | succ n ih => rw [List.replicate_succ, List.foldl_cons, ih, finish_push_closing]

end Stacks

/-! ## The tree -/

open Stacks

/-- Neither opening parentheses in front of a query nor closing ones behind it change its tree. -/
theorem ofTokens_replicate_append_replicate (k m : Nat) (ts : List (Token α)) :
    Tree.ofTokens (List.replicate k .opening ++ ts ++ List.replicate m .closing)
      = Tree.ofTokens ts := by
  obtain ⟨n, hn⟩ := exists_foldl_push_inside ts k (empty : Stacks α)
  rw [Tree.ofTokens, List.foldl_append, List.foldl_append, finish_foldl_push_closing,
    foldl_push_replicate_opening, hn, finish_inside, Tree.ofTokens]

/-- **Parentheses without a partner** are read as if their partners stood at the ends of the query: the
list with these partners is balanced, no fewer of them would do, and it has the same tree. Closing
parentheses at the end, however many, leave the tree as it is. -/
theorem ofTokens_completed (ts : List (Token α)) :
    (∀ k m, Token.Balanced (List.replicate k .opening ++ ts ++ List.replicate m .closing) ↔
      ∃ pairs, k = Token.unopened 0 ts + pairs ∧ m = Token.unclosed 0 ts + pairs) ∧
    Tree.ofTokens (List.replicate (Token.unopened 0 ts) .opening ++ ts ++
        List.replicate (Token.unclosed 0 ts) .closing) = Tree.ofTokens ts ∧
    ∀ n, Tree.ofTokens (ts ++ List.replicate n .closing) = Tree.ofTokens ts := by
  refine ⟨fun k m ↦ Token.balanced_append_iff, ofTokens_replicate_append_replicate _ _ ts,
    fun n ↦ ?_⟩
  have hbehind := ofTokens_replicate_append_replicate 0 n ts
  rwa [List.replicate_zero, List.nil_append] at hbehind

end NoteQuery
