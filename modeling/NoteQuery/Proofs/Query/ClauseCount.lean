import NoteQuery.Proofs.Query.Cap

/-!
# The number of clauses

How many clauses a tree has can be told before any of them is made: the numbers of its parts are added at
`or` and multiplied at `and`. The walk looks at the cap wherever it joins two parts, so it might refuse a
tree for the sake of a part. It never does: every part has at least one clause, sums and products of such
numbers are no less than each of them, and so no part has more clauses than the whole.
-/

namespace NoteQuery

variable {α : Type}

namespace Clauses

variable {left right : Nat}

theorem le_joinCount_left (op : Connective) (hright : 0 < right) : left ≤ joinCount op left right := by
  cases op with
  | and => exact Nat.le_mul_of_pos_right left hright
  | or => exact Nat.le_add_right left right

theorem le_joinCount_right (op : Connective) (hleft : 0 < left) : right ≤ joinCount op left right := by
  cases op with
  | and => exact Nat.le_mul_of_pos_left right hleft
  | or => exact Nat.le_add_left right left

end Clauses

namespace Tree

theorem length_clauses (t : Tree α) : t.clauses.length = t.clauseCount := by
  induction t with
  | leaf a => rfl
  | node op l r ihl ihr => rw [clauses, Clauses.length_join, ihl, ihr, clauseCount]

theorem clauseCount_pos (t : Tree α) : 0 < t.clauseCount := by
  rw [← t.length_clauses]
  exact List.length_pos_iff.mpr t.clauses_ne_nil

end Tree

namespace Clauses

/-- Under a cap two lists are refused when their joint is longer than the cap. -/
theorem joinWithin_of_lt {m : Nat} (hm : 1 ≤ m) {op : Connective} {left right : List (Clause α)}
    (hlong : m < (join op left right).length) :
    joinWithin (some m) op left right = .error (.tooComplex m) := by
  have hlimit : Cap.limit? (some (m : Int)) = some (m : Int) := by
    rw [Cap.limit?, Option.filter_some, if_pos (by simpa using Nat.ne_of_gt hm)]
  rw [length_join] at hlong
  rw [joinWithin, hlimit]
  exact if_pos (Int.ofNat_lt.mpr hlong)

end Clauses

namespace Tree

theorem clausesWithin_eq_ite {m : Nat} (hm : 1 ≤ m) (t : Tree α) :
    t.clausesWithin (some (m : Int))
      = if m < t.clauseCount then .error (.tooComplex m) else .ok t.clauses := by
  induction t with
  | leaf a => exact (if_neg (Nat.not_lt.mpr hm)).symm
  | node op l r ihl ihr =>
    have hleft : l.clauseCount ≤ Clauses.joinCount op l.clauseCount r.clauseCount :=
      Clauses.le_joinCount_left op r.clauseCount_pos
    have hright : r.clauseCount ≤ Clauses.joinCount op l.clauseCount r.clauseCount :=
      Clauses.le_joinCount_right op l.clauseCount_pos
    rw [clausesWithin, ihl, ihr, clauseCount]
    by_cases hl : m < l.clauseCount
    · rw [if_pos hl, if_pos (Nat.lt_of_lt_of_le hl hleft)]
      rfl
    · by_cases hr : m < r.clauseCount
      · rw [if_neg hl, if_pos hr, if_pos (Nat.lt_of_lt_of_le hr hright)]
        rfl
      · have hlength := length_clauses (.node op l r)
        rw [if_neg hl, if_neg hr]
        change Clauses.joinWithin _ op l.clauses r.clauses = _
        by_cases hlong : m < Clauses.joinCount op l.clauseCount r.clauseCount
        · rw [if_pos hlong]
          exact Clauses.joinWithin_of_lt hm (hlength.symm ▸ hlong)
        · rw [if_neg hlong]
          exact (Clauses.joinWithin_eq_ok_iff hm).mpr ⟨rfl, hlength.symm ▸ Nat.not_lt.mp hlong⟩

theorem clausesWithin_of_limit? {cap : Clauses.Cap} (hcap : cap.limit? = none) (t : Tree α) :
    t.clausesWithin cap = .ok t.clauses := by
  induction t with
  | leaf a => rfl
  | node op l r ihl ihr =>
    rw [clausesWithin, ihl, ihr]
    change Clauses.joinWithin cap op l.clauses r.clauses = _
    rw [Clauses.joinWithin, hcap]
    rfl

end Tree

namespace Clauses

/-- **The cap is exact.** A tree is refused, as too complex, exactly if it has more clauses than the cap.
If it is not refused, it has the clauses that it has without a cap, as many as are counted. No cap, or a
cap of zero, refuses no tree. -/
theorem ofTree_within_cap (t : Tree α) {m : Nat} (hm : 1 ≤ m) :
    ((∃ fault, ofTree (some (m : Int)) t = .error fault) ↔ m < t.clauseCount) ∧
    (∀ fault, ofTree (some (m : Int)) t = .error fault → fault = .tooComplex m) ∧
    (∀ clauses, ofTree (some (m : Int)) t = .ok clauses →
      ofTree none t = .ok clauses ∧ clauses.length = t.clauseCount) ∧
    ∀ cap : Cap, cap = none ∨ cap = some 0 → ∃ clauses, ofTree cap t = .ok clauses := by
  have hcapped : ofTree (some (m : Int)) t
      = if m < t.clauseCount then .error (.tooComplex m) else .ok t.clauses := by
    rw [ofTree_eq_clausesWithin, t.clausesWithin_eq_ite hm]
  have hfree : ∀ cap : Cap, cap = none ∨ cap = some 0 → ofTree cap t = .ok t.clauses := by
    intro cap hcap
    rw [ofTree_eq_clausesWithin]
    refine t.clausesWithin_of_limit? ?_
    rcases hcap with rfl | rfl
    · rfl
    · rfl
  by_cases hmany : m < t.clauseCount
  · rw [if_pos hmany] at hcapped
    rw [hcapped]
    exact ⟨iff_of_true ⟨_, rfl⟩ hmany, fun fault h ↦ (Except.error.inj h).symm, nofun,
      fun cap hcap ↦ ⟨_, hfree cap hcap⟩⟩
  · rw [if_neg hmany] at hcapped
    rw [hcapped]
    refine ⟨iff_of_false nofun hmany, nofun, fun clauses h ↦ ?_, fun cap hcap ↦ ⟨_, hfree cap hcap⟩⟩
    obtain rfl := Except.ok.inj h
    exact ⟨hfree none (.inl rfl), t.length_clauses⟩

/-! ### Two alternatives, twice -/

/-- The tree of `(a OR b) (c OR d)`. -/
def alternatives : Tree Char :=
  .node .and (.node .or (.leaf 'a') (.leaf 'b')) (.node .or (.leaf 'c') (.leaf 'd'))

/-- A tree with four clauses is refused under a cap of three and has all of them under a cap of four. -/
theorem ofTree_within_cap_of_alternatives :
    alternatives.clauseCount = 4 ∧ (∃ fault, ofTree (some 3) alternatives = .error fault) ∧
      ∃ clauses, ofTree (some 4) alternatives = .ok clauses ∧ clauses.length = 4 := by
  have hfour := ofTree_within_cap (m := 4) alternatives (by decide)
  refine ⟨rfl, (ofTree_within_cap (m := 3) alternatives (by decide)).1.mpr (by decide), ?_⟩
  rcases exists_ok_or_exists_error (ofTree (some 4) alternatives) with ⟨clauses, h⟩ | h
  · exact ⟨clauses, h, (hfour.2.2.1 clauses h).2⟩
  · exact absurd (hfour.1.mp h) (by decide)

end Clauses

end NoteQuery
