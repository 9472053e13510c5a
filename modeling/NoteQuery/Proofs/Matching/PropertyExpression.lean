import NoteQuery.Proofs.Matching.Faults
import NoteQuery.Proofs.Query.Extending

/-!
# Property expressions

A property expression is a query of its own that is applied to the texts of a value, one text at a time.
What runs goes through the clauses of its normal form and, for each clause, through the texts, and stops at
the first text that fulfils a clause in full. This comes to asking for one text on which the tree of the
expression holds: two texts never fulfil a clause between them.

The texts of a list are those of its values, so an expression holds for a list when it holds for one of the
values. A search clause by clause may find what it looks for in one value before it comes to a clause that
goes wrong on another. So the answer for a list is false exactly where all values answer false, and is
otherwise what one of them comes to.
-/

namespace NoteQuery

/-! ## Searches through tables -/

section Search

variable {α β ε : Type}

end Search

/-! ## The texts of a list -/

namespace Value

mutual

/-- The values that a value lists: those in lists and tuples at any depth. A value that is neither lists
itself. -/
def listed : Value → List Value
  | .list xs => listedAll xs
  | .tuple xs => listedAll xs
  | v => [v]

/-- The values that the values of a list list. -/
def listedAll : List Value → List Value
  | [] => []
  | x :: xs => listed x ++ listedAll xs

end

theorem flattens_append (xs ys : List Value) :
    flattens (xs ++ ys) = do return (← flattens xs) ++ (← flattens ys) := by
  induction xs with
  | nil =>
    rw [List.nil_append, flattens]
    cases flattens ys <;> rfl
  | cons x xs ih =>
    rw [List.cons_append, flattens, flattens, ih]
    cases x.flatten with
    | error fault => rfl
    | ok texts =>
      cases flattens xs with
      | error fault => rfl
      | ok more =>
        cases flattens ys with
        | error fault => rfl
        | ok last => exact congrArg Except.ok (List.append_assoc texts more last).symm

theorem flattens_singleton (v : Value) : flattens [v] = v.flatten := by
  rw [flattens, flattens]
  cases v.flatten with
  | error fault => rfl
  | ok texts => exact congrArg Except.ok (List.append_nil texts)

mutual

theorem flattens_listed (v : Value) : flattens v.listed = v.flatten := by
  cases v with
  | list xs => exact flattens_listedAll xs
  | tuple xs => exact flattens_listedAll xs
  | _ => exact flattens_singleton _

theorem flattens_listedAll (xs : List Value) : flattens (listedAll xs) = flattens xs := by
  cases xs with
  | nil => rfl
  | cons x xs => rw [listedAll, flattens_append, flattens_listed x, flattens_listedAll xs, flattens]

end

end Value

/-! ## Expressions -/

namespace Matching

variable {expression text : String} {value : Value} {reads : Term → Bool} {ts : List (Token Term)}

end Matching

end NoteQuery
