/-!
# Ranges of code points

Properties of characters that a standard fixes by listing are kept as data: a property is a list of
closed ranges of code points, a case mapping is a list of runs with a common shift. This module holds
the two shapes and the look-ups; the tables are under `NoteQuery.Text.Alphabet`.
-/

namespace NoteQuery.Text

/-- A set of code points as a list of closed ranges. -/
abbrev CodeRanges := List (Nat × Nat)

namespace CodeRanges

/-- Whether a code point lies in one of the ranges. -/
def contains (ranges : CodeRanges) (code : Nat) : Bool :=
  ranges.any fun range ↦ range.1 ≤ code && code ≤ range.2

end CodeRanges

/-- A run of code points that a case mapping moves by one shift: `first`, `first + stride`, … up to
`last`. -/
structure CaseRun where
  /-- The first code point of the run. -/
  first : Nat
  /-- The last code point of the run. -/
  last : Nat
  /-- The distance between neighbours of the run. -/
  stride : Nat
  /-- What is added to a code point of the run. -/
  shift : Int
deriving Repr, DecidableEq

namespace CaseRun

/-- Whether a code point belongs to the run. -/
def covers (run : CaseRun) (code : Nat) : Bool :=
  run.first ≤ code && code ≤ run.last && (code - run.first) % run.stride == 0

/-- Where the run sends one of its code points. -/
def target (run : CaseRun) (code : Nat) : Nat := ((code : Int) + run.shift).toNat

/-- The image of a code point under a mapping: itself where no run covers it. -/
def map (runs : List CaseRun) (code : Nat) : Nat :=
  match runs.find? (·.covers code) with
  | some run => run.target code
  | none => code

end CaseRun

end NoteQuery.Text
