import NoteQuery.Forest.Basic
import NoteQuery.Matching.Evaluate

/-!
# What of a forest is shown

A query shows the leaves that match it and the folders with something shown below them; a query that
matches everything shows all. Only records of leaves are tested. The nodes are walked in order, a node
before its children, and every node is walked, so a test that goes wrong anywhere is met.
-/

namespace NoteQuery

/-- What a query shows of a forest. -/
structure Visibility where
  /-- The paths of the nodes that are shown, each once. -/
  paths : List String
  /-- The number of nodes. -/
  total : Nat
  /-- The number of leaves that are shown. -/
  leaves : Nat
  /-- The number of folders that are shown. -/
  folders : Nat
deriving Repr, DecidableEq

namespace Visibility

/-- The number of nodes that are shown. -/
def visible (v : Visibility) : Nat := v.leaves + v.folders

/-- Whether a path is shown. -/
def isVisible (v : Visibility) (path : String) : Bool := v.paths.contains path

/-- The paths that are shown, sorted. -/
def sortedPaths (v : Visibility) : List String := v.paths.mergeSort fun a b ↦ a ≤ b

end Visibility

namespace Forest

/-! ## The walk -/

/-- A node that has been walked: whether it is a leaf, whether it is shown, and its path. -/
structure Visit where
  /-- The path of the node. -/
  path : String
  /-- Whether it is a leaf. -/
  isLeaf : Bool
  /-- Whether it is shown. -/
  isShown : Bool

mutual

/-- Walks a node with all below it: first it, then what is below. The test is none if everything
matches. -/
def visit (test : Option (Record → Answer Bool)) : Branch → Answer (List Visit)
  | .node record children isLeaf => do
    let matched ← match test with
      | none => pure true
      | some holds => if isLeaf then holds record else pure false
    let (visits, childShown) ← visitAll test children
    return ⟨record.path, isLeaf, matched || childShown⟩ :: visits

/-- Walks several nodes, and says whether one of them is shown. -/
def visitAll (test : Option (Record → Answer Bool)) : List Branch → Answer (List Visit × Bool)
  | [] => .ok ([], false)
  | b :: bs => do
    let here ← visit test b
    let (more, shown) ← visitAll test bs
    return (here ++ more, (here.head?.any (·.isShown)) || shown)

end

/-- The counts of some visits. -/
def tally (visits : List Visit) : Visibility :=
  let shown := visits.filter (·.isShown)
  { paths := Text.distinct (shown.map (·.path))
    total := visits.length
    leaves := shown.countP (·.isLeaf)
    folders := shown.countP (!·.isLeaf) }

mutual

/-- The records of the leaves of a node and of what is below it. -/
def leavesOf : Branch → List Record
  | .node record children isLeaf => (if isLeaf then [record] else []) ++ leafRecords children

/-- The records of the leaves of several nodes, in the order in which they are tested. -/
def leafRecords : List Branch → List Record
  | [] => []
  | b :: bs => leavesOf b ++ leafRecords bs

end

/-- What a test shows of a forest. -/
def visibility (test : Option (Record → Answer Bool)) (forest : Forest) : Answer Visibility :=
  (visitAll test forest).map fun (visits, _) ↦ tally visits

end Forest

end NoteQuery
