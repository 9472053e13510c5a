import NoteQuery.Note.Record
import NoteQuery.Text.Distinct

/-!
# The folders of a vault

Records are arranged in a forest by the segments of their paths: one node for every prefix of some
record's path, below the node of the prefix that is one segment shorter, siblings in the order in which
they first appear. Everything about a node is determined by its prefix and the list of records, so the
forest is defined prefix by prefix and not built by insertion. What bounds the recursion is the greatest
number of segments of a path.

A node is a leaf when a record has its path and none lies below. A folder without a record of its own has
an empty one.
-/

namespace NoteQuery

/-- A node of a forest. -/
inductive Branch
  /-- A node with its record, its children, and whether it counts as a leaf. -/
  | node (record : Record) (children : List Branch) (isLeaf : Bool)
deriving Repr

/-- Trees of records. -/
abbrev Forest := List Branch

namespace Branch

instance : Inhabited Branch := ⟨.node default [] true⟩

/-- The record of a node. -/
def record : Branch → Record
  | node r _ _ => r

/-- The children of a node. -/
def children : Branch → Forest
  | node _ cs _ => cs

/-- Whether a node counts as a leaf. -/
def isLeaf : Branch → Bool
  | node _ _ leaf => leaf

/-- The path of a node is that of its record. -/
def path (b : Branch) : String := b.record.path

end Branch

/-- The segments of a path: what stands between its slashes, unless that is nothing. -/
def segments (path : String) : List String :=
  ((Text.splitOn '/' path.toList).filter (!·.isEmpty)).map String.ofList

/-- The path that some segments make. -/
def pathOf (segments : List String) : String := "/".intercalate segments

namespace Forest

/-- A record with the segments of its path. -/
abbrev Entry := List String × Record

/-- The entries of some records. -/
def entries (records : List Record) : List Entry := records.map fun r ↦ (segments r.path, r)

/-- The segment that follows a prefix in a longer path. -/
def nextSegment? (start path : List String) : Option String :=
  if start.isPrefixOf path then path[start.length]? else none

/-- The segments that follow a prefix, in order of first appearance. -/
def nextSegments (es : List Entry) (start : List String) : List String :=
  Text.distinct (es.filterMap fun e ↦ nextSegment? start e.1)

/-- The last record with a path. -/
def recordAt? (es : List Entry) (path : List String) : Option Record :=
  (es.filter fun e ↦ e.1 = path).getLast?.map Prod.snd

/-- The node of a prefix, given what lies below. -/
def nodeAt (es : List Entry) (path : List String) (children : Forest) : Branch :=
  match recordAt? es path with
  | some r => .node r children children.isEmpty
  | none => .node (Record.ofPath (pathOf path)) children false

/-- The nodes below a prefix, at most `depth` segments deep. -/
def below (es : List Entry) (start : List String) : (depth : Nat) → Forest
  | 0 => []
  | depth + 1 =>
    (nextSegments es start).map fun s ↦ nodeAt es (start ++ [s]) (below es (start ++ [s]) depth)

/-- The greatest number of segments of a path. -/
def depth (es : List Entry) : Nat := (es.map fun e ↦ e.1.length).foldl max 0

/-- The forest of some records. -/
def ofRecords (records : List Record) : Forest :=
  let es := entries records
  below es [] (depth es)

end Forest

end NoteQuery
