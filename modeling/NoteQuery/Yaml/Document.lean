import NoteQuery.Value.Mapping
import NoteQuery.Yaml.Node
import NoteQuery.Yaml.Scalar

/-!
# The value of a YAML document

The value of a node is built from its tag. A mapping takes over the entries of the mappings under its
merge keys; they come first and its own entries win. A key may come twice: the first keeps its place, the
last gives the value.

Values are built level by level: all parts of a collection before any part of a part. So of two faults
the one on the outer level is reported, and in one level the first.
-/

namespace NoteQuery.Yaml

namespace Node

/-- The tag of a node. -/
def tag : Node → Tag
  | scalar t _ => t
  | sequence t _ => t
  | mapping t _ => t

/-! ## Merging -/

/-- A scalar as a text. -/
def asText : Node → Node
  | scalar _ text => .scalar .str text
  | node => node

mutual

/-- The entries of a mapping with those merged into it. -/
def flattened : Node → Except Fault (List (Node × Node))
  | mapping _ entries => do
    let (merged, own) ← flattenEntries entries
    return merged ++ own
  | _ => .error .malformed

/-- The entries that are merged into a mapping, and its own ones. -/
def flattenEntries : List (Node × Node) → Except Fault (List (Node × Node) × List (Node × Node))
  | [] => .ok ([], [])
  | (k, v) :: rest =>
    match k.tag with
    | .merge => do
      let here ← mergedFrom v
      let (merged, own) ← flattenEntries rest
      return (here ++ merged, own)
    | .value =>
      (flattenEntries rest).map fun (merged, own) ↦ (merged, (asText k, v) :: own)
    | _ => (flattenEntries rest).map fun (merged, own) ↦ (merged, (k, v) :: own)

/-- The entries that the value of a merge key stands for: those of a mapping, or of several, the last
first. -/
def mergedFrom : Node → Except Fault (List (Node × Node))
  | mapping t entries => flattened (mapping t entries)
  | sequence _ items => (flattenItems items).map fun groups ↦ groups.reverse.flatten
  | scalar .. => .error .malformed

/-- The entries of every mapping of a list. -/
def flattenItems : List Node → Except Fault (List (List (Node × Node)))
  | [] => .ok []
  | item :: rest => do
    let here ← flattened item
    return here :: (← flattenItems rest)

end

/-! ## Scalars -/

mutual

/-- The text of a scalar. A mapping has the text of its own value, if it has one. -/
def scalarText : Node → Except Fault CodeText
  | scalar _ text => .ok text
  | mapping _ entries => ownText entries
  | sequence .. => .error .malformed

/-- The text of the own value among some entries. -/
def ownText : List (Node × Node) → Except Fault CodeText
  | [] => .error .malformed
  | (k, v) :: rest => if k.tag = .value then scalarText v else ownText rest

end

/-- The value of a node whose tag is one of scalars. -/
def scalarValue (n : Node) (read : CodeText → Except Fault Value) : Except Fault Value :=
  n.scalarText.bind read

/-- The value of a node that is built when it is met, or nothing for a collection, which is built after
the level it is met in. -/
def immediate? (n : Node) : Except Fault (Option Value) :=
  match n.tag with
  | .null => (n.scalarValue fun _ ↦ .ok .null).map some
  | .bool => (n.scalarValue fun t ↦ Scalar.truth t.characters).map some
  | .int => (n.scalarValue fun t ↦ Scalar.integer t.characters).map some
  | .float => (n.scalarValue fun t ↦ Scalar.float t.characters).map some
  | .binary => (n.scalarValue fun t ↦ Scalar.bytes t.characters).map some
  | .timestamp => (n.scalarValue fun t ↦ Scalar.timestamp t.characters).map some
  | .str => (n.scalarValue fun t ↦ .ok (.str t)).map some
  | .seq | .map | .set | .orderedMap | .pairs => .ok none
  | .merge | .value | .other => .error .malformed

/-! ## Faults in their order -/

/-- The collections among some nodes, in order, if the other nodes have values. -/
def collections (nodes : List Node) : Except Fault (List Node) :=
  (nodes.mapM fun n ↦ (immediate? n).map fun v ↦ if v.isSome then [] else [n]).map List.flatten

/-- The collections among the keys and values of some entries. A collection is no key. -/
def collectionsOfEntries : List (Node × Node) → Except Fault (List Node)
  | [] => .ok []
  | (k, v) :: rest => do
    if (← k.immediate?).isNone then throw .malformed
    return (← collections [v]) ++ (← collectionsOfEntries rest)

/-- The only entry of an item of an ordered mapping. -/
def onlyEntry : Node → Except Fault (Node × Node)
  | mapping _ [entry] => .ok entry
  | _ => .error .malformed

/-- The collections among the parts of a collection. -/
def parts (n : Node) : Except Fault (List Node) :=
  match n.tag, n with
  | .seq, sequence _ items => collections items
  | .map, mapping .. => n.flattened.bind collectionsOfEntries
  | .set, mapping .. => n.flattened.bind collectionsOfEntries
  | .orderedMap, sequence _ items | .pairs, sequence _ items => do
    let found ← items.mapM fun item ↦ do
      let (k, v) ← onlyEntry item
      collections [k, v]
    return found.flatten
  | _, _ => .error .malformed

/-- The first fault of some collections, level by level. -/
def firstFault (level : List Node) : (fuel : Nat) → Option Fault
  | 0 => none
  | fuel + 1 =>
    if level.isEmpty then none
    else
      match level.mapM parts with
      | .error f => some f
      | .ok next => firstFault next.flatten fuel

/-! ## Values -/

/-- The value of a node. -/
def value (n : Node) : (fuel : Nat) → Except Fault Value
  | 0 => .error .recursive
  | fuel + 1 => do
    let pair (entry : Node × Node) : Except Fault (Value × Value) :=
      return (← entry.1.value fuel, ← entry.2.value fuel)
    match ← n.immediate? with
    | some v => return v
    | none =>
      match n.tag, n with
      | .seq, sequence _ items => return .list (← items.mapM (·.value fuel))
      | .map, mapping .. => return .map (Mapping.ofEntries (← (← n.flattened).mapM pair))
      | .set, mapping .. =>
        return .set ((Mapping.ofEntries (← (← n.flattened).mapM pair)).map Prod.fst)
      | .orderedMap, sequence _ items | .pairs, sequence _ items =>
        return .list (← items.mapM fun item ↦ do
          let (k, v) ← pair (← onlyEntry item)
          return .tuple [k, v])
      | _, _ => throw .malformed

/-- The value of a document's node. Of its faults the first in the order of building is reported. -/
def document (n : Node) (fuel : Nat) : Except Fault Value :=
  match collections [n] with
  | .error f => .error f
  | .ok level =>
    match firstFault level fuel with
    | some f => .error f
    | none => n.value fuel

end Node

/-- The value of a YAML text; a text without a document has none. -/
def parse (text : List Char) : Except Fault Value := do
  let lexemes := Lexeme.ofText text
  match ← Node.ofLexemes lexemes with
  | none => return .null
  | some node => node.document (lexemes.length + 2)

end NoteQuery.Yaml
