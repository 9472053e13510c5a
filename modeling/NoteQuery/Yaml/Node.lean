import NoteQuery.Yaml.Lexeme
import NoteQuery.Yaml.Tag

/-!
# Nodes of a YAML document

The lexemes of a text are the nodes of one document: scalars, sequences and mappings, each with its tag.
An alias stands for the node whose anchor it names, which has to come before it and to be complete. Items
and values that are left out are empty scalars.
-/

namespace NoteQuery.Yaml

/-- A node. -/
inductive Node
  /-- A scalar. -/
  | scalar (tag : Tag) (text : CodeText)
  /-- A sequence. -/
  | sequence (tag : Tag) (items : List Node)
  /-- A mapping, in the order of the text. -/
  | mapping (tag : Tag) (entries : List (Node × Node))
deriving Repr

namespace Node

/-- The scalar that stands where nothing is written. -/
def empty : Node := .scalar .null ⟨[]⟩

instance : Inhabited Node := ⟨empty⟩

/-! ## The state of a reader -/

/-- What is left to read, and the nodes with anchors. A node that is not complete yet has none. -/
structure Remainder where
  /-- The lexemes that are left. -/
  lexemes : List Lexeme
  /-- The nodes with anchors, by name. -/
  anchors : List (String × Option Node)

/-- A reader of nodes. -/
abbrev Reader := StateT Remainder (Except Fault)

/-- The next lexeme, which stays. -/
def peek : Reader Lexeme := do
  match (← get).lexemes with
  | .fault f :: _ => throw f
  | l :: _ => return l
  | [] => return .streamEnd

/-- Goes past the next lexeme. -/
def skip : Reader Unit := modify fun s ↦ { s with lexemes := s.lexemes.tail }

/-- A node that is read, or the empty scalar if the next lexeme is one that cannot begin it. -/
def unlessNext (stops : List Lexeme) (read : Reader Node) : Reader Node := do
  if stops.contains (← peek) then return empty else read

/-! ## Properties of a node -/

/-- What tag handles stand for. -/
abbrev Handles := List (String × String)

/-- The handles that need no directive. -/
def standardHandles : Handles := [("!", "!"), ("!!", Tag.namespaceUri)]

/-- The tag that is written for a node. -/
inductive GivenTag
  /-- None. -/
  | absent
  /-- The mark that the node has the tag of its form. -/
  | ofForm
  /-- A tag. -/
  | named (tag : Tag)
deriving DecidableEq

/-- The tag that a handle and the text after it name. -/
def givenTag (handles : Handles) (handle : Option String) (text : String) : Reader GivenTag := do
  let uri ← match handle with
    | none => pure text
    | some h =>
      match handles.lookup h with
      | some start => pure (start ++ text)
      | none => throw .malformed
  return if uri = "!" then .ofForm else .named (Tag.ofUri uri)

/-- The anchor and the tag before a node, in either order. -/
def readProperties (handles : Handles) : Reader (Option String × GivenTag) := do
  match ← peek with
  | .anchor name =>
    skip
    match ← peek with
    | .tag handle text =>
      skip
      return (some name, ← givenTag handles handle text)
    | _ => return (some name, .absent)
  | .tag handle text =>
    skip
    match ← peek with
    | .anchor name =>
      skip
      return (some name, ← givenTag handles handle text)
    | _ => return (none, ← givenTag handles handle text)
  | _ => return (none, .absent)

/-- The tag of a scalar. -/
def scalarTag (given : GivenTag) (plain : Bool) (text : CodeText) : Tag :=
  match given with
  | .absent => if plain then Tag.ofPlain text.characters else .str
  | .ofForm => Tag.ofPlain text.characters
  | .named tag => tag

/-- The tag of a collection whose form is `form`. -/
def collectionTag (given : GivenTag) (form : Tag) : Tag :=
  match given with
  | .named tag => tag
  | _ => form

/-- The node that an alias names. -/
def aliased (name : String) : Reader Node := do
  match (← get).anchors.lookup name with
  | some (some node) => return node
  | some none => throw .recursive
  | none => throw .malformed

/-- Reads a node that may have an anchor, which no other may have. -/
def withAnchor (name : Option String) (read : Reader Node) : Reader Node := do
  match name with
  | none => read
  | some name =>
    if ((← get).anchors.lookup name).isSome then throw .malformed
    modify fun s ↦ { s with anchors := (name, none) :: s.anchors }
    let node ← read
    modify fun s ↦ { s with anchors := (name, some node) :: s.anchors }
    return node

/-! ## Nodes -/

/-- A node of which only an anchor or a tag is written. -/
def emptyNode (anchor : Option String) (given : GivenTag) : Reader Node :=
  if anchor.isNone && given = .absent then throw .malformed
  else return .scalar (scalarTag given true ⟨[]⟩) ⟨[]⟩

/-- The value of an entry: empty without a colon. -/
def readAfterColon (stops : List Lexeme) (read : Reader Node) : Reader Node := do
  match ← peek with
  | .value =>
    skip
    unlessNext stops read
  | _ => return empty

/-- The comma between the parts of a flow collection. -/
def readComma : Reader Unit := do
  if (← peek) = .flowEntry then skip else throw .malformed

mutual

/-- A node. `block` says whether it may be a block collection, `indentless` whether it may be a sequence
whose hyphens are not indented. -/
def readNode (handles : Handles) (block indentless : Bool) : (fuel : Nat) → Reader Node
  | 0 => throw .malformed
  | fuel + 1 => do
    match ← peek with
    | .reference name =>
      skip
      aliased name
    | _ =>
      let (anchor, given) ← readProperties handles
      withAnchor anchor do
        match ← peek with
        | .entry =>
          if indentless then
            return .sequence (collectionTag given .seq) (← readIndentless handles fuel)
          else
            emptyNode anchor given
        | .scalar text plain =>
          skip
          return .scalar (scalarTag given plain text) text
        | .flowSequenceStart =>
          skip
          return .sequence (collectionTag given .seq) (← readFlowItems handles true fuel)
        | .flowMappingStart =>
          skip
          return .mapping (collectionTag given .map) (← readFlowEntries handles true fuel)
        | .sequenceStart =>
          if block then
            skip
            return .sequence (collectionTag given .seq) (← readItems handles fuel)
          else emptyNode anchor given
        | .mappingStart =>
          if block then
            skip
            return .mapping (collectionTag given .map) (← readEntries handles fuel)
          else emptyNode anchor given
        | _ => emptyNode anchor given

/-- The items of a block sequence, up to its end. -/
def readItems (handles : Handles) : (fuel : Nat) → Reader (List Node)
  | 0 => throw .malformed
  | fuel + 1 => do
    match ← peek with
    | .entry =>
      skip
      let item ← unlessNext [.entry, .blockEnd] (readNode handles true false fuel)
      return item :: (← readItems handles fuel)
    | .blockEnd =>
      skip
      return []
    | _ => throw .malformed

/-- The items of a sequence that is not indented. -/
def readIndentless (handles : Handles) : (fuel : Nat) → Reader (List Node)
  | 0 => throw .malformed
  | fuel + 1 => do
    match ← peek with
    | .entry =>
      skip
      let item ← unlessNext [.entry, .key, .value, .blockEnd] (readNode handles true false fuel)
      return item :: (← readIndentless handles fuel)
    | _ => return []

/-- The entries of a block mapping, up to its end. -/
def readEntries (handles : Handles) : (fuel : Nat) → Reader (List (Node × Node))
  | 0 => throw .malformed
  | fuel + 1 => do
    match ← peek with
    | .key =>
      skip
      let key ← unlessNext [.key, .value, .blockEnd] (readNode handles true true fuel)
      let value ← readAfterColon [.key, .value, .blockEnd] (readNode handles true true fuel)
      return (key, value) :: (← readEntries handles fuel)
    | .blockEnd =>
      skip
      return []
    | _ => throw .malformed

/-- The items of a flow sequence, up to its end. An entry of a mapping may stand for the mapping. -/
def readFlowItems (handles : Handles) (first : Bool) : (fuel : Nat) → Reader (List Node)
  | 0 => throw .malformed
  | fuel + 1 => do
    if (← peek) = .flowSequenceEnd then
      skip
      return []
    if !first then readComma
    match ← peek with
    | .flowSequenceEnd =>
      skip
      return []
    | .key =>
      skip
      let key ← unlessNext [.value, .flowEntry, .flowSequenceEnd] (readNode handles false false fuel)
      let value ← readAfterColon [.flowEntry, .flowSequenceEnd] (readNode handles false false fuel)
      return .mapping .map [(key, value)] :: (← readFlowItems handles false fuel)
    | _ =>
      let item ← readNode handles false false fuel
      return item :: (← readFlowItems handles false fuel)

/-- The entries of a flow mapping, up to its end. A key may stand without a value. -/
def readFlowEntries (handles : Handles) (first : Bool) : (fuel : Nat) → Reader (List (Node × Node))
  | 0 => throw .malformed
  | fuel + 1 => do
    if (← peek) = .flowMappingEnd then
      skip
      return []
    if !first then readComma
    match ← peek with
    | .flowMappingEnd =>
      skip
      return []
    | .key =>
      skip
      let key ← unlessNext [.value, .flowEntry, .flowMappingEnd] (readNode handles false false fuel)
      let value ← readAfterColon [.flowEntry, .flowMappingEnd] (readNode handles false false fuel)
      return (key, value) :: (← readFlowEntries handles false fuel)
    | _ =>
      let key ← readNode handles false false fuel
      return (key, empty) :: (← readFlowEntries handles false fuel)

end

/-! ## Documents -/

/-- The directives before a document, and what they say about tag handles. -/
def readDirectives (versioned : Bool) (handles : Handles) : (fuel : Nat) → Reader Handles
  | 0 => return handles
  | fuel + 1 => do
    match ← peek with
    | .directive d =>
      skip
      match d with
      | .version major =>
        if versioned || major != 1 then throw .malformed
        readDirectives true handles fuel
      | .handle name uri =>
        if (handles.lookup name).isSome then throw .malformed
        readDirectives versioned ((name, uri) :: handles) fuel
      | .other => readDirectives versioned handles fuel
    | _ => return handles

/-- A document: with directives and a start marker, or a node alone. -/
def readDocument (fuel : Nat) : Reader Node := do
  match ← peek with
  | .directive _ | .documentStart =>
    let handles ← readDirectives false [] fuel
    if (← peek) != .documentStart then throw .malformed
    skip
    match ← peek with
    | .directive _ | .documentStart | .documentEnd | .streamEnd => return empty
    | _ => readNode (handles ++ standardHandles) true false fuel
  | _ => readNode standardHandles true false fuel

/-- Goes past the markers of the document's end. -/
def skipEnds : (fuel : Nat) → Reader Unit
  | 0 => return
  | fuel + 1 => do
    if (← peek) = .documentEnd then
      skip
      skipEnds fuel

/-- The node of the only document, or nothing if there is none. -/
def readStream (fuel : Nat) : Reader (Option Node) := do
  if (← peek) = .streamEnd then return none
  let node ← readDocument fuel
  skipEnds fuel
  if (← peek) = .streamEnd then return some node else throw .malformed

/-- The node of the only document that some lexemes are. -/
def ofLexemes (lexemes : List Lexeme) : Except Fault (Option Node) :=
  let fuel := 4 * lexemes.length + 16
  (readStream fuel ⟨lexemes, []⟩).map Prod.fst

end Node

end NoteQuery.Yaml
