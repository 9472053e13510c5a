import NoteQuery.Yaml.Text

/-!
# Lexemes of a YAML text

A text is cut into lexemes in which indentation is explicit: a block collection is opened by a lexeme of
its own and closed by another where the indentation ends.

That a node is a key is known only at the colon after it, where lexemes have been read that belong to
it. So a reader remembers, for each flow collection it is in, the lexeme at which a key may have begun;
at the colon that lexeme is marked, and the marks are put in front of their lexemes when all are read.
No lexeme once read is changed. A key has to end in its line, within 1024 characters.

A fault of the text is the last lexeme: what stands before it may be at fault earlier.
-/

namespace NoteQuery.Yaml

/-- A lexeme. -/
inductive Lexeme
  /-- The end of the text. -/
  | streamEnd
  /-- A fault, behind which nothing can be read. -/
  | fault (f : Fault)
  /-- A directive. -/
  | directive (d : Directive)
  /-- The start of a document. -/
  | documentStart
  /-- The end of a document. -/
  | documentEnd
  /-- The start of a block sequence. -/
  | sequenceStart
  /-- The start of a block mapping. -/
  | mappingStart
  /-- The end of a block collection. -/
  | blockEnd
  /-- An opening square bracket. -/
  | flowSequenceStart
  /-- A closing square bracket. -/
  | flowSequenceEnd
  /-- An opening brace. -/
  | flowMappingStart
  /-- A closing brace. -/
  | flowMappingEnd
  /-- The hyphen before an item of a block sequence. -/
  | entry
  /-- A comma. -/
  | flowEntry
  /-- The start of a key. -/
  | key
  /-- The colon before a value. -/
  | value
  /-- A reference to a node. -/
  | reference (name : String)
  /-- The name of the node that follows. -/
  | anchor (name : String)
  /-- The tag of the node that follows: a handle, if it has one, and the rest. -/
  | tag (handle : Option String) (text : String)
  /-- A scalar, and whether it is plain. -/
  | scalar (text : CodeText) (plain : Bool)
deriving Repr, DecidableEq

namespace Lexeme

/-! ## The state of a reader -/

/-- A lexeme at which a key may have begun. -/
structure Candidate where
  /-- The number of lexemes before it. -/
  number : Nat
  /-- Whether nothing else than a key can stand there. -/
  required : Bool
  /-- The number of characters before it. -/
  index : Nat
  /-- Its line. -/
  line : Nat
  /-- Its column. -/
  column : Nat

/-- A lexeme that begins a key. -/
structure KeyMark where
  /-- The number of lexemes before it. -/
  number : Nat
  /-- Whether a block mapping begins with the key. -/
  opens : Bool

/-- The state of a reader between two lexemes. -/
structure Reading where
  /-- Where it stands. -/
  place : Place
  /-- The number of lexemes read. -/
  count : Nat
  /-- Where a key of the innermost collection may have begun. -/
  candidate : Option Candidate
  /-- The same for the collections around the flow collections that are open. -/
  outer : List (Option Candidate)
  /-- The column of the innermost block collection. -/
  indent : Int
  /-- The columns of the block collections around it. -/
  outerIndents : List Int
  /-- Whether a key may begin here. -/
  keyAllowed : Bool

/-- What one step reads. -/
structure Step where
  /-- The lexemes. -/
  lexemes : List Lexeme
  /-- The lexeme that turned out to begin a key. -/
  mark : Option KeyMark
  /-- The state after the step, unless the text has ended. -/
  next : Option Reading

namespace Reading

/-- The state before a text. -/
def start (cs : List Char) : Reading := ⟨.start cs, 0, none, [], -1, [], true⟩

/-- Whether the place is inside a flow collection. -/
def inFlow (r : Reading) : Bool := !r.outer.isEmpty

/-! ## Places between lexemes -/

/-- The place of the next lexeme, past spaces, comments and line ends, and whether a line has ended. -/
def nextPlace (p : Place) (ended : Bool) : (fuel : Nat) → Place × Bool
  | 0 => (p, ended)
  | fuel + 1 =>
    match p.skipComment.takeBreak? with
    | some (_, q) => nextPlace q true fuel
    | none => (p.skipComment, ended)

/-- What remains of a candidate at a place: nothing behind its line or too far away. -/
def remaining (p : Place) : Option Candidate → Except Fault (Option Candidate)
  | none => .ok none
  | some c =>
    if c.line == p.line && p.index - c.index ≤ 1024 then .ok (some c)
    else if c.required then .error .malformed else .ok none

/-- Takes back the block collections that are indented more than a column, and counts them. -/
def unwindFrom (column indent : Int) : List Int → Nat × Int × List Int
  | [] => (0, indent, [])
  | outer :: rest =>
    if column < indent then
      let (n, indent, indents) := unwindFrom column outer rest
      (n + 1, indent, indents)
    else (0, indent, outer :: rest)

/-- Closes the block collections that are indented more than a column. In a flow collection the
indentation says nothing. -/
def unwind (r : Reading) (column : Int) : List Lexeme × Reading :=
  if r.inFlow then ([], r)
  else
    let (n, indent, indents) := unwindFrom column r.indent r.outerIndents
    (List.replicate n blockEnd,
      { r with indent := indent, outerIndents := indents, count := r.count + n })

/-- The state at the next lexeme, and the ends of the collections before it. -/
def advance (r : Reading) : Except Fault (List Lexeme × Reading) := do
  let p := if r.place.index == 0 && r.place.peek == some '\uFEFF' then r.place.step else r.place
  let (p, ended) := nextPlace p false (p.rest.length + 1)
  let candidate ← remaining p r.candidate
  let outer ← r.outer.mapM (remaining p)
  let r : Reading := { r with
    place := p
    candidate := candidate
    outer := outer
    keyAllowed := r.keyAllowed || (ended && !r.inFlow) }
  return r.unwind p.column

/-! ## Keys and indentation -/

/-- Gives up the candidate. -/
def dropCandidate (r : Reading) : Except Fault Reading :=
  if r.candidate.any (·.required) then .error .malformed else .ok { r with candidate := none }

/-- Remembers that a key may begin here, if one may. -/
def saveCandidate (r : Reading) : Except Fault Reading :=
  if r.keyAllowed then
    (dropCandidate r).map fun r ↦
      { r with candidate := some {
          number := r.count
          required := !r.inFlow && r.indent == r.place.column
          index := r.place.index
          line := r.place.line
          column := r.place.column } }
  else .ok r

/-- Opens a block collection at a column, unless one is open there. -/
def indentTo (r : Reading) (column : Nat) (opening : Lexeme) : List Lexeme × Reading :=
  if !r.inFlow && r.indent < column then
    ([opening], { r with indent := column, outerIndents := r.indent :: r.outerIndents })
  else ([], r)

/-- A step that reads one lexeme up to a place. -/
def emit (r : Reading) (lexemes : List Lexeme) (q : Place) (keyAllowed : Bool) : Step :=
  ⟨lexemes, none, some { r with place := q, keyAllowed := keyAllowed }⟩

/-! ## The kinds of lexemes -/

/-- The end of the text. -/
def readEnd (r : Reading) : Except Fault Step := do
  let (ends, r) := r.unwind (-1)
  let _ ← r.dropCandidate
  return ⟨ends ++ [streamEnd], none, none⟩

/-- A directive. -/
def readDirectiveLine (r : Reading) : Except Fault Step := do
  let (ends, r) := r.unwind (-1)
  let r ← r.dropCandidate
  let (d, q) ← readDirective r.place.step
  return r.emit (ends ++ [directive d]) q false

/-- The start or the end of a document. -/
def readDocumentMarker (r : Reading) (marker : Lexeme) : Except Fault Step := do
  let (ends, r) := r.unwind (-1)
  let r ← r.dropCandidate
  return r.emit (ends ++ [marker]) (r.place.skip 3) false

/-- The start of a flow collection. -/
def readFlowStart (r : Reading) (opening : Lexeme) : Except Fault Step := do
  let r ← r.saveCandidate
  return { r with candidate := none, outer := r.candidate :: r.outer }.emit [opening] r.place.step true

/-- The end of a flow collection. -/
def readFlowEnd (r : Reading) (closing : Lexeme) : Except Fault Step := do
  let r ← r.dropCandidate
  match r.outer with
  | candidate :: outer =>
    return { r with candidate := candidate, outer := outer }.emit [closing] r.place.step false
  | [] => throw .malformed

/-- A comma. -/
def readFlowEntry (r : Reading) : Except Fault Step := do
  let r ← r.dropCandidate
  return r.emit [flowEntry] r.place.step true

/-- The hyphen before an item. -/
def readEntry (r : Reading) : Except Fault Step := do
  if !r.inFlow && !r.keyAllowed then throw .malformed
  let (start, r) := r.indentTo r.place.column sequenceStart
  let r ← r.dropCandidate
  return r.emit (start ++ [entry]) r.place.step true

/-- The question mark before a key. -/
def readKey (r : Reading) : Except Fault Step := do
  if !r.inFlow && !r.keyAllowed then throw .malformed
  let (start, r) := r.indentTo r.place.column mappingStart
  let r ← r.dropCandidate
  return r.emit (start ++ [key]) r.place.step (!r.inFlow)

/-- The colon before a value. What stands before it in the line is its key, if it can be one. -/
def readValue (r : Reading) : Except Fault Step :=
  match r.candidate with
  | some c =>
    let (start, r) := r.indentTo c.column mappingStart
    let step := { r with candidate := none }.emit [value] r.place.step false
    .ok { step with mark := some ⟨c.number, !start.isEmpty⟩ }
  | none =>
    if !r.inFlow && !r.keyAllowed then .error .malformed
    else
      let (start, r) := r.indentTo r.place.column mappingStart
      .ok (r.emit (start ++ [value]) r.place.step (!r.inFlow))

/-- An alias, an anchor or a tag. -/
def readProperty (r : Reading) (read : Place → Except Fault (Lexeme × Place)) : Except Fault Step := do
  let r ← r.saveCandidate
  let (l, q) ← read r.place
  return r.emit [l] q false

/-- A quoted scalar. -/
def readQuoted (r : Reading) (double : Bool) : Except Fault Step := do
  let r ← r.saveCandidate
  let (codes, q) ← readQuotedScalar double r.place.step (r.place.rest.length + 1)
  return r.emit [scalar ⟨codes⟩ false] q false

/-- A block scalar. -/
def readBlockScalar (r : Reading) (folded : Bool) : Except Fault Step := do
  let r ← r.dropCandidate
  let (text, q) ← readBlock folded r.indent r.place.step
  return r.emit [scalar (.ofChars text) false] q true

/-- A plain scalar. -/
def readPlainScalar (r : Reading) : Except Fault Step := do
  let r ← r.saveCandidate
  let (text, atLineStart, q) :=
    readPlain r.inFlow (r.indent + 1) r.place [] false (r.place.rest.length + 1)
  return r.emit [scalar (.ofChars text) true] q atLineStart

/-- Whether a plain scalar can begin with a character, given what follows it. -/
def beginsPlain (flow : Bool) (c : Char) (rest : List Char) : Bool :=
  !(isGap c || "-?:,[]\x7b\x7d#&*!|>'\"%@\u0060".toList.contains c) ||
    (!gapAt rest && (c == '-' || (!flow && (c == '?' || c == ':'))))

/-! ## All lexemes -/

/-- The lexemes at a place where no gap and no comment stands. -/
def step (r : Reading) : Except Fault Step :=
  match r.place.rest with
  | [] => r.readEnd
  | c :: rest =>
    let atStart := r.place.column == 0
    let gapFollows := gapAt rest
    if c == '%' && atStart then r.readDirectiveLine
    else if atStart && r.place.atDocumentMarker then
      r.readDocumentMarker (if c == '-' then documentStart else documentEnd)
    else if c == '[' then r.readFlowStart flowSequenceStart
    else if c == '\x7b' then r.readFlowStart flowMappingStart
    else if c == ']' then r.readFlowEnd flowSequenceEnd
    else if c == '\x7d' then r.readFlowEnd flowMappingEnd
    else if c == ',' then r.readFlowEntry
    else if c == '-' && gapFollows then r.readEntry
    else if c == '?' && (r.inFlow || gapFollows) then r.readKey
    else if c == ':' && (r.inFlow || gapFollows) then r.readValue
    else if c == '*' then r.readProperty fun p ↦ (readName p.step).map fun (name, q) ↦ (reference name, q)
    else if c == '&' then r.readProperty fun p ↦ (readName p.step).map fun (name, q) ↦ (anchor name, q)
    else if c == '!' then
      r.readProperty fun p ↦ (readTag p).map fun ((handle, text), q) ↦ (tag handle text, q)
    else if c == '|' && !r.inFlow then r.readBlockScalar false
    else if c == '>' && !r.inFlow then r.readBlockScalar true
    else if c == '\'' then r.readQuoted false
    else if c == '"' then r.readQuoted true
    else if beginsPlain r.inFlow c rest then r.readPlainScalar
    else .error .malformed

/-- The lexemes from a place on, and the marks of the keys among them. -/
def run (r : Reading) : (fuel : Nat) → List Lexeme × List KeyMark
  | 0 => ([fault .malformed], [])
  | fuel + 1 =>
    match r.advance with
    | .error f => ([fault f], [])
    | .ok (ends, r) =>
      match r.step with
      | .error f => (ends ++ [fault f], [])
      | .ok step =>
        let (more, marks) := match step.next with
          | some next => run { next with count := r.count + step.lexemes.length } fuel
          | none => ([], [])
        (ends ++ step.lexemes ++ more, step.mark.toList ++ marks)

end Reading

/-- The marks of a key in front of the lexeme that begins it. -/
def marked (marks : List KeyMark) (l : Lexeme) (number : Nat) : List Lexeme :=
  match marks.find? (·.number == number) with
  | some m => if m.opens then [mappingStart, key, l] else [key, l]
  | none => [l]

/-- The lexemes of a text. -/
def ofText (cs : List Char) : List Lexeme :=
  if cs.all isReadable then
    let (lexemes, marks) := (Reading.start cs).run (cs.length + 2)
    lexemes.zipIdx.flatMap fun (l, number) ↦ marked marks l number
  else [fault .malformed]

end Lexeme

end NoteQuery.Yaml
