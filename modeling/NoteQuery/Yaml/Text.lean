import NoteQuery.Text.CodePoint
import NoteQuery.Text.Utf8
import NoteQuery.Yaml.Fault
import NoteQuery.Yaml.Place

/-!
# Scalars in a YAML text

A scalar is written plain, in single or double quotes, or as an indented block that keeps or folds its
lines. Between lines of the first three a single break is a space and further breaks stand for
themselves; a block is ended by a line that is less indented. In double quotes a code point may be written by
its code, and that may be the code of half a character. Names, tags and directives are read here too.
-/

namespace NoteQuery.Yaml

open Place

/-! ## Names and tags -/

/-- The name of an anchor or an alias, after its sign. -/
def readName (p : Place) : Except Fault (String × Place) :=
  let (name, q) := p.span isNameChar
  let closed := gapAt q.rest || q.peek.any fun c ↦ "?:,]\x7d%@\u0060".toList.contains c
  if name.isEmpty || !closed then .error .malformed else .ok (String.ofList name, q)

/-- Whether a character may stand in a tag. -/
def isTagChar (c : Char) : Bool := c.isAlphanum || "-;/?:@&=+$,_.!~*'()[]".toList.contains c

/-- The bytes written as percent signs with two digits, and the place after them. -/
def readEscapedBytes (p : Place) : (fuel : Nat) → Except Fault (List UInt8 × Place)
  | 0 => .ok ([], p)
  | fuel + 1 =>
    match p.rest with
    | '%' :: a :: b :: _ =>
      match hex? a, hex? b with
      | some x, some y => do
        let (bytes, q) ← readEscapedBytes (p.skip 3) fuel
        return ((x * 16 + y).toUInt8 :: bytes, q)
      | _, _ => .error .malformed
    | '%' :: _ => .error .malformed
    | _ => .ok ([], p)
where
  /-- The value of a digit in base sixteen. -/
  hex? (c : Char) : Option Nat :=
    if c.isDigit then some (c.toNat - 48)
    else if 'a' ≤ c && c ≤ 'f' then some (c.toNat - 87)
    else if 'A' ≤ c && c ≤ 'F' then some (c.toNat - 55) else none

/-- The characters of a tag, which may be written by their bytes. -/
def readTagText (p : Place) : (fuel : Nat) → Except Fault (List Char × Place)
  | 0 => .ok ([], p)
  | fuel + 1 =>
    let (run, q) := p.span isTagChar
    if q.peek == some '%' then do
      let (bytes, q) ← readEscapedBytes q fuel
      let chars := Text.decodeUtf8From none bytes
      if chars.contains '\uFFFD' then throw .malformed
      let (more, q) ← readTagText q fuel
      return (run ++ chars ++ more, q)
    else .ok (run, q)

/-- A tag or the start of tags, which may not be empty. -/
def readUri (p : Place) : Except Fault (String × Place) := do
  let (text, q) ← readTagText p (p.rest.length + 1)
  if text.isEmpty then throw .malformed
  return (String.ofList text, q)

/-- A tag handle: an exclamation mark, a name and, unless a space follows the first mark, a second
mark. -/
def readHandle (p : Place) : Except Fault (String × Place) :=
  match p.rest with
  | '!' :: ' ' :: _ => .ok ("!", p.step)
  | '!' :: _ =>
    let (name, q) := p.step.span isNameChar
    if q.peek == some '!' then .ok (String.ofList ('!' :: name ++ ['!']), q.step) else .error .malformed
  | _ => .error .malformed

/-- A tag as it is written: the handle, if it has one, and the rest. -/
def readTag (p : Place) : Except Fault ((Option String × String) × Place) := do
  let (tag, q) ← match p.rest.tail with
    | '<' :: _ => do
      let (uri, q) ← readUri (p.skip 2)
      if q.peek != some '>' then throw .malformed
      pure ((none, uri), q.step)
    | next =>
      if gapAt next then pure ((none, "!"), p.step)
      else if (next.takeWhile fun c ↦ !(c == ' ' || isBreak c)).contains '!' then do
        let (handle, q) ← readHandle p
        let (uri, q) ← readUri q
        pure ((some handle, uri), q)
      else do
        let (uri, q) ← readUri p.step
        pure ((some "!", uri), q)
  if !spaceAt q.rest then throw .malformed
  return (tag, q)

/-! ## Directives -/

/-- A directive. -/
inductive Directive
  /-- The major version of the language. -/
  | version (major : Nat)
  /-- A tag handle and what it stands for. -/
  | handle (name uri : String)
  /-- Any other. -/
  | other
deriving Repr, DecidableEq

/-- The number that decimal digits write. -/
def decimal (digits : List Char) : Nat := digits.foldl (fun n c ↦ n * 10 + (c.toNat - 48)) 0

/-- The version of the language. -/
def readVersion (p : Place) : Except Fault (Directive × Place) := do
  let (major, q) := (p.skipWhile (· == ' ')).span Char.isDigit
  if major.isEmpty || q.peek != some '.' then throw .malformed
  let (minor, q) := q.step.span Char.isDigit
  if minor.isEmpty || !spaceAt q.rest then throw .malformed
  return (.version (decimal major), q)

/-- A tag handle and what it stands for. -/
def readHandleDirective (p : Place) : Except Fault (Directive × Place) := do
  let (handle, q) ← readHandle (p.skipWhile (· == ' '))
  if q.peek != some ' ' then throw .malformed
  let (uri, q) ← readUri (q.skipWhile (· == ' '))
  if !spaceAt q.rest then throw .malformed
  return (.handle handle uri, q)

/-- A directive after its percent sign, and the place after its line. -/
def readDirective (p : Place) : Except Fault (Directive × Place) := do
  let (name, q) := p.span isNameChar
  if name.isEmpty || !spaceAt q.rest then throw .malformed
  let (directive, q) ←
    if String.ofList name = "YAML" then readVersion q
    else if String.ofList name = "TAG" then readHandleDirective q
    else pure (.other, q.skipWhile (!isBreak ·))
  match q.skipLine? with
  | some q => return (directive, q)
  | none => throw .malformed

/-! ## Plain scalars -/

/-- Whether a character ends a plain scalar, given what follows it. Inside flow collections their signs
do too, and a colon before one of them. -/
def endsPlain (flow : Bool) (c : Char) (rest : List Char) : Bool :=
  isGap c ||
  (c == ':' && (gapAt rest || (flow && rest.head?.any fun d ↦ ",[]\x7b\x7d".toList.contains d))) ||
  (flow && ",?[]\x7b\x7d".toList.contains c)

/-- A run of a plain scalar within a line. -/
def plainRun (flow : Bool) : List Char → List Char
  | [] => []
  | c :: rest => if endsPlain flow c rest then [] else c :: plainRun flow rest

/-- The line breaks from a place on, spaces between them skipped. None if a document marker follows
one. -/
def plainBreaks (p : Place) : (fuel : Nat) → Option (List Char) × Place
  | 0 => (some [], p)
  | fuel + 1 =>
    if p.peek == some ' ' then plainBreaks p.step fuel
    else
      match p.takeBreak? with
      | none => (some [], p)
      | some (b, q) =>
        if q.atDocumentMarker then (none, q)
        else
          let (more, q) := plainBreaks q fuel
          (more.map (b :: ·), q)

/-- What line breaks inside a scalar read as: one alone is a space, further ones stand for themselves. -/
def foldBreaks (first : Char) (more : List Char) : List Char :=
  if first != '\n' then first :: more else if more.isEmpty then [' '] else more

/-- What separates two runs of a plain scalar, and whether it holds a line break. Nothing ends the
scalar. -/
def plainGap (p : Place) : List Char × Bool × Place :=
  let (spaces, q) := p.span (· == ' ')
  match q.takeBreak? with
  | none => (spaces, false, q)
  | some (b, q) =>
    if q.atDocumentMarker then ([], true, q)
    else
      match plainBreaks q (q.rest.length + 1) with
      | (some more, q) => (foldBreaks b more, true, q)
      | (none, q) => ([], true, q)

/-- A plain scalar. `indent` is the least column of its further lines. Also says whether the place after
it is at the start of a line, where a key may begin. -/
def readPlain (flow : Bool) (indent : Int) (p : Place) (gap : List Char) (atLineStart : Bool) :
    (fuel : Nat) → List Char × Bool × Place
  | 0 => ([], atLineStart, p)
  | fuel + 1 =>
    let run := if p.peek == some '#' then [] else plainRun flow p.rest
    if run.isEmpty then ([], atLineStart, p)
    else
      let (next, broken, q) := plainGap (p.skip run.length)
      if next.isEmpty || q.peek == some '#' || (!flow && (q.column : Int) < indent) then
        (gap ++ run, broken, q)
      else
        let (more, broken, q) := readPlain flow indent q next broken fuel
        (gap ++ run ++ more, broken, q)

/-! ## Quoted scalars -/

/-- The character that an escape letter stands for. -/
def escape? : Char → Option Char
  | '0' => some '\x00'
  | 'a' => some '\x07'
  | 'b' => some '\x08'
  | 't' => some '\t'
  | '\t' => some '\t'
  | 'n' => some '\n'
  | 'v' => some '\x0b'
  | 'f' => some '\x0c'
  | 'r' => some '\r'
  | 'e' => some '\x1b'
  | ' ' => some ' '
  | '"' => some '"'
  | '\\' => some '\\'
  | '/' => some '/'
  | 'N' => some '\x85'
  | '_' => some '\xa0'
  | 'L' => some '\u2028'
  | 'P' => some '\u2029'
  | _ => none

/-- How many digits follow an escape letter. -/
def escapeDigits? : Char → Option Nat
  | 'x' => some 2
  | 'u' => some 4
  | 'U' => some 8
  | _ => none

/-- The line breaks from a place on, spaces and tabs between them skipped. A document marker at the start
of a line is a fault. -/
def quotedBreaks (p : Place) : (fuel : Nat) → Except Fault (List Char × Place)
  | 0 => .ok ([], p)
  | fuel + 1 =>
    if p.atDocumentMarker then .error .malformed
    else
      let q := p.skipWhile fun c ↦ c == ' ' || c == '\t'
      match q.takeBreak? with
      | some (b, q) => do
        let (more, q) ← quotedBreaks q fuel
        return (b :: more, q)
      | none => .ok ([], q)

/-- A code point written by the digits of its code. -/
def readCode (n : Nat) (p : Place) : Except Fault (CodePoint × Place) := do
  let digits := (p.rest.take n).filterMap readEscapedBytes.hex?
  if digits.length < n then throw .malformed
  let code := digits.foldl (fun m d ↦ m * 16 + d) 0
  if 0x10FFFF < code then throw (.code code)
  return (.ofCode code, p.skip n)

/-- Whether a character ends a run inside quotes. -/
def endsQuotedRun (c : Char) : Bool := c == '\'' || c == '"' || c == '\\' || isGap c

/-- A quoted scalar after its opening quote, and the place after the closing one. -/
def readQuotedScalar (double : Bool) (p : Place) : (fuel : Nat) → Except Fault (List CodePoint × Place)
  | 0 => .error .malformed
  | fuel + 1 =>
    match p.rest with
    | [] => .error .malformed
    | c :: rest =>
      if !endsQuotedRun c then do
        let (run, q) := p.span (!endsQuotedRun ·)
        let (more, q) ← readQuotedScalar double q fuel
        return (run.map .char ++ more, q)
      else if isGap c then do
        let (spaces, q) := p.span fun c ↦ c == ' ' || c == '\t'
        match q.takeBreak? with
        | some (b, q) =>
          let (breaks, q) ← quotedBreaks q (q.rest.length + 1)
          let (more, q) ← readQuotedScalar double q fuel
          return ((foldBreaks b breaks).map .char ++ more, q)
        | none =>
          let (more, q) ← readQuotedScalar double q fuel
          return (spaces.map .char ++ more, q)
      else if !double then
        if c == '\'' then
          if rest.head? == some '\'' then do
            let (more, q) ← readQuotedScalar double (p.skip 2) fuel
            return ('\'' :: more, q)
          else .ok ([], p.step)
        else do
          let (more, q) ← readQuotedScalar double p.step fuel
          return (c :: more, q)
      else if c == '"' then .ok ([], p.step)
      else if c == '\'' then do
        let (more, q) ← readQuotedScalar double p.step fuel
        return (c :: more, q)
      else
        match rest with
        | [] => .error .malformed
        | e :: _ =>
          match escape? e, escapeDigits? e with
          | some x, _ => do
            let (more, q) ← readQuotedScalar double (p.skip 2) fuel
            return (x :: more, q)
          | none, some n => do
            let (x, q) ← readCode n (p.skip 2)
            let (more, q) ← readQuotedScalar double q fuel
            return (x :: more, q)
          | none, none =>
            if isBreak e then do
              let (breaks, q) ← quotedBreaks p.step.skipBreak (p.rest.length + 1)
              let (more, q) ← readQuotedScalar double q fuel
              return (breaks.map .char ++ more, q)
            else .error .malformed

/-! ## Block scalars -/

/-- What becomes of the line breaks at the end of a block. -/
inductive Chomp
  /-- All are dropped. -/
  | strip
  /-- One is kept. -/
  | clip
  /-- All are kept. -/
  | keep
deriving DecidableEq

/-- What a sign says about the end of a block. -/
def chomp? : Option Char → Option Chomp
  | some '+' => some .keep
  | some '-' => some .strip
  | _ => none

/-- The signs after the one that opens a block: what becomes of its end, and its indentation relative to
the context, in either order. -/
def readBlockSigns (p : Place) : Except Fault (Chomp × Option Nat × Place) := do
  let digit? (c : Option Char) : Option Nat := (c.filter Char.isDigit).map fun d ↦ d.toNat - 48
  let (chomp, increment, q) := match chomp? p.peek with
    | some chomp =>
      match digit? p.step.peek with
      | some n => (chomp, some n, p.skip 2)
      | none => (chomp, none, p.step)
    | none =>
      match digit? p.peek with
      | some n =>
        match chomp? p.step.peek with
        | some chomp => (chomp, some n, p.skip 2)
        | none => (Chomp.clip, some n, p.step)
      | none => (Chomp.clip, none, p)
  if increment == some 0 || !spaceAt q.rest then throw .malformed
  return (chomp, increment, q)

/-- The place after spaces, up to a column. -/
def skipIndent (indent : Nat) (p : Place) : (fuel : Nat) → Place
  | 0 => p
  | fuel + 1 => if p.column < indent && p.peek == some ' ' then skipIndent indent p.step fuel else p

/-- The breaks of the empty lines from a place on, and the place where the next line has its
indentation. -/
def blockBreaks (indent : Nat) (p : Place) : (fuel : Nat) → List Char × Place
  | 0 => ([], p)
  | fuel + 1 =>
    let q := skipIndent indent p indent
    match q.takeBreak? with
    | some (b, q) =>
      let (more, q) := blockBreaks indent q fuel
      (b :: more, q)
    | none => ([], q)

/-- The breaks of the empty lines at the start of a block, with the greatest column of a space in them or
before the first line that is not empty. -/
def blockStart (widest : Nat) (p : Place) : (fuel : Nat) → List Char × Nat × Place
  | 0 => ([], widest, p)
  | fuel + 1 =>
    if p.peek == some ' ' then blockStart (max widest p.step.column) p.step fuel
    else
      match p.takeBreak? with
      | some (b, q) =>
        let (more, widest, q) := blockStart widest q fuel
        (b :: more, widest, q)
      | none => ([], widest, p)

/-- Whether a line of a block starts with neither a space nor a tab. -/
def isFlush (p : Place) : Bool := !(p.peek == some ' ' || p.peek == some '\t')

/-- The lines of a block from one with its indentation on. `breaks` are those of the empty lines before
it. Gives the text up to the last line, the break of that line, and the breaks after it. -/
def blockLines (folded : Bool) (indent : Nat) (breaks : List Char) (p : Place) :
    (fuel : Nat) → List Char × List Char × List Char × Place
  | 0 => ([], [], [], p)
  | fuel + 1 =>
    if p.column == indent && !p.rest.isEmpty then
      let (line, q) := p.span (!isBreak ·)
      let (last, q) := match q.takeBreak? with
        | some (b, q) => ([b], q)
        | none => ([], q)
      let (next, q) := blockBreaks indent q (q.rest.length + 1)
      if q.column == indent && !q.rest.isEmpty then
        let joint :=
          if folded && last == ['\n'] && isFlush p && isFlush q then (if next.isEmpty then [' '] else [])
          else last
        let (more, last, tail, q) := blockLines folded indent next q fuel
        (breaks ++ line ++ joint ++ more, last, tail, q)
      else (breaks ++ line, last, next, q)
    else ([], [], breaks, p)

/-- A block scalar after the sign that opens it. `context` is the indentation of what it stands in. -/
def readBlock (folded : Bool) (context : Int) (p : Place) : Except Fault (List Char × Place) := do
  let (chomp, increment, q) ← readBlockSigns p
  let some q := q.skipLine? | throw .malformed
  let least := (max (context + 1) 1).toNat
  let size := q.rest.length + 1
  let (breaks, indent, q) := match increment with
    | some n =>
      let indent := least + n - 1
      let (breaks, q) := blockBreaks indent q size
      (breaks, indent, q)
    | none =>
      let (breaks, widest, q) := blockStart 0 q size
      (breaks, max least widest, q)
  let (text, last, tail, q) := blockLines folded indent breaks q size
  let ending := match chomp with
    | .strip => []
    | .clip => last
    | .keep => last ++ tail
  return (text ++ ending, q)

end NoteQuery.Yaml
