import NoteQuery.Number.Reading
import NoteQuery.Pattern.Basic
import NoteQuery.Text.CharClass

/-!
# Reading a pattern

The text of a pattern is cut into pieces, a backslash with the character after it being one, and the
pieces are read from left to right. What has been read is kept in a state: the groups opened so far with
the widths of those that are closed, their names, the options turned on for the whole pattern, and the
numbers that conditions ask for, which may name groups that come later.

Most faults only make a pattern malformed. Three are of another kind and are told apart: a repetition
count beyond what can be counted or written out too long, and options that exclude each other.
-/

namespace NoteQuery

/-- Why a text is no pattern. -/
inductive PatternFault
  /-- It is malformed. -/
  | malformed
  /-- An option letter is given twice. -/
  | repeatedFlag
  /-- A repetition count is too large. -/
  | repetition
  /-- A repetition count is written with so many digits that it is not read. -/
  | digits (count : Nat)
  /-- The options for ASCII and for Unicode classes are both on. -/
  | flagClash
deriving Repr, DecidableEq

namespace Pattern

/-! ## Pieces -/

/-- A piece of the text of a pattern. -/
inductive Piece
  /-- A character. -/
  | plain (c : Char)
  /-- A backslash and the character after it. -/
  | escaped (c : Char)
  /-- A backslash with nothing after it. -/
  | broken
deriving Repr, DecidableEq

/-- The pieces of a text. -/
def pieces : List Char → List Piece
  | [] => []
  | '\\' :: c :: rest => .escaped c :: pieces rest
  | c :: rest => if c = '\\' then [.broken] else .plain c :: pieces rest

/-- The characters of a piece. -/
def Piece.chars : Piece → List Char
  | plain c => [c]
  | escaped c => ['\\', c]
  | broken => ['\\']

/-! ## The state of reading -/

/-- What has been read of a pattern. -/
structure Reading where
  /-- The pieces left. -/
  rest : List Piece
  /-- The width of every group opened so far, first group first; none while it is open. -/
  groups : List (Option Width)
  /-- The named groups. -/
  names : List (List Char × Nat)
  /-- The options turned on for the whole pattern. -/
  flags : PatternFlags
  /-- Inside an assertion that looks back, the number of the first group opened in it. -/
  behindFrom : Option Nat
  /-- The group numbers that conditions ask for. -/
  asked : List Nat

/-- A step of reading. -/
abbrev Reader := StateT Reading (Except PatternFault)

namespace Reader

/-- The text is no pattern. -/
def malformed {α : Type} : Reader α := throw .malformed

/-- Goes on with other pieces. A backslash with nothing after it is a fault as soon as it is next. -/
def goTo (rest : List Piece) : Reader Unit := do
  if rest.head? = some .broken then malformed
  modify fun s ↦ { s with rest }

/-- The next piece. -/
def peek : Reader (Option Piece) := return (← get).rest.head?

/-- Takes the next piece. -/
def next : Reader (Option Piece) := do
  let s ← get
  goTo s.rest.tail
  return s.rest.head?

/-- Takes the next piece if it is a given character. -/
def accept (c : Char) : Reader Bool := do
  if (← get).rest.head? = some (.plain c) then
    let _ ← next
    return true
  else return false

/-- Takes the next piece, which has to be a given character. -/
def expect (c : Char) : Reader Unit := do
  unless ← accept c do malformed

/-- Takes up to `n` characters of a class. -/
def upTo : (n : Nat) → (Char → Bool) → Reader (List Char)
  | 0, _ => return []
  | n + 1, cls => do
    match ← peek with
    | some (.plain c) =>
      if cls c then
        let _ ← next
        return c :: (← upTo n cls)
      else return []
    | _ => return []

/-- Takes characters of a class as long as there are any. -/
def span (cls : Char → Bool) : Reader (List Char) := do
  let size := (← get).rest.length
  upTo size cls

/-- The characters before the first piece that is a given character, and the pieces after it. -/
def before (stop : Char) : List Piece → Option (List Char × List Piece)
  | [] => none
  | p :: rest =>
    if p = .plain stop then some ([], rest)
    else (before stop rest).map fun (cs, after) ↦ (p.chars ++ cs, after)

/-- Takes a name up to the character that ends it. -/
def name (stop : Char) : Reader (List Char) := do
  match before stop (← get).rest with
  | some (c :: cs, after) => goTo after; return c :: cs
  | _ => malformed

end Reader

open Reader

/-! ## Groups -/

/-- The number the next group has. -/
def Reading.nextGroup (s : Reading) : Nat := s.groups.length + 1

/-- The width of a closed group. -/
def Reading.closedWidth? (s : Reading) (number : Nat) : Option Width :=
  if number = 0 then none else (s.groups[number - 1]?).join

/-- The widths of groups, as the width of a pattern needs them. -/
def Reading.widthOf (s : Reading) (number : Nat) : Width := (s.closedWidth? number).getD ⟨0, 0⟩

/-- A reference to a group has to be to one that is closed and, inside an assertion that looks back, was
opened before it. -/
def checkReference (number : Nat) : Reader Unit := do
  let s ← get
  match s.behindFrom with
  | none => return
  | some first => if (s.closedWidth? number).isNone || first ≤ number then malformed

/-- The number of a group with a given name. -/
def groupNamed (name : List Char) : Reader Nat := do
  match (← get).names.lookup name with
  | some n => return n
  | none => malformed

/-- Opens a group and gives its number. -/
def openGroup (name : Option (List Char)) : Reader Nat := do
  let s ← get
  let number := s.nextGroup
  match name with
  | some n =>
    if (s.names.lookup n).isSome then malformed
    modify fun s ↦ { s with groups := s.groups ++ [none], names := (n, number) :: s.names }
  | none => modify fun s ↦ { s with groups := s.groups ++ [none] }
  return number

/-- Closes a group. -/
def closeGroup (number : Nat) (p : Pattern) : Reader Unit :=
  modify fun s ↦ { s with groups := s.groups.set (number - 1) (some (p.width s.widthOf)) }

/-! ## Escapes -/

/-- Whether a character is a digit in base eight. -/
def isOctal (c : Char) : Bool := '0' ≤ c && c ≤ '7'

/-- Whether a character is a digit in base sixteen. -/
def isHex (c : Char) : Bool := c.isDigit || ('a' ≤ c && c ≤ 'f') || ('A' ≤ c && c ≤ 'F')

/-- The number that digits write. -/
def number (base : Nat) (digits : List Char) : Nat := (Number.digitsFrom base 0 digits).getD 0

/-- The control a letter stands for. -/
def control? : Char → Option Nat
  | 'a' => some 7
  | 'b' => some 8
  | 'f' => some 12
  | 'n' => some 10
  | 'r' => some 13
  | 't' => some 9
  | 'v' => some 11
  | '\\' => some 92
  | _ => none

/-- The class a letter stands for; a capital is the negation. -/
def class? : Char → Option SetItem
  | 'd' => some (.named false .digit)
  | 'D' => some (.named true .digit)
  | 's' => some (.named false .space)
  | 'S' => some (.named true .space)
  | 'w' => some (.named false .word)
  | 'W' => some (.named true .word)
  | _ => none

/-- The place a letter stands for. -/
def anchor? : Char → Option Anchor
  | 'A' => some .textStart
  | 'b' => some .boundary
  | 'B' => some .notBoundary
  | 'Z' => some .textEnd
  | _ => none

/-- The code written by exactly `n` digits in base sixteen. -/
def hexCode (n : Nat) : Reader Nat := do
  let digits ← upTo n isHex
  if digits.length < n then malformed
  let code := number 16 digits
  if 0x10FFFF < code then malformed
  return code

/-- A code written after the letters `x`, `u` and `U`, and any other escaped character that is no
letter. -/
def codeEscape (c : Char) : Reader Nat := do
  if c = 'x' then hexCode 2
  else if c = 'u' then hexCode 4
  else if c = 'U' then hexCode 8
  else if c.isAlpha then malformed
  else return c.toNat

/-- The code of an octal escape, of which no more than eight bits may be used. -/
def octalCode (digits : List Char) : Reader Nat := do
  let code := number 8 digits
  if 0o377 < code then malformed
  return code

/-- An escape inside a set. -/
def setEscape (c : Char) : Reader SetItem := do
  match control? c, class? c with
  | some code, _ => return .single code
  | _, some item => return item
  | _, _ =>
    if isOctal c then return .single (← octalCode (c :: (← upTo 2 isOctal)))
    else if c.isDigit then malformed
    else return .single (← codeEscape c)

/-- A reference to a group by number. -/
def reference (number : Nat) : Reader Pattern := do
  let s ← get
  if s.nextGroup ≤ number || (s.closedWidth? number).isNone then malformed
  checkReference number
  return .backref number

/-- A character literal. -/
def literal (code : Nat) : Pattern := .char false code

/-- An escape that begins with a digit other than zero: three octal digits are a code, else one or two
digits are a reference. -/
def digitEscape (c : Char) : Reader Pattern := do
  match ← upTo 1 Char.isDigit with
  | [] => reference (number 10 [c])
  | d :: _ =>
    if isOctal c && isOctal d then
      match ← upTo 1 isOctal with
      | [] => reference (number 10 [c, d])
      | e :: _ => return literal (← octalCode [c, d, e])
    else reference (number 10 [c, d])

/-- An escape outside sets. -/
def escape (c : Char) : Reader Pattern := do
  match anchor? c, class? c, control? c with
  | some place, _, _ => return .anchor place
  | _, some item, _ => return .set false [item]
  | _, _, some code => return literal code
  | _, _, _ =>
    if c = '0' then return literal (number 8 (c :: (← upTo 2 isOctal)))
    else if c.isDigit then digitEscape c
    else return literal (← codeEscape c)

/-! ## Sets -/

/-- A member of a set that begins with a given piece. -/
def setMember : Piece → Reader SetItem
  | .plain c => return .single c.toNat
  | .escaped c => setEscape c
  | .broken => malformed

/-- The members of a set up to its closing bracket, which may stand first as a member. `items` are those
already read, last first. -/
def setItems (items : List SetItem) : (fuel : Nat) → Reader (List SetItem)
  | 0 => malformed
  | fuel + 1 => do
    let some this ← next | malformed
    if this = .plain ']' && !items.isEmpty then return items.reverse
    let low ← setMember this
    if ← accept '-' then
      let some that ← next | malformed
      if that = .plain ']' then return (.single '-'.toNat :: low :: items).reverse
      match low, ← setMember that with
      | .single a, .single b =>
        if b < a then malformed
        setItems (.range a b :: items) fuel
      | _, _ => malformed
    else setItems (low :: items) fuel

/-- A set after its opening bracket. A set of one character is that character. -/
def bracketed : Reader Pattern := do
  let negated ← accept '^'
  let size := (← get).rest.length
  let items ← setItems [] (size + 1)
  match items.eraseDups with
  | [.single code] => return .char negated code
  | members => return .set negated members

/-! ## Repetitions -/

/-- Repetition counts are below this bound. -/
def countBound : Nat := Nat.pow 2 32 - 1

/-- A repetition count that digits write. -/
def count (digits : List Char) : Reader Nat := do
  if Number.mostDigits < digits.length then throw (.digits digits.length)
  let n := number 10 digits
  if countBound ≤ n then throw .repetition
  return n

/-- The bounds in braces after the opening one; none if what follows are no bounds, and then nothing is
taken. -/
def bounds? : Reader (Option (Nat × Option Nat)) := do
  let start := (← get).rest
  if start.head? = some (.plain '\x7d') then return none
  let low ← span Char.isDigit
  let high ← if ← accept ',' then span Char.isDigit else pure low
  if ← accept '\x7d' then
    let least ← if low.isEmpty then pure 0 else count low
    if high.isEmpty then return some (least, none)
    let most ← count high
    if most < least then malformed
    return some (least, some most)
  else
    goTo start
    return none

/-- The bounds that a repetition sign sets; none if it is a brace without bounds. -/
def repetition? (sign : Char) : Reader (Option (Nat × Option Nat)) :=
  if sign = '?' then return some (0, some 1)
  else if sign = '*' then return some (0, none)
  else if sign = '+' then return some (1, none)
  else bounds?

/-- What the sign after a repetition makes of it. -/
def greed : Reader Greed := do
  if ← accept '?' then return .reluctant
  if ← accept '+' then return .possessive
  return .greedy

/-! ## Options -/

/-- The option a letter stands for. -/
def flag? : Char → Option PatternFlags
  | 'i' => some { PatternFlags.none with ignoreCase := true }
  | 'm' => some { PatternFlags.none with multiline := true }
  | 's' => some { PatternFlags.none with dotAll := true }
  | 'x' => some { PatternFlags.none with verbose := true }
  | 'a' => some { PatternFlags.none with ascii := true }
  | 'u' => some { PatternFlags.none with unicode := true }
  | 't' => some { PatternFlags.none with template := true }
  | _ => none

/-- The letters of options from a given piece on, with the piece that ends them. The two kinds of classes
exclude each other. -/
def flagsOn (on : PatternFlags) (this : Option Piece) : (fuel : Nat) → Reader (PatternFlags × Char)
  | 0 => malformed
  | fuel + 1 =>
    match this with
    | some (.plain c) =>
      match flag? c with
      | some f => do
        let on := on.union f
        if on.ascii && on.unicode then malformed
        flagsOn on (← next) fuel
      | none => if c = ')' || c = '-' || c = ':' then return (on, c) else malformed
    | _ => malformed

/-- The letters of options that are turned off, up to the colon. -/
def flagsOff (off : PatternFlags) (this : Option Piece) : (fuel : Nat) → Reader PatternFlags
  | 0 => malformed
  | fuel + 1 =>
    match this with
    | some (.plain c) =>
      match flag? c with
      | some f => do
        if f.ascii || f.unicode then malformed
        flagsOff (off.union f) (← next) fuel
      | none => if c = ':' && off != .none then return off else malformed
    | _ => malformed

/-- The options of a group from their first piece on: those turned on and off, or none if they are turned
on for the whole pattern. -/
def groupFlags (first : Char) : Reader (Option (PatternFlags × PatternFlags)) := do
  let size := (← get).rest.length
  let fuel := size + 2
  let (on, stop) ←
    if first = '-' then pure (PatternFlags.none, '-') else flagsOn .none (some (.plain first)) fuel
  if stop = ')' then
    modify fun s ↦ { s with flags := s.flags.union on }
    return none
  if on.template then malformed
  let off ← if stop = '-' then do flagsOff .none (← next) fuel else pure .none
  if off.template || on.meets off then malformed
  return some (on, off)

/-! ## Sequences and alternatives -/

/-- What may not be repeated: anchors, and repetitions written without a group around them. -/
inductive Role
  /-- An anchor. -/
  | anchor
  /-- A repetition. -/
  | repetition
  /-- Anything else. -/
  | other
deriving DecidableEq

/-- A part of a sequence. -/
abbrev Part := Pattern × Role

/-- The role of a part that an escape reads as. -/
def roleOf : Pattern → Role
  | .anchor _ => .anchor
  | _ => .other

/-- The sequence of some parts, last first. -/
def sequence : List Part → Pattern
  | [] => .empty
  | (last, _) :: before => before.foldl (fun p part ↦ .seq part.1 p) last

/-- Whether a character is skipped in a verbose pattern. -/
def isLayout (c : Char) : Bool := c = ' ' || (9 ≤ c.toNat && c.toNat ≤ 13)

/-- Skips a comment in a verbose pattern, up to the end of the line. -/
def skipComment : List Piece → List Piece
  | [] => []
  | p :: rest => if p = .plain '\n' then rest else skipComment rest

/-- Skips a comment group after its opening. -/
def commentGroup : Reader Unit := do
  match before ')' (← get).rest with
  | some (_, after) => goTo after
  | none => malformed

/-- What the opening of a group leads to. -/
inductive Opening
  /-- A comment, or options for the whole pattern: nothing to match. -/
  | nothing
  /-- Something complete. -/
  | complete (p : Pattern)
  /-- A capturing group, perhaps with a name. -/
  | capture (name : Option (List Char))
  /-- A group without a number. -/
  | plain
  /-- A group that is settled by itself. -/
  | atomic
  /-- A group with options of its own. -/
  | flags (on off : PatternFlags)
  /-- An assertion about what follows. -/
  | ahead (negated : Bool)
  /-- An assertion about what precedes. -/
  | behind (negated : Bool)
  /-- A choice by whether a group has matched. -/
  | conditional (number : Nat)

/-- A reference to a group by name, after its opening. -/
def namedReference : Reader Opening := do
  let n ← name ')'
  unless Text.isIdentifier n do malformed
  let number ← groupNamed n
  return .complete (← reference number)

/-- Groups have numbers below this bound. -/
def groupBound : Nat := Nat.pow 2 30 - 1

/-- The group that a condition asks for, by name or by number. -/
def condition : Reader Nat := do
  let n ← name ')'
  if Text.isIdentifier n then
    let number ← groupNamed n
    checkReference number
    return number
  else
    match Number.int? 10 n with
    | some value =>
      let number := value.toNat
      if value ≤ 0 || groupBound ≤ number then malformed
      modify fun s ↦ { s with asked := number :: s.asked }
      checkReference number
      return number
    | none => malformed

/-- Reads the opening of a group after its parenthesis. Options for the whole pattern are allowed where
nothing stands before them. -/
def opening (atStart : Bool) : Reader Opening := do
  unless ← accept '?' do return .capture none
  let some (.plain c) ← next | malformed
  match c with
  | 'P' =>
    if ← accept '<' then
      let n ← name '>'
      unless Text.isIdentifier n do malformed
      return .capture (some n)
    else if ← accept '=' then namedReference
    else malformed
  | ':' => return .plain
  | '#' => commentGroup; return .nothing
  | '=' => return .ahead false
  | '!' => return .ahead true
  | '<' =>
    if ← accept '=' then return .behind false
    else if ← accept '!' then return .behind true
    else malformed
  | '(' => return .conditional (← condition)
  | '>' => return .atomic
  | c =>
    if c = '-' || (flag? c).isSome then
      match ← groupFlags c with
      | some (on, off) => return .flags on off
      | none => if atStart then return .nothing else malformed
    else malformed

mutual

/-- Alternatives up to a closing parenthesis or the end. -/
def readAlternatives (verbose top first : Bool) : (fuel : Nat) → Reader Pattern
  | 0 => malformed
  | fuel + 1 => do
    let p ← readSequence verbose (top && first) [] fuel
    if ← accept '|' then
      let global := (← get).flags.verbose
      let verbose := if top then global else verbose
      return .alt p (← readAlternatives verbose top false fuel)
    else return p

/-- A sequence up to a bar, a closing parenthesis or the end. `parts` are those already read, last
first. -/
def readSequence (verbose first : Bool) (parts : List Part) : (fuel : Nat) → Reader Pattern
  | 0 => malformed
  | fuel + 1 => do
    match ← peek with
    | none => return sequence parts
    | some .broken => malformed
    | some (.escaped c) =>
      let _ ← next
      let p ← escape c
      readSequence verbose first ((p, roleOf p) :: parts) fuel
    | some (.plain c) =>
      if c = '|' || c = ')' then return sequence parts
      let _ ← next
      if verbose && isLayout c then readSequence verbose first parts fuel
      else if verbose && c = '#' then
        goTo (skipComment (← get).rest)
        readSequence verbose first parts fuel
      else
        match c with
        | '[' => readSequence verbose first ((← bracketed, .other) :: parts) fuel
        | '.' => readSequence verbose first ((.any, .other) :: parts) fuel
        | '^' => readSequence verbose first ((.anchor .lineStart, .anchor) :: parts) fuel
        | '$' => readSequence verbose first ((.anchor .lineEnd, .anchor) :: parts) fuel
        | '(' =>
          let found ← opening (first && parts.isEmpty)
          match ← readGroup verbose found fuel with
          | some p => readSequence verbose first ((p, .other) :: parts) fuel
          | none =>
            let global := (← get).flags.verbose
            readSequence (verbose || (first && parts.isEmpty && global)) first parts fuel
        | c =>
          if c = '*' || c = '+' || c = '?' || c = '\x7b' then
            match ← repetition? c with
            | none => readSequence verbose first ((literal c.toNat, .other) :: parts) fuel
            | some (least, most) =>
              match parts with
              | (p, .other) :: before =>
                let g ← greed
                readSequence verbose first ((.repetition g least most p, .repetition) :: before) fuel
              | _ => malformed
          else readSequence verbose first ((literal c.toNat, .other) :: parts) fuel

/-- The rest of a group after its opening; none if there is nothing to match. -/
def readGroup (verbose : Bool) (found : Opening) : (fuel : Nat) → Reader (Option Pattern)
  | 0 => malformed
  | fuel + 1 => do
    match found with
    | .nothing => return none
    | .complete p => return some p
    | .capture name =>
      let number ← openGroup name
      let p ← readAlternatives verbose false false fuel
      expect ')'
      closeGroup number p
      return some (.group number p)
    | .plain =>
      let p ← readAlternatives verbose false false fuel
      expect ')'
      return some p
    | .atomic =>
      let p ← readAlternatives verbose false false fuel
      expect ')'
      return some (.atomic p)
    | .flags on off =>
      let p ← readAlternatives ((verbose || on.verbose) && !off.verbose) false false fuel
      expect ')'
      return some (.withFlags on off p)
    | .ahead negated =>
      let p ← readAlternatives verbose false false fuel
      expect ')'
      return some (.ahead negated p)
    | .behind negated =>
      let outer := (← get).behindFrom
      if outer.isNone then modify fun s ↦ { s with behindFrom := some s.nextGroup }
      let p ← readAlternatives verbose false false fuel
      modify fun s ↦ { s with behindFrom := outer }
      expect ')'
      let w := p.width (← get).widthOf
      let fixed := w.least = w.most && w.least ≤ Width.longestBehind
      return some (.behind negated (if fixed then some w.least else none) p)
    | .conditional number =>
      let yes ← readSequence verbose false [] fuel
      let no ← if ← accept '|' then readSequence verbose false [] fuel else pure .empty
      expect ')'
      return some (.conditional number yes no)

end

/-! ## The whole pattern -/

/-- Reads a whole pattern. -/
def readWhole (flags : PatternFlags) (size : Nat) : Reader Pattern := do
  goTo (← get).rest
  let p ← readAlternatives flags.verbose true true (4 * size + 8)
  let s ← get
  if s.flags.ascii && s.flags.unicode then throw .flagClash
  unless s.rest.isEmpty do malformed
  unless s.asked.all (· < s.nextGroup) do malformed
  unless p.isSound s.flags.template do malformed
  return p

/-- A pattern with the options under which it is matched. -/
structure Compiled where
  /-- The pattern. -/
  pattern : Pattern
  /-- The options. -/
  flags : PatternFlags

/-- The pattern that a text is, read under some options. Classes are asked for by Unicode unless the
pattern turns that off. -/
def compile (flags : PatternFlags) (source : List Char) : Except PatternFault Compiled := do
  let start : Reading := ⟨pieces source, [], [], flags, none, []⟩
  let (p, s) ← (readWhole flags source.length).run start
  return ⟨p, { s.flags with unicode := !s.flags.ascii }⟩

end Pattern

end NoteQuery
