import NoteQuery.Pattern.Character

/-!
# Matching a pattern

A pattern is matched by trying its choices in order and going back to the last one when what follows
fails. The meaning of a pattern is therefore a function of what follows it: given a place and a test of
the rest, it is the first way to match the pattern that the rest accepts. It goes down the structure of
the pattern; only repetitions count.

A repetition past its least count does not start again where its last turn started, so it ends after at
most one turn for every character that is left.
-/

namespace NoteQuery.Pattern

/-! ## Places -/

/-- A place in the text and the groups that have been matched so far. -/
structure Cursor where
  /-- The number of characters before the place. -/
  pos : Nat
  /-- Where groups were opened, the latest first. -/
  starts : List (Nat × Nat)
  /-- Where groups were closed, the latest first. -/
  ends : List (Nat × Nat)
deriving Repr

/-- The extent of a group, if it has been closed after it was opened. -/
def Cursor.extent? (c : Cursor) (number : Nat) : Option (Nat × Nat) :=
  match c.starts.lookup number, c.ends.lookup number with
  | some s, some e => if s ≤ e then some (s, e) else none
  | _, _ => none

/-- What follows: the rest of the pattern from a place on. -/
abbrev Rest := Cursor → Option Cursor

/-- A pattern's meaning: the first way to match it that the rest accepts. -/
abbrev Matcher := Cursor → Rest → Option Cursor

/-! ## Single characters and anchors -/

/-- Takes one character that fulfils a test. -/
def one (subject : Array Char) (test : Char → Bool) : Matcher := fun c k ↦
  match subject[c.pos]? with
  | some x => if test x then k { c with pos := c.pos + 1 } else none
  | none => none

/-- Whether there is a word character at a place. -/
def wordAt (flags : PatternFlags) (subject : Array Char) (pos : Nat) : Bool :=
  (subject[pos]?).any (inClass flags .word)

/-- Whether a place is at the boundary of a word. -/
def atBoundary (flags : PatternFlags) (subject : Array Char) (pos : Nat) : Bool :=
  let before := pos != 0 && wordAt flags subject (pos - 1)
  before != wordAt flags subject pos

/-- Whether an anchor holds at a place. -/
def anchored (flags : PatternFlags) (subject : Array Char) (pos : Nat) : Anchor → Bool
  | .lineStart => pos == 0 || (flags.multiline && subject[pos - 1]? == some '\n')
  | .lineEnd =>
    pos == subject.size || (subject[pos]? == some '\n' && (flags.multiline || pos + 1 == subject.size))
  | .textStart => pos == 0
  | .textEnd => pos == subject.size
  | .boundary => !subject.isEmpty && atBoundary flags subject pos
  | .notBoundary => !subject.isEmpty && !atBoundary flags subject pos

/-- Takes the characters from `first` up to `last` once more. -/
def again (flags : PatternFlags) (subject : Array Char) (first last : Nat) : Matcher := fun c k ↦
  let fold (x : Char) : Char := if flags.ignoreCase then foldInput flags.ascii x else x
  let size := last - first
  if (List.range size).all fun i ↦
      match subject[first + i]?, subject[c.pos + i]? with
      | some x, some y => fold x == fold y
      | _, _ => false
  then k { c with pos := c.pos + size } else none

/-! ## Repetitions -/

/-- Whether a further turn is allowed: the upper bound is not reached, and the last turn did not start
here. -/
def mayRepeat (most : Option Nat) (count : Nat) (last : Option Nat) (pos : Nat) : Bool :=
  most.all (count < ·) && last != some pos

/-- As many turns as possible, then the rest. -/
def greedyLoop (body : Matcher) (least : Nat) (most : Option Nat) (k : Rest) :
    (fuel count : Nat) → (last : Option Nat) → Rest
  | 0, _, _, c => k c
  | fuel + 1, count, last, c =>
    if count < least then body c (greedyLoop body least most k fuel (count + 1) last)
    else if mayRepeat most count last c.pos then
      match body c (greedyLoop body least most k fuel (count + 1) (some c.pos)) with
      | some found => some found
      | none => k c
    else k c

/-- The rest after as few turns as possible. -/
def reluctantLoop (body : Matcher) (least : Nat) (most : Option Nat) (k : Rest) :
    (fuel count : Nat) → (last : Option Nat) → Rest
  | 0, _, _, c => k c
  | fuel + 1, count, last, c =>
    if count < least then body c (reluctantLoop body least most k fuel (count + 1) last)
    else
      match k c with
      | some found => some found
      | none =>
        if mayRepeat most count last c.pos then
          body c (reluctantLoop body least most k fuel (count + 1) (some c.pos))
        else none

/-- As many turns as possible, each settled by itself; the place after the last. -/
def possessiveLoop (body : Matcher) (least : Nat) (most : Option Nat) :
    (fuel count : Nat) → (last : Option Nat) → Rest
  | 0, _, _, c => some c
  | fuel + 1, count, last, c =>
    if count < least then (body c some).bind (possessiveLoop body least most fuel (count + 1) last)
    else if mayRepeat most count last c.pos then
      match body c some with
      | some after => possessiveLoop body least most fuel (count + 1) (some c.pos) after
      | none => some c
    else some c

/-- The repetition of a pattern's meaning. -/
def repeated (size : Nat) (greed : Greed) (least : Nat) (most : Option Nat) (body : Matcher) : Matcher :=
  fun c k ↦
    let fuel := least + size + 2
    match greed with
    | .greedy => greedyLoop body least most k fuel 0 none c
    | .reluctant => reluctantLoop body least most k fuel 0 none c
    | .possessive => (possessiveLoop body least most fuel 0 none c).bind k

/-! ## Patterns -/

/-- The meaning of a pattern in a text. -/
def run (subject : Array Char) : PatternFlags → Pattern → Matcher
  | _, empty => fun c k ↦ k c
  | flags, any => one subject fun x ↦ flags.dotAll || x != '\n'
  | flags, char negated code => one subject fun x ↦ isCode flags code x != negated
  | flags, set negated items => one subject fun x ↦ inSet flags items x != negated
  | flags, anchor place => fun c k ↦ if anchored flags subject c.pos place then k c else none
  | flags, seq p q => fun c k ↦ run subject flags p c fun d ↦ run subject flags q d k
  | flags, alt p q => fun c k ↦
    match run subject flags p c k with
    | some found => some found
    | none => run subject flags q c k
  | flags, group n p => fun c k ↦
    run subject flags p { c with starts := (n, c.pos) :: c.starts } fun d ↦
      k { d with ends := (n, d.pos) :: d.ends }
  | flags, withFlags on off p => run subject (flags.within on off) p
  | flags, repetition greed least most p => repeated subject.size greed least most (run subject flags p)
  | flags, atomic p => fun c k ↦ (run subject flags p c some).bind k
  | flags, ahead negated p => fun c k ↦
    match run subject flags p c some with
    | some d => if negated then none else k { d with pos := c.pos }
    | none => if negated then k c else none
  | flags, behind negated width p => fun c k ↦
    let back := width.getD 0
    let found := if back ≤ c.pos then run subject flags p { c with pos := c.pos - back } some else none
    match found with
    | some d => if negated then none else k { d with pos := c.pos }
    | none => if negated then k c else none
  | flags, backref n => fun c k ↦
    match c.extent? n with
    | some (first, last) => again flags subject first last c k
    | none => none
  | flags, conditional n yes no => fun c k ↦
    if (c.extent? n).isSome then run subject flags yes c k else run subject flags no c k

/-- Whether a pattern matches at a place. -/
def matchesAt (flags : PatternFlags) (p : Pattern) (subject : Array Char) (pos : Nat) : Bool :=
  (run subject flags p ⟨pos, [], []⟩ some).isSome

/-- Whether a pattern matches somewhere in a text. -/
def matchesIn (flags : PatternFlags) (p : Pattern) (subject : Array Char) : Bool :=
  (List.range (subject.size + 1)).any (matchesAt flags p subject)

end NoteQuery.Pattern
