/-!
# Search patterns

The syntax tree of a search pattern: characters and classes, anchors, sequences and alternatives, groups
and references to them, repetitions of three kinds, and assertions about what stands before or after a
place. Characters are kept by code, because a pattern can write codes that are no characters.
-/

namespace NoteQuery

/-- The options under which a pattern is read and matched. -/
structure PatternFlags where
  /-- Letters match both cases. -/
  ignoreCase : Bool
  /-- The line anchors match at every line. -/
  multiline : Bool
  /-- The dot matches a line feed too. -/
  dotAll : Bool
  /-- Blanks and comments in the pattern are skipped. -/
  verbose : Bool
  /-- The classes hold ASCII characters only. -/
  ascii : Bool
  /-- The classes are asked for by Unicode. -/
  unicode : Bool
  /-- The pattern is a template, in which nothing may be repeated. -/
  template : Bool
deriving Repr, DecidableEq, Inhabited

namespace PatternFlags

/-- No option. -/
def none : PatternFlags := ⟨false, false, false, false, false, false, false⟩

/-- The options of either. -/
def union (a b : PatternFlags) : PatternFlags :=
  ⟨a.ignoreCase || b.ignoreCase, a.multiline || b.multiline, a.dotAll || b.dotAll, a.verbose || b.verbose,
    a.ascii || b.ascii, a.unicode || b.unicode, a.template || b.template⟩

/-- The options of the first that are not of the second. -/
def without (a b : PatternFlags) : PatternFlags :=
  ⟨a.ignoreCase && !b.ignoreCase, a.multiline && !b.multiline, a.dotAll && !b.dotAll,
    a.verbose && !b.verbose, a.ascii && !b.ascii, a.unicode && !b.unicode, a.template && !b.template⟩

/-- Whether two sets of options share one. -/
def meets (a b : PatternFlags) : Bool :=
  (a.ignoreCase && b.ignoreCase) || (a.multiline && b.multiline) || (a.dotAll && b.dotAll) ||
    (a.verbose && b.verbose) || (a.ascii && b.ascii) || (a.unicode && b.unicode) ||
    (a.template && b.template)

/-- The options inside a group that turns some on and some off. Asking for one kind of class gives up the
other. -/
def within (outer on off : PatternFlags) : PatternFlags :=
  let base := if on.ascii || on.unicode then { outer with ascii := false, unicode := false } else outer
  (base.union on).without off

end PatternFlags

/-- A named class of characters. -/
inductive CharClass
  /-- Decimal digits. -/
  | digit
  /-- Blanks. -/
  | space
  /-- Word characters. -/
  | word
deriving Repr, DecidableEq

/-- A member of a bracketed set. -/
inductive SetItem
  /-- One character, by code. -/
  | single (code : Nat)
  /-- All characters from one code to another. -/
  | range (low high : Nat)
  /-- A named class or, negated, what is not in it. -/
  | named (negated : Bool) (cls : CharClass)
deriving Repr, DecidableEq

/-- A place in a text. -/
inductive Anchor
  /-- The start of the text or, with the option, of a line. -/
  | lineStart
  /-- The end of the text or, with the option, of a line; without it also before a last line feed. -/
  | lineEnd
  /-- The start of the text. -/
  | textStart
  /-- The end of the text. -/
  | textEnd
  /-- Between a word character and none. -/
  | boundary
  /-- Anywhere else in a text that is not empty. -/
  | notBoundary
deriving Repr, DecidableEq

/-- How a repetition chooses its count. -/
inductive Greed
  /-- As often as possible, giving back when what follows fails. -/
  | greedy
  /-- As seldom as possible. -/
  | reluctant
  /-- As often as possible, giving nothing back. -/
  | possessive
deriving Repr, DecidableEq

/-- A search pattern. -/
inductive Pattern
  /-- The empty text. -/
  | empty
  /-- Any character, but for a line feed. -/
  | any
  /-- One character or, negated, any other. -/
  | char (negated : Bool) (code : Nat)
  /-- A character of a set or, negated, any other. -/
  | set (negated : Bool) (items : List SetItem)
  /-- A place. -/
  | anchor (place : Anchor)
  /-- One after the other. -/
  | seq (first second : Pattern)
  /-- The first or, failing that, the second. -/
  | alt (first second : Pattern)
  /-- A numbered group. -/
  | group (number : Nat) (body : Pattern)
  /-- A group with options of its own. -/
  | withFlags (on off : PatternFlags) (body : Pattern)
  /-- A repetition; without an upper bound if there is none. -/
  | repetition (greed : Greed) (least : Nat) (most : Option Nat) (body : Pattern)
  /-- The first way in which the body matches, and no other. -/
  | atomic (body : Pattern)
  /-- The body follows or, negated, does not. -/
  | ahead (negated : Bool) (body : Pattern)
  /-- The body precedes or, negated, does not; it has a fixed width, if there is one. -/
  | behind (negated : Bool) (width : Option Nat) (body : Pattern)
  /-- The text of a numbered group once more. -/
  | backref (number : Nat)
  /-- The first if a numbered group has matched, else the second. -/
  | conditional (number : Nat) (yes no : Pattern)
deriving Repr, Inhabited

namespace Pattern

/-! ## Widths -/

/-- The least and the greatest number of characters that a pattern matches. -/
structure Width where
  /-- The least number. -/
  least : Nat
  /-- The greatest number, up to `Width.bound`. -/
  most : Nat
deriving Repr, DecidableEq, Inhabited

/-- Where widths are cut off: more characters than any text has. -/
def Width.bound : Nat := Nat.pow 2 64

/-- The greatest width of what may stand before an assertion that looks back. -/
def Width.longestBehind : Nat := Nat.pow 2 32 - 1

/-- A width cut off at the bound. -/
def Width.clamp (w : Width) : Width := ⟨min w.least bound, min w.most bound⟩

/-- The width of a pattern, given those of the groups it refers to. -/
def width (groups : Nat → Width) : Pattern → Width
  | empty | anchor _ | ahead _ _ | behind _ _ _ => ⟨0, 0⟩
  | any | char _ _ | set _ _ => ⟨1, 1⟩
  | seq a b =>
    let v := a.width groups
    let w := b.width groups
    Width.clamp ⟨v.least + w.least, v.most + w.most⟩
  | alt a b =>
    let v := a.width groups
    let w := b.width groups
    ⟨min v.least w.least, max v.most w.most⟩
  | group _ p | withFlags _ _ p | atomic p => p.width groups
  | repetition _ least most p =>
    let w := p.width groups
    Width.clamp ⟨w.least * least, match most with
      | some n => w.most * n
      | none => if w.most = 0 then 0 else Width.bound⟩
  | backref n => groups n
  | conditional _ yes no =>
    let v := yes.width groups
    let w := no.width groups
    ⟨min v.least w.least, max v.most w.most⟩

/-- Whether every assertion that looks back has a fixed width and, in a template, nothing is repeated. -/
def isSound (template : Bool) : Pattern → Bool
  | empty | any | char _ _ | set _ _ | anchor _ | backref _ => true
  | seq a b | alt a b | conditional _ a b => a.isSound template && b.isSound template
  | group _ p | withFlags _ _ p | atomic p | ahead _ p => p.isSound template
  | repetition _ _ _ p => !template && p.isSound template
  | behind _ w p => w.isSome && p.isSound template

end Pattern

end NoteQuery
