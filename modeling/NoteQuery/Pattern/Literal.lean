import NoteQuery.Pattern.Match
import NoteQuery.Pattern.Read

/-!
# Pattern literals

An operand of the form `/body/flags` is a search pattern, any other is plain text. The flags are the
longest run at the end of the operand of the letters `g i m s u y`, and the slash before them must not be
escaped: it may not follow an odd run of backslashes.

In the body a group may be opened by `(?<name>` as well as by `(?P<name>`. The first stands for the second
and is replaced by it before the body is read.
-/

namespace NoteQuery

/-- A search pattern as it stands in a query. -/
structure PatternLiteral where
  /-- What stands between the slashes. -/
  body : List Char
  /-- The letters after the second slash. -/
  flags : List Char
deriving Repr, DecidableEq

namespace PatternLiteral

/-! ## Recognizing -/

/-- Whether a letter is a flag. -/
def isFlag (c : Char) : Bool :=
  c == 'g' || c == 'i' || c == 'm' || c == 's' || c == 'u' || c == 'y'

/-- Whether a text, last character first, ends in an odd run of backslashes. -/
def endsEscaping (reversed : List Char) : Bool := (reversed.takeWhile (· == '\\')).length % 2 == 1

/-- The pattern literal that an operand is, if it is one. -/
def ofOperand? : List Char → Option PatternLiteral
  | '/' :: rest =>
    match rest.reverse.dropWhile isFlag with
    | '/' :: body =>
      if endsEscaping body then none else some ⟨body.reverse, (rest.reverse.takeWhile isFlag).reverse⟩
    | _ => none
  | _ => none

/-- The operand that a literal is written as. -/
def toOperand (l : PatternLiteral) : List Char := '/' :: l.body ++ '/' :: l.flags

/-! ## Reading and testing -/

/-- The body with named groups opened in the one way that a pattern knows. An assertion that looks back
begins alike and is left alone. -/
def openNamedGroups : List Char → List Char
  | '(' :: '?' :: '<' :: rest =>
    match rest with
    | '=' :: _ | '!' :: _ => '(' :: '?' :: '<' :: openNamedGroups rest
    | _ => '(' :: '?' :: 'P' :: '<' :: openNamedGroups rest
  | c :: rest => c :: openNamedGroups rest
  | [] => []

/-- The options that the flags stand for. Flags that change nothing in a single test are left out. -/
def options (flags : List Char) : PatternFlags :=
  { PatternFlags.none with
    ignoreCase := flags.contains 'i', multiline := flags.contains 'm', dotAll := flags.contains 's' }

/-- The pattern of a literal. -/
def compile (l : PatternLiteral) : Except PatternFault Pattern.Compiled :=
  if l.flags.eraseDups.length = l.flags.length then
    Pattern.compile (options l.flags) (openNamedGroups l.body)
  else .error .repeatedFlag

/-- Whether a fault is no more than a pattern that matches nothing. -/
def isHarmless : PatternFault → Bool
  | .malformed | .repeatedFlag => true
  | .repetition | .digits _ | .flagClash => false

/-- Whether the literal is found in a text; with the flag `y` it has to be found at the start. A malformed
pattern is found nowhere. -/
def test (l : PatternLiteral) (text : List Char) : Except PatternFault Bool :=
  match l.compile with
  | .ok p =>
    let subject := text.toArray
    .ok (if l.flags.contains 'y' then Pattern.matchesAt p.flags p.pattern subject 0
      else Pattern.matchesIn p.flags p.pattern subject)
  | .error fault => if isHarmless fault then .ok false else .error fault

end PatternLiteral

/-- What a fault says that is not harmless. -/
def PatternFault.message : PatternFault → String
  | .malformed => "malformed pattern"
  | .repeatedFlag => "repeated flags"
  | .repetition => "the repetition number is too large"
  | .digits count => Number.tooManyDigits (some count)
  | .flagClash => "ASCII and UNICODE flags are incompatible"

end NoteQuery
