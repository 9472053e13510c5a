/-!
# Terms, tokens and faults of a query

A query is read into tokens: terms, the word `OR` and parentheses. A term names a field and an operand
and may be negated. The tree and the clauses built from tokens do not look into a term, so they are
generic in what stands at their leaves.
-/

namespace NoteQuery

/-- One comparison of a query. -/
structure Term where
  /-- The field that is tested, in lower case. -/
  key : String
  /-- The operand, unquoted and unescaped. -/
  value : String
  /-- Whether the result is complemented. -/
  neg : Bool
deriving Repr, DecidableEq, Inhabited

/-- A token of a query. -/
inductive Token (α : Type)
  /-- A term. -/
  | term (t : α)
  /-- The word `OR`. -/
  | or
  /-- An opening parenthesis. -/
  | opening
  /-- A closing parenthesis. -/
  | closing
deriving Repr, DecidableEq

/-- The terms among some tokens, in order. -/
def Token.terms {α : Type} : List (Token α) → List α
  | [] => []
  | .term t :: rest => t :: terms rest
  | _ :: rest => terms rest

/-- Why a text is no query, or a query is refused. Positions count characters from zero. -/
inductive QueryFault
  /-- The quote at this position is never closed. -/
  | openQuote (position : Nat)
  /-- The square bracket at this position is never closed. -/
  | openBracket (position : Nat)
  /-- The query has more clauses than the limit. -/
  | tooComplex (limit : Int)
deriving Repr, DecidableEq

namespace QueryFault

/-- What a fault says. -/
def message : QueryFault → String
  | openQuote p => s!"Unterminated quote starting at index {p}"
  | openBracket p => s!"Unterminated '[' starting at index {p}"
  | tooComplex limit => s!"Query expands to more than {limit} clauses"

/-- The position that a fault refers to, if it refers to one. -/
def position : QueryFault → Option Nat
  | openQuote p => some p
  | openBracket p => some p
  | tooComplex _ => none

/-- The same fault in a text with `n` more characters in front. -/
def shift (n : Nat) : QueryFault → QueryFault
  | openQuote p => openQuote (p + n)
  | openBracket p => openBracket (p + n)
  | tooComplex limit => tooComplex limit

end QueryFault

end NoteQuery
