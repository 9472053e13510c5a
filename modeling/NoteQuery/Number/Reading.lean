import NoteQuery.Number.Binary64
import NoteQuery.Text.Blank
import NoteQuery.Text.CharClass

/-!
# Reading numbers

The numerals of settings and metadata. Decimal digits of every script are read by their value. A
numeral may have blanks around it and one sign; a float may also be one of the words for infinity and
for what is no number.
-/

namespace NoteQuery.Number

/-! ## Digits -/

/-- The value of a digit in a base up to sixteen: a decimal digit of any script, or a letter. -/
def digitValue? (base : Nat) (c : Char) : Option Nat :=
  let value :=
    match Text.decimalValue? c with
    | some n => some n
    | none =>
      if 'a' ≤ c && c ≤ 'f' then some (c.toNat - 87)
      else if 'A' ≤ c && c ≤ 'F' then some (c.toNat - 55) else none
  value.filter (· < base)

/-- The number written by a list of digits after the digits already read as `acc`. -/
def digitsFrom (base : Nat) (acc : Nat) : List Char → Option Nat
  | [] => some acc
  | c :: rest => (digitValue? base c).bind fun d ↦ digitsFrom base (acc * base + d) rest

/-- The number written by a non-empty list of digits. -/
def digits? (base : Nat) (cs : List Char) : Option Nat :=
  if cs.isEmpty then none else digitsFrom base 0 cs

/-- Whether single low lines stand only between digits. -/
def lowLinesApart : List Char → Bool
  | [] => true
  | ['_'] => false
  | '_' :: c :: rest => c != '_' && lowLinesApart (c :: rest)
  | _ :: rest => lowLinesApart rest

/-- A sign and what follows it. -/
def splitSign : List Char → Bool × List Char
  | '-' :: rest => (true, rest)
  | '+' :: rest => (false, rest)
  | cs => (false, cs)

/-! ## Integers -/

/-- The letter that may announce a base. -/
def baseLetter? : Nat → Option Char
  | 2 => some 'b'
  | 8 => some 'o'
  | 16 => some 'x'
  | _ => none

/-- The digits after an announcement of the base, if there is one. -/
def dropBase (base : Nat) : List Char → List Char
  | '0' :: c :: rest =>
    if some c.toLower = baseLetter? base then
      match rest with
      | '_' :: more => more
      | _ => rest
    else '0' :: c :: rest
  | cs => cs

/-- The most digits of an integer numeral in base ten; a longer one is refused. -/
def mostDigits : Nat := 4300

/-- What is said about an integer with more digits, whose number is known where they are read. -/
def tooManyDigits (count : Option Nat) : String :=
  let known := match count with
    | some n => s!": value has {n} digits"
    | none => ""
  s!"Exceeds the limit ({mostDigits} digits) for integer string conversion" ++ known ++
    "; use sys.set_int_max_str_digits() to increase the limit"

/-- An integer numeral: blanks around it, a sign, the announcement of the base, and digits with single
low lines between them. -/
def int? (base : Nat) (cs : List Char) : Option Int :=
  let (negative, body) := splitSign (Text.trim cs)
  let body := dropBase base body
  if body.head? = some '_' || !lowLinesApart body then none
  else
    let digits := body.filter (· != '_')
    if base = 10 && mostDigits < digits.length then none
    else (digits? base digits).map fun n ↦ if negative then -(n : Int) else n

/-! ## Floats -/

/-- The digits at the front of a text and the rest. -/
def spanDigits (cs : List Char) : List Char × List Char := cs.span Text.isDecimal

/-- The exponent part of a decimal numeral: absent, or `e`, a sign and digits up to the end. -/
def exponent? : List Char → Option Int
  | [] => some 0
  | c :: rest =>
    if c == 'e' || c == 'E' then
      let (negative, body) := splitSign rest
      (digits? 10 body).map fun n ↦ if negative then -(n : Int) else n
    else none

/-- A decimal numeral without a sign, as digits and a decimal exponent. -/
def decimal? (cs : List Char) : Option (Nat × Int) :=
  let (whole, rest) := spanDigits cs
  let (fraction, rest) := match rest with
    | '.' :: more => spanDigits more
    | _ => ([], rest)
  match digits? 10 (whole ++ fraction), exponent? rest with
  | some n, some e => some (n, e - fraction.length)
  | _, _ => none

/-- The words for infinity and for what is no number, in lower case. -/
def word? (negative : Bool) (cs : List Char) : Option Binary64 :=
  let name := String.ofList (cs.map Char.toLower)
  if name = "inf" || name = "infinity" then some (.infinite negative)
  else if name = "nan" then some .nan else none

/-- A float numeral: blanks around it, a sign, and a decimal numeral or a word. -/
def float? (cs : List Char) : Option Binary64 :=
  let (negative, body) := splitSign (Text.trim cs)
  match word? negative body with
  | some x => some x
  | none => (decimal? body).map fun (n, e) ↦ .ofDecimal negative n e

end NoteQuery.Number
