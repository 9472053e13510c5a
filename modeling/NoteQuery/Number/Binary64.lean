/-!
# Binary floating point

Numbers with a fraction are kept as the 64-bit binary numbers of the common standard, but as exact
data: a finite number is a sign, a mantissa and a power of two. Reading, adding and multiplying round an
exact result once, to the nearest number and to the even mantissa on a tie, in arithmetic on `Nat`. So
every statement about a number is one about integers, and closed instances are decided by evaluation.

## Canonical form

A finite number has its mantissa below `2 ^ 53` and its exponent at least `-1074`; the mantissa is at
least `2 ^ 52` unless the exponent is least. Every function here that builds a number builds it in this
form, so equality of the data is equality of numbers but for the two zeros and for what is no number.
-/

namespace NoteQuery

/-- A 64-bit binary floating-point number. -/
inductive Binary64
  /-- What is no number. -/
  | nan
  /-- An infinity with its sign. -/
  | infinite (negative : Bool)
  /-- The number `mantissa * 2 ^ exponent` with its sign. -/
  | finite (negative : Bool) (mantissa : Nat) (exponent : Int)
deriving Repr, DecidableEq, Inhabited

namespace Binary64

/-! ## Rounding -/

/-- The least exponent of a finite number. -/
def leastExponent : Int := -1074

/-- The greatest exponent of a finite number. -/
def greatestExponent : Int := 971

/-- A quotient rounded to the nearest integer, a tie to the even one. -/
def roundDiv (num den : Nat) : Nat :=
  let quotient := num / den
  let twice := 2 * (num % den)
  if twice < den then quotient
  else if den < twice then quotient + 1
  else if quotient % 2 = 0 then quotient else quotient + 1

/-- The quotient `num / (den * 2 ^ exponent)` as a fraction of natural numbers. -/
def scaled (num den : Nat) (exponent : Int) : Nat × Nat :=
  if exponent < 0 then (num * Nat.pow 2 (-exponent).toNat, den) else (num, den * Nat.pow 2 exponent.toNat)

/-- The exponent at which a positive fraction has 53 bits before the point, or the least exponent. -/
def exponentFor (num den : Nat) : Int :=
  let guess : Int := (Nat.log2 num : Int) - Nat.log2 den - 52
  let (n, d) := scaled num den guess
  max (if n / d < Nat.pow 2 52 then guess - 1 else guess) leastExponent

/-- A mantissa and exponent in canonical form, where rounding may have carried into a 54th bit, and an
infinity beyond the greatest exponent. -/
def settle (negative : Bool) (mantissa : Nat) (exponent : Int) : Binary64 :=
  let (m, e) := if mantissa = Nat.pow 2 53 then (Nat.pow 2 52, exponent + 1) else (mantissa, exponent)
  if greatestExponent < e then .infinite negative else .finite negative m e

/-- The number nearest to a fraction. -/
def ofRatio (negative : Bool) (num den : Nat) : Binary64 :=
  if num = 0 then .finite negative 0 leastExponent
  else
    let e := exponentFor num den
    let (n, d) := scaled num den e
    settle negative (roundDiv n d) e

/-- The zero that is written without a sign. -/
def zero : Binary64 := .finite false 0 leastExponent

/-- The number nearest to a natural number. -/
def ofNat (n : Nat) : Binary64 := ofRatio false n 1

/-- The number nearest to `digits * 10 ^ exponent`. Exponents far outside the range are settled by the
count of digits alone. -/
def ofDecimal (negative : Bool) (digits : Nat) (exponent : Int) : Binary64 :=
  if digits = 0 then .finite negative 0 leastExponent
  else
    let size : Int := (Nat.toDigits 10 digits).length
    if 400 < size + exponent then .infinite negative
    else if size + exponent < -400 then .finite negative 0 leastExponent
    else if exponent < 0 then ofRatio negative digits (Nat.pow 10 (-exponent).toNat)
    else ofRatio negative (digits * Nat.pow 10 exponent.toNat) 1

/-! ## Arithmetic -/

/-- The exact value of a finite number, as a fraction. -/
def ratio (mantissa : Nat) (exponent : Int) : Nat × Nat :=
  if exponent < 0 then (mantissa, Nat.pow 2 (-exponent).toNat) else (mantissa * Nat.pow 2 exponent.toNat, 1)

/-- The number with the other sign. -/
def negate : Binary64 → Binary64
  | .nan => .nan
  | .infinite s => .infinite !s
  | .finite s m e => .finite (!s) m e

/-- The product, rounded once. -/
def mul : Binary64 → Binary64 → Binary64
  | .finite s m e, .finite t n f =>
    let (a, b) := ratio m e
    let (c, d) := ratio n f
    ofRatio (s != t) (a * c) (b * d)
  | .nan, _ => .nan
  | _, .nan => .nan
  | .infinite s, .infinite t => .infinite (s != t)
  | .infinite s, .finite t n _ => if n = 0 then .nan else .infinite (s != t)
  | .finite s m _, .infinite t => if m = 0 then .nan else .infinite (s != t)

/-- The exact value of a finite number, as a fraction with a sign. -/
def signedRatio (negative : Bool) (mantissa : Nat) (exponent : Int) : Int × Nat :=
  let (num, den) := ratio mantissa exponent
  (if negative then -(num : Int) else num, den)

/-- The sum, rounded once. Only two negative zeros add up to a negative zero. -/
def add : Binary64 → Binary64 → Binary64
  | .finite s m e, .finite t n f =>
    let (a, b) := signedRatio s m e
    let (c, d) := signedRatio t n f
    let num := a * d + c * b
    if num = 0 then .finite (s && t) 0 leastExponent else ofRatio (num < 0) num.natAbs (b * d)
  | .nan, _ => .nan
  | _, .nan => .nan
  | .infinite s, .infinite t => if s = t then .infinite s else .nan
  | .infinite s, _ => .infinite s
  | _, .infinite t => .infinite t

/-! ## Whole numbers -/

/-- The integer a number is equal to, if it is one. -/
def toInt? : Binary64 → Option Int
  | .finite negative m e =>
    let (num, den) := ratio m e
    if num % den = 0 then
      let n : Int := (num / den : Nat)
      some (if negative then -n else n)
    else none
  | _ => none

end Binary64

end NoteQuery
