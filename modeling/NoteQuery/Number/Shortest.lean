import NoteQuery.Number.Binary64

/-!
# The shortest decimal text of a number

A number is written with the fewest digits that read back as the same number, and with the nearest of
those. For each count of digits the two neighbours of the number on that decimal grid are read back in
exact arithmetic; the first grid with a hit gives the digits. Past seventeen digits the exact expansion
would be written; it reads back because it is the number itself.

The layout is positional while the decimal exponent is from `-4` to `15`, with at least one digit after
the point, and scientific otherwise, with a sign and at least two digits in the exponent.
-/

namespace NoteQuery.Binary64

/-! ## Digits -/

/-- How many decimal places a fraction lies left of the point: the least `k` with `num / den < 10 ^ k`. -/
def decimalPlaces (num den : Nat) : Int :=
  if den ≤ num then (Nat.toDigits 10 (num / den)).length
  else below 0 num (den + 1)
where
  /-- Counts the zeros after the point, multiplying by ten while the result stays below one. -/
  below (k : Int) (num : Nat) : Nat → Int
    | 0 => k
    | fuel + 1 => if den ≤ num * 10 then k else below (k - 1) (num * 10) fuel

/-- The two neighbours of a fraction on the grid of multiples of `10 ^ exponent`, nearest first. -/
def neighbours (num den : Nat) (exponent : Int) : List Nat :=
  let (n, d) := if exponent < 0 then (num * Nat.pow 10 (-exponent).toNat, den) else (num, den * Nat.pow 10 exponent.toNat)
  let floor := n / d
  let twice := 2 * (n % d)
  if twice = 0 then [floor]
  else if twice < d || (twice = d && floor % 2 = 0) then [floor, floor + 1]
  else [floor + 1, floor]

/-- The digits and decimal exponent of the first grid, from `count` digits on, on which a neighbour of
the number reads back as the number. -/
def firstGrid (mantissa : Nat) (exponent : Int) (count : Nat) : Nat → Option (Nat × Int)
  | 0 => none
  | fuel + 1 =>
    let (num, den) := ratio mantissa exponent
    let place := decimalPlaces num den - count
    match (neighbours num den place).find? fun n ↦
        ofDecimal false n place == .finite false mantissa exponent with
    | some n => some (n, place)
    | none => firstGrid mantissa exponent (count + 1) fuel

/-- The exact value as digits and a decimal exponent: a negative power of two is as many fives. -/
def exactDecimal (mantissa : Nat) (exponent : Int) : Nat × Int :=
  if exponent < 0 then (mantissa * Nat.pow 5 (-exponent).toNat, exponent) else (mantissa * Nat.pow 2 exponent.toNat, 0)

/-- The digits and decimal exponent with which a finite number is written. -/
def shortestDecimal (mantissa : Nat) (exponent : Int) : Nat × Int :=
  (firstGrid mantissa exponent 1 17).getD (exactDecimal mantissa exponent)

/-! ## Layout -/

/-- The exponent of scientific notation: a sign and at least two digits. -/
def exponentText (e : Int) : List Char :=
  let digits := Nat.toDigits 10 e.natAbs
  (if e < 0 then '-' else '+') :: (if digits.length < 2 then '0' :: digits else digits)

/-- Digits with the point `point` places from their left end. -/
def layout (digits : List Char) (point : Int) : List Char :=
  if 16 < point || point < -3 then
    (match digits with
      | [] => ['0']
      | [d] => [d]
      | d :: rest => d :: '.' :: rest) ++ 'e' :: exponentText (point - 1)
  else if point ≤ 0 then
    '0' :: '.' :: (List.replicate (-point).toNat '0' ++ digits)
  else if digits.length ≤ point.toNat then
    digits ++ List.replicate (point.toNat - digits.length) '0' ++ ['.', '0']
  else digits.take point.toNat ++ '.' :: digits.drop point.toNat

/-- The digits of a positive number without trailing zeros, and the place of the point. -/
def significant (digits : Nat) (exponent : Int) : List Char × Int :=
  let all := Nat.toDigits 10 digits
  ((all.reverse.dropWhile (· == '0')).reverse, all.length + exponent)

/-- The text of a number. -/
def toText : Binary64 → String
  | .nan => "nan"
  | .infinite negative => if negative then "-inf" else "inf"
  | .finite negative m e =>
    let body :=
      if m = 0 then ['0', '.', '0']
      else
        let (digits, exponent) := shortestDecimal m e
        let (chars, point) := significant digits exponent
        layout chars point
    String.ofList (if negative then '-' :: body else body)

end NoteQuery.Binary64
