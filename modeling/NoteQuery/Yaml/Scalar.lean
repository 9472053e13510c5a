import NoteQuery.Number.Reading
import NoteQuery.Value.Basic
import NoteQuery.Yaml.Fault
import NoteQuery.Yaml.Tag

/-!
# Values of YAML scalars

What a scalar's text is under its tag. A plain scalar got its tag from its form, so its text has that
form; a tag that is written may stand before any text, and then the faults here arise. Dates may have a
form and still not exist.
-/

namespace NoteQuery.Yaml.Scalar

/-! ## Truth values -/

/-- The truth value that a text is, whatever its case. -/
def truth (cs : List Char) : Except Fault Value :=
  let word := String.ofList (cs.map Char.toLower)
  if ["yes", "true", "on"].contains word then .ok (.bool true)
  else if ["no", "false", "off"].contains word then .ok (.bool false)
  else .error (.truth word)

/-! ## Numbers -/

/-- A number's sign and what follows it, with all low lines taken out. -/
def signed (cs : List Char) : Except Fault (Bool × List Char) :=
  match cs.filter (· != '_') with
  | [] => .error .emptyNumber
  | '-' :: rest => .ok (true, rest)
  | '+' :: rest => .ok (false, rest)
  | cs => .ok (false, cs)

/-- Digits of a base. -/
def inBase (base : Nat) (cs : List Char) : Except Fault Int :=
  match Number.int? base cs with
  | some n => .ok n
  | none => .error (.integer base (String.ofList cs))

/-- An integer without its sign. -/
def magnitude : List Char → Except Fault Int
  | [] => .error .emptyNumber
  | ['0'] => .ok 0
  | '0' :: 'b' :: digits => inBase 2 digits
  | '0' :: 'x' :: digits => inBase 16 digits
  | '0' :: digits => inBase 8 ('0' :: digits)
  | cs => ((Text.splitOn ':' cs).mapM (inBase 10)).map fun parts ↦ parts.foldl (fun n d ↦ n * 60 + d) 0

/-- The integer that a text is. -/
def integer (cs : List Char) : Except Fault Value := do
  let (negative, body) ← signed cs
  let n ← magnitude body
  return .int (if negative then -n else n)

/-- A number in base sixty, the least part first. Every part is rounded when it is added. -/
def sexagesimal (scale : Nat) (sum : Binary64) : List Binary64 → Binary64
  | [] => sum
  | d :: rest => sexagesimal (scale * 60) (sum.add (d.mul (.ofNat scale))) rest

/-- A decimal number. -/
def decimal (cs : List Char) : Except Fault Binary64 :=
  match Number.float? cs with
  | some x => .ok x
  | none => .error (.float (String.ofList cs))

/-- The number with a fraction that a text is. -/
def float (cs : List Char) : Except Fault Value := do
  let (negative, body) ← signed (cs.map Char.toLower)
  let text := String.ofList body
  if text = ".nan" then return .float .nan
  let x ←
    if text = ".inf" then pure (.infinite false)
    else if body.contains ':' then
      ((Text.splitOn ':' body).mapM decimal).map fun parts ↦ sexagesimal 1 .zero parts.reverse
    else decimal body
  return .float (if negative then x.negate else x)

/-! ## Bytes -/

/-- The value of a letter in base sixty-four. -/
def sextet? (c : Char) : Option Nat :=
  if c.isUpper then some (c.toNat - 65)
  else if c.isLower then some (c.toNat - 71)
  else if c.isDigit then some (c.toNat + 4)
  else if c = '+' then some 62
  else if c = '/' then some 63 else none

/-- The bytes that letters in base sixty-four write. Four letters are three bytes; `place` says how many
of the four are read, `carry` has the bits of the last that belong to the next byte, `padding` counts
equals signs since. All other characters are skipped, and nothing counts behind a full padding. -/
def readSextets (place carry padding : Nat) : List Char → Except Fault (List UInt8)
  | [] => if place = 0 then .ok [] else .error .malformed
  | c :: rest =>
    if c = '=' then
      if 2 ≤ place then
        if 4 ≤ place + padding + 1 then .ok [] else readSextets place carry (padding + 1) rest
      else readSextets place carry padding rest
    else
      match sextet? c with
      | none => readSextets place carry padding rest
      | some n =>
        let next (byte carry : Nat) : Except Fault (List UInt8) :=
          (readSextets ((place + 1) % 4) carry 0 rest).map (byte.toUInt8 :: ·)
        match place with
        | 0 => readSextets 1 n 0 rest
        | 1 => next (carry * 4 + n / 16) (n % 16)
        | 2 => next (carry * 16 + n / 4) (n % 4)
        | _ => next (carry * 64 + n) 0

/-- The bytes that a text is in base sixty-four. -/
def bytes (cs : List Char) : Except Fault Value :=
  if cs.all fun c ↦ c.toNat < 128 then (readSextets 0 0 0 cs).map .bytes else .error .malformed

/-! ## Dates -/

/-- The number that decimal digits write. -/
def number (digits : List Char) : Nat := digits.foldl (fun n c ↦ n * 10 + (c.toNat - 48)) 0

/-- The microseconds of a fraction of a second: its first six digits. -/
def micros (fraction : List Char) : Nat :=
  let digits := fraction.take 6
  number (digits ++ List.replicate (6 - digits.length) '0')

/-- The distance from universal time of a date-time, in seconds. -/
def offset (c : Tag.Components) : Option Int :=
  match c.zone with
  | some (negative, hours, minutes) =>
    let seconds : Int := (number hours * 60 + number minutes) * 60
    some (if negative then -seconds else seconds)
  | none => if c.zoned then some 0 else none

/-- The date that a text is. A line feed at its end does not count. -/
def timestamp (cs : List Char) : Except Fault Value :=
  match Tag.components? (Tag.dropFinalBreak cs) with
  | none => .error .dateForm
  | some c =>
    let made : Except CalendarFault Value :=
      match c.time with
      | none => (Calendar.date (number c.year) (number c.month) (number c.day)).map .date
      | some (hour, minute, second, fraction) =>
        (Calendar.dateTime (number c.year) (number c.month) (number c.day) (number hour) (number minute)
          (number second) (micros fraction) (offset c)).map .datetime
    made.mapError .date

end NoteQuery.Yaml.Scalar
