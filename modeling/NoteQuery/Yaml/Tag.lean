import NoteQuery.Text.Search

/-!
# Tags of YAML nodes

A tag says which kind of value a node is. A node may carry one; a plain scalar without a tag gets one
from its form. Which forms there are is a list of small grammars on ASCII: `yes` is a truth value, `010`,
`0x1F` and `1:30` are integers, `1e5` is none, `2024-01-31` is a date.
-/

namespace NoteQuery.Yaml

/-- The kind of value that a node is. -/
inductive Tag
  /-- No value. -/
  | null
  /-- A truth value. -/
  | bool
  /-- An integer. -/
  | int
  /-- A number with a fraction. -/
  | float
  /-- Bytes. -/
  | binary
  /-- A date, with or without a time. -/
  | timestamp
  /-- A list of keys and values. -/
  | orderedMap
  /-- A list of keys and values in which keys may be repeated. -/
  | pairs
  /-- A set. -/
  | set
  /-- A text. -/
  | str
  /-- A list. -/
  | seq
  /-- A mapping. -/
  | map
  /-- The key under which mappings are merged. -/
  | merge
  /-- The key of a mapping's own value. -/
  | value
  /-- A tag of no known kind. -/
  | other
deriving Repr, DecidableEq

namespace Tag

/-- What the names of the known tags begin with. -/
def namespaceUri : String := "tag:yaml.org,2002:"

/-- The known tags by name. -/
def known : List (String × Tag) :=
  [("null", null), ("bool", bool), ("int", int), ("float", float), ("binary", binary),
    ("timestamp", timestamp), ("omap", orderedMap), ("pairs", pairs), ("set", set), ("str", str),
    ("seq", seq), ("map", map), ("merge", merge), ("value", value)]

/-- The tag that a full name stands for. -/
def ofUri (uri : String) : Tag :=
  ((known.find? fun entry ↦ namespaceUri ++ entry.1 == uri).map Prod.snd).getD other

/-! ## Forms of plain scalars -/

/-- Whether a text is not empty and of one class of characters. -/
def isRun (cls : Char → Bool) (cs : List Char) : Bool := !cs.isEmpty && cs.all cls

/-- Whether a character is a digit of a base, or a low line. -/
def isDigitOrLine (base : Nat) (c : Char) : Bool :=
  c == '_' || (c.isDigit && c.toNat - 48 < base) || (base == 16 && ('a' ≤ c && c ≤ 'f' || 'A' ≤ c && c ≤ 'F'))

/-- A text without one leading sign. -/
def unsigned : List Char → List Char
  | '-' :: rest => rest
  | '+' :: rest => rest
  | cs => cs

/-- Whether a text is one or two digits below sixty. -/
def isSixtieth : List Char → Bool
  | [a] => a.isDigit
  | [a, b] => '0' ≤ a && a ≤ '5' && b.isDigit
  | _ => false

/-- Whether a text is digits and low lines, a digit first. -/
def isDecimalRun : List Char → Bool
  | c :: rest => c.isDigit && rest.all (isDigitOrLine 10)
  | [] => false

/-- Whether a text is an integer: binary, octal, hexadecimal, decimal or in base sixty. -/
def isInteger (cs : List Char) : Bool :=
  match unsigned cs with
  | '0' :: 'b' :: digits => isRun (isDigitOrLine 2) digits
  | '0' :: 'x' :: digits => isRun (isDigitOrLine 16) digits
  | '0' :: digits => digits.all (isDigitOrLine 8)
  | body =>
    match Text.splitOn ':' body with
    | first :: more => isDecimalRun first && more.all isSixtieth
    | [] => false

/-- Whether a text is empty or an exponent, whose sign is not left out. -/
def isExponent : List Char → Bool
  | [] => true
  | e :: sign :: digits => (e == 'e' || e == 'E') && (sign == '-' || sign == '+') && isRun Char.isDigit digits
  | _ => false

/-- Whether a text is digits and low lines with an exponent after them. -/
def isFraction (cs : List Char) : Bool := isExponent (cs.dropWhile (isDigitOrLine 10))

/-- Whether a text is a number with a fraction: decimal, in base sixty, infinite or no number. -/
def isFloat (cs : List Char) : Bool :=
  let word (names : List String) (body : List Char) : Bool := names.contains (String.ofList body)
  let body := unsigned cs
  let whole := body.takeWhile (· != '.')
  match body.dropWhile (· != '.') with
  | '.' :: rest =>
    if whole.isEmpty then
      word ["inf", "Inf", "INF"] rest ||
        (body == cs && (word ["nan", "NaN", "NAN"] rest || (rest.head?.any Char.isDigit && isFraction rest)))
    else
      match Text.splitOn ':' whole with
      | [digits] => isDecimalRun digits && isFraction rest
      | digits :: more => isDecimalRun digits && more.all isSixtieth && rest.all (isDigitOrLine 10)
      | [] => false
  | _ => false

/-- The words for truth values. -/
def truthWords : List String :=
  ["yes", "Yes", "YES", "no", "No", "NO", "true", "True", "TRUE", "false", "False", "FALSE", "on", "On",
    "ON", "off", "Off", "OFF"]

/-- The words for no value. -/
def nullWords : List String := ["~", "null", "Null", "NULL"]

/-! ## Dates -/

/-- The components of a date, with or without a time, as they are written. -/
structure Components where
  /-- The year. -/
  year : List Char
  /-- The month. -/
  month : List Char
  /-- The day. -/
  day : List Char
  /-- The hour, the minute, the second and the fraction of a second. -/
  time : Option (List Char × List Char × List Char × List Char)
  /-- Whether a distance from universal time is given. -/
  zoned : Bool
  /-- That distance, if it is not zero: whether it is negative, its hours and its minutes. -/
  zone : Option (Bool × List Char × List Char)

/-- Digits, between `least` and `most` of them, and what follows. -/
def spanDigits? (least most : Nat) (cs : List Char) : Option (List Char × List Char) :=
  let run := (cs.take most).takeWhile Char.isDigit
  if run.length < least then none else some (run, cs.drop run.length)

/-- A character and what follows it. -/
def dropChar? (c : Char) : List Char → Option (List Char)
  | d :: rest => if d = c then some rest else none
  | [] => none

/-- A distance from universal time up to the end of the text. -/
def readZone? (cs : List Char) : Option (Bool × Option (Bool × List Char × List Char)) := do
  match cs.dropWhile fun c ↦ c == ' ' || c == '\t' with
  | [] => if cs.isEmpty then some (false, none) else none
  | ['Z'] => some (true, none)
  | sign :: rest =>
    if sign != '-' && sign != '+' then none
    let (hours, rest) ← spanDigits? 1 2 rest
    if rest.isEmpty then return (true, some (sign == '-', hours, []))
    let (minutes, rest) ← spanDigits? 2 2 (← dropChar? ':' rest)
    if rest.isEmpty then return (true, some (sign == '-', hours, minutes)) else none

/-- A time of day after what separates it from the date. -/
def readTime? (date : Components) (cs : List Char) : Option Components := do
  let (hour, rest) ← spanDigits? 1 2 cs
  let (minute, rest) ← spanDigits? 2 2 (← dropChar? ':' rest)
  let (second, rest) ← spanDigits? 2 2 (← dropChar? ':' rest)
  let (fraction, rest) := match rest with
    | '.' :: more => (more.takeWhile Char.isDigit, more.dropWhile Char.isDigit)
    | _ => ([], rest)
  let (zoned, zone) ← readZone? rest
  return { date with time := some (hour, minute, second, fraction), zoned := zoned, zone := zone }

/-- The components of a date, with or without a time. -/
def components? (cs : List Char) : Option Components := do
  let (year, rest) ← spanDigits? 4 4 cs
  let (month, rest) ← spanDigits? 1 2 (← dropChar? '-' rest)
  let (day, rest) ← spanDigits? 1 2 (← dropChar? '-' rest)
  let date : Components := ⟨year, month, day, none, false, none⟩
  match rest with
  | [] => some date
  | c :: more =>
    if c == 'T' || c == 't' then readTime? date more
    else if c == ' ' || c == '\t' then readTime? date (more.dropWhile fun c ↦ c == ' ' || c == '\t')
    else none

/-- Whether a text is a date: with a time, or with two digits for the month and for the day. -/
def isTimestamp (cs : List Char) : Bool :=
  (components? cs).any fun d ↦ d.time.isSome || (d.month.length == 2 && d.day.length == 2)

/-! ## The tag of a form -/

/-- A text without one line feed at its end. -/
def dropFinalBreak (cs : List Char) : List Char := if cs.getLast? = some '\n' then cs.dropLast else cs

/-- The tag of a plain scalar. A line feed at the end does not count, unless the scalar is nothing
else. -/
def ofPlain (cs : List Char) : Tag :=
  let body := if cs = ['\n'] then cs else dropFinalBreak cs
  let text := String.ofList body
  if body.isEmpty || nullWords.contains text then null
  else if truthWords.contains text then bool
  else if isFloat body then float
  else if isInteger body then int
  else if isTimestamp body then timestamp
  else if text = "<<" then merge
  else if text = "=" then value
  else if ["!", "&", "*"].contains text then other
  else str

end Tag

end NoteQuery.Yaml
