import NoteQuery.Pattern.Basic
import NoteQuery.Text.Case
import NoteQuery.Text.CharClass

/-!
# Matching one character

Whether a character of the text is one that a pattern asks for. Where case is disregarded, two characters
are alike when their lower case is the same or when the lower cases have one upper case, as for the two
small sigmas; the second relation is a short list of classes.
-/

namespace NoteQuery.Pattern

/-! ## Characters alike but for case -/

/-- Small letters that share a capital. -/
def sharedCapitals : List (List Nat) := [
  [105, 305], [115, 383], [181, 956], [837, 953, 8126], [912, 8147], [944, 8163], [946, 976],
  [949, 1013], [952, 977], [954, 1008], [960, 982], [961, 1009], [962, 963], [966, 981], [1074, 7296],
  [1076, 7297], [1086, 7298], [1089, 7299], [1090, 7300, 7301], [1098, 7302], [1123, 7303],
  [7304, 42571], [7777, 7835], [64261, 64262]]

/-- A small letter and those that share its capital. -/
def likeSmall (code : Nat) : List Nat := (sharedCapitals.find? (·.contains code)).getD [code]

/-- The code of the lower case of a code; codes that are no characters stand for themselves. -/
def foldCode (ascii : Bool) (code : Nat) : Nat :=
  if ascii then (if 65 ≤ code && code ≤ 90 then code + 32 else code)
  else if code.isValidChar then (Text.foldChar (Char.ofNat code)).toNat else code

/-- The code of the first character of the upper case of a code. -/
def raiseCode (code : Nat) : Nat := (Text.raiseChar (Char.ofNat code)).toNat

/-- Whether a code takes part in case. -/
def isCasedCode (ascii : Bool) (code : Nat) : Bool :=
  if ascii then (65 ≤ code && code ≤ 90) || (97 ≤ code && code ≤ 122)
  else foldCode false code != code || raiseCode code != code

/-- The small letters that count as the same as a small letter. -/
def alike (ascii : Bool) (code : Nat) : List Nat := if ascii then [code] else likeSmall code

/-- The codes whose lower case is `code`. -/
def preimages (ascii : Bool) (code : Nat) : List Nat :=
  if ascii then (if 97 ≤ code && code ≤ 122 then [code, code - 32] else [code])
  else
    let moved := Text.lowerRuns.filterMap fun run ↦
      let source := ((code : Int) - run.shift).toNat
      if run.covers source && run.target source == code then some source else none
    (if foldCode false code = code then [code] else []) ++ moved ++ (if code = 105 then [304] else [])

/-! ## Classes and sets -/

/-- Whether a character is in a named class. -/
def inClass (flags : PatternFlags) (cls : CharClass) (c : Char) : Bool :=
  match cls with
  | .digit => if flags.unicode then Text.isDecimal c else c.isDigit
  | .space => if flags.unicode then Text.isBlank c else Text.isAsciiBlank c
  | .word => if flags.unicode then Text.isWordChar c else Text.isAsciiWordChar c

/-- Codes below this bound are compared without regard to case; beyond it only ranges are, by both
cases. -/
def foldedBelow : Nat := 0x10000

/-- Whether a member of a set asks for some letter, so that case matters for the set. -/
def isCasedItem (ascii : Bool) : SetItem → Bool
  | .single code => foldedBelow ≤ foldCode ascii code || isCasedCode ascii code
  | .range low high =>
    foldedBelow ≤ high || (List.range' low (high + 1 - low)).any (isCasedCode ascii)
  | .named _ _ => false

/-- Whether a character is a member, case regarded. -/
def isItem (flags : PatternFlags) (c : Char) : SetItem → Bool
  | .single code => c.toNat == code
  | .range low high => low ≤ c.toNat && c.toNat ≤ high
  | .named negated cls => inClass flags cls c != negated

/-- Whether a small letter is the lower case of a member, or alike to one. -/
def isItemFolded (flags : PatternFlags) (small : Char) : SetItem → Bool
  | .single code =>
    let folded := foldCode flags.ascii code
    if folded < foldedBelow then (alike flags.ascii folded).contains small.toNat else small.toNat == code
  | .range low high =>
    ((alike flags.ascii small.toNat).flatMap (preimages flags.ascii)).any
      (fun code ↦ low ≤ code && code ≤ high && code < foldedBelow) ||
    (foldedBelow ≤ high &&
      ((low ≤ small.toNat && small.toNat ≤ high) ||
        (low ≤ raiseCode small.toNat && raiseCode small.toNat ≤ high)))
  | .named negated cls => inClass flags cls small != negated

/-- The lower case of a character of the text. -/
def foldInput (ascii : Bool) (c : Char) : Char := Char.ofNat (foldCode ascii c.toNat)

/-- Whether a character is in a set. -/
def inSet (flags : PatternFlags) (items : List SetItem) (c : Char) : Bool :=
  if flags.ignoreCase && items.any (isCasedItem flags.ascii) then
    items.any (isItemFolded flags (foldInput flags.ascii c))
  else items.any (isItem flags c)

/-- Whether a character is the one with a code. -/
def isCode (flags : PatternFlags) (code : Nat) (c : Char) : Bool :=
  if flags.ignoreCase && isCasedCode flags.ascii code then
    (alike flags.ascii (foldCode flags.ascii code)).contains (foldCode flags.ascii c.toNat)
  else c.toNat == code

end NoteQuery.Pattern
