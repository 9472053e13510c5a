import NoteQuery.Text.Alphabet.Casing

/-!
# Lower and upper case

Case mapping by the full Unicode mappings. Lower case is context dependent in one place only: a
capital sigma that ends a word becomes the final form, any other the medial one. The letters around
it decide, where characters such as apostrophes and combining marks are passed over.
-/

namespace NoteQuery.Text

/-! ## Single characters -/

/-- The lower case of one character, away from the question of a final sigma. -/
def lowerChar (c : Char) : List Char :=
  if c = 'İ' then ['i', '\u0307'] else [Char.ofNat (CaseRun.map lowerRuns c.toNat)]

/-- The upper case of one character. -/
def upperChar (c : Char) : List Char :=
  match upperExpansions.lookup c.toNat with
  | some codes => codes.map Char.ofNat
  | none => [Char.ofNat (CaseRun.map upperRuns c.toNat)]

/-- Whether a character takes part in case and is not passed over at the end of a word. -/
def isCased (c : Char) : Bool := casedRanges.contains c.toNat

/-- Whether a character is passed over when looking for the end of a word. -/
def isCaseIgnorable (c : Char) : Bool := caseIgnorableRanges.contains c.toNat

/-! ## Texts -/

/-- Whether the nearest character that is not passed over has case. -/
def meetsCased (cs : List Char) : Bool :=
  match cs.dropWhile isCaseIgnorable with
  | c :: _ => isCased c
  | [] => false

/-- Lower case of the rest of a text, given what stands before it, nearest character first. -/
def lowerFrom (before : List Char) : List Char → List Char
  | [] => []
  | c :: rest =>
    (if c = 'Σ' then [if meetsCased before && !meetsCased rest then 'ς' else 'σ'] else lowerChar c) ++
      lowerFrom (c :: before) rest

/-- The lower case of a text. -/
def lower (cs : List Char) : List Char := lowerFrom [] cs

/-- The upper case of a text. -/
def upper (cs : List Char) : List Char := cs.flatMap upperChar

/-- The lower case of a text. -/
def lowercase (s : String) : String := String.ofList (lower s.toList)

/-- The upper case of a text. -/
def uppercase (s : String) : String := String.ofList (upper s.toList)

/-! ## Comparing without regard to case -/

/-- The one character that stands for a character when case is disregarded: the first of its lower
case. -/
def foldChar (c : Char) : Char := (lowerChar c).headD c

/-- The first character of the upper case. -/
def raiseChar (c : Char) : Char := (upperChar c).headD c

end NoteQuery.Text
