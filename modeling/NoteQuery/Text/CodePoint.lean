import NoteQuery.Text.Blank
import NoteQuery.Text.Case

/-!
# Texts by their code points

A character beyond sixteen bits has two halves, a high one and a low one, with codes of their own that no
character has. An escape can name such a code, so a text that comes out of front matter or of JSON may hold
halves, alone or side by side. Such a text is a list of code points; one without halves is whole, and is a
`String` by another name.

A half is no letter and no blank. Where a text is compared with what a user has typed each half counts as the
replacement character (`mended`).
-/

namespace NoteQuery

/-- A code point of a text. -/
inductive CodePoint
  /-- A character. -/
  | char (c : Char)
  /-- Half of a character, by its distance from the first one. The first 1024 are high halves. -/
  | half (h : Fin 2048)
deriving Repr, DecidableEq

namespace CodePoint

instance : Coe Char CodePoint := ⟨.char⟩

/-- The code of a code point. -/
def code : CodePoint → Nat
  | char c => c.toNat
  | half h => 0xD800 + h

/-- The code point with a code. -/
def ofCode (code : Nat) : CodePoint :=
  if h : 0xD800 ≤ code ∧ code - 0xD800 < 2048 then half ⟨code - 0xD800, h.2⟩ else char (Char.ofNat code)

/-- Whether a code point is a character. -/
def isChar : CodePoint → Bool
  | char _ => true
  | half _ => false

/-- The character that a code point counts as. -/
def mended : CodePoint → Char
  | char c => c
  | half _ => '\uFFFD'

/-- The character whose halves two code points are, the high one first. -/
def joined? : CodePoint → CodePoint → Option Char
  | half high, half low =>
    if high.val < 1024 ∧ 1024 ≤ low.val then
      some (Char.ofNat (0x10000 + high.val * 1024 + (low.val - 1024)))
    else none
  | _, _ => none

end CodePoint

/-- A text as the list of its code points. -/
structure CodeText where
  /-- The code points. -/
  codes : List CodePoint
deriving Repr, DecidableEq, Inhabited

namespace CodeText

/-! ## Whole texts -/

/-- The text with some characters. -/
def ofChars (cs : List Char) : CodeText := ⟨cs.map .char⟩

/-- A string as a text. -/
@[coe] def ofString (s : String) : CodeText := ofChars s.toList

instance : Coe String CodeText := ⟨ofString⟩

/-- Whether a text holds no half. -/
def isWhole (t : CodeText) : Bool := t.codes.all CodePoint.isChar

/-- The characters that a text counts as. -/
def characters (t : CodeText) : List Char := t.codes.map CodePoint.mended

/-- The string that a text counts as. -/
def mended (t : CodeText) : String := String.ofList t.characters

/-! ## Blanks and case -/

/-- Whether a text is empty. -/
def isEmpty (t : CodeText) : Bool := t.codes.isEmpty

/-- Whether a code point is white space. -/
def isBlankCode (p : CodePoint) : Bool := Text.isBlank p.mended

/-- Whether a text holds nothing but blanks. -/
def isBlank (t : CodeText) : Bool := t.codes.all isBlankCode

/-- The text without blanks at either end. -/
def trimmed (t : CodeText) : CodeText :=
  ⟨((t.codes.dropWhile isBlankCode).reverse.dropWhile isBlankCode).reverse⟩

/-- The lower case of code points behind a run of characters, the last of the run first. What stands on one
side of a half has no say in the case of what stands on the other. -/
def lowerFrom (run : List Char) : List CodePoint → List CodePoint
  | [] => (Text.lower run.reverse).map .char
  | .char c :: rest => lowerFrom (c :: run) rest
  | .half h :: rest => (Text.lower run.reverse).map .char ++ .half h :: lowerFrom [] rest

/-- The lower case of a text. -/
def lowercase (t : CodeText) : CodeText := ⟨lowerFrom [] t.codes⟩

/-! ## Laws -/

@[simp] theorem characters_ofChars (cs : List Char) : (ofChars cs).characters = cs := by
  simp [ofChars, characters, Function.comp_def, CodePoint.mended]

@[simp] theorem characters_ofString (s : String) : (ofString s).characters = s.toList := characters_ofChars _

@[simp] theorem mended_ofString (s : String) : (ofString s).mended = s := by
  rw [mended, characters_ofString, String.ofList_toList]

@[simp] theorem ofChars_inj {cs ds : List Char} : ofChars cs = ofChars ds ↔ cs = ds :=
  ⟨fun h ↦ by simpa using congrArg characters h, congrArg ofChars⟩

@[simp] theorem ofString_inj {s t : String} : ofString s = ofString t ↔ s = t := by
  rw [ofString, ofString, ofChars_inj, String.toList_inj]

@[simp] theorem isEmpty_ofString (s : String) : (ofString s).isEmpty = s.isEmpty := by
  rw [ofString, ofChars, isEmpty, List.isEmpty_map, Bool.eq_iff_iff, List.isEmpty_iff, String.toList_eq_nil_iff,
    String.isEmpty_iff]

@[simp] theorem length_characters (t : CodeText) : t.characters.length = t.codes.length := List.length_map _

theorem ofString_mended {t : CodeText} (h : t.isWhole = true) : ofString t.mended = t := by
  obtain ⟨codes⟩ := t
  rw [ofString, mended, String.toList_ofList, characters, ofChars, mk.injEq, List.map_map]
  refine (List.map_congr_left fun p hp ↦ ?_).trans (List.map_id' codes)
  cases p with
  | char c => rfl
  | half d => exact absurd (List.all_eq_true.mp h _ hp) Bool.false_ne_true

theorem isWhole_ofString (s : String) : (ofString s).isWhole = true := by
  simp [isWhole, ofString, ofChars, CodePoint.isChar]

end CodeText

end NoteQuery
