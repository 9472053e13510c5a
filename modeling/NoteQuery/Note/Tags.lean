import NoteQuery.Text.Blank
import NoteQuery.Text.Case
import NoteQuery.Text.CharClass
import NoteQuery.Text.Distinct
import NoteQuery.Text.Search
import NoteQuery.Value.Mapping
import NoteQuery.Value.Text

/-!
# Tags of a note

Tags are written in the body after a number sign, but not in code blocks, and listed in the front matter
under the key `tags`. A tag is kept in normal form, trimmed, without one leading number sign, in lower
case, and only where it first occurs.
-/

namespace NoteQuery.Tags

/-! ## Code blocks -/

/-- The markers that begin and end a code block. -/
def markers : List (List Char) := [List.replicate 3 '\u0060', List.replicate 3 '~']

/-- The marker with which a line begins, and the text after it. -/
def marker? (cs : List Char) : Option (List Char × List Char) :=
  (markers.find? (·.isPrefixOf cs)).map fun m ↦ (m, cs.drop m.length)

/-- The text after the first marker at the start of a line. -/
def afterMarker? (marker : List Char) (atLineStart : Bool) : List Char → Option (List Char)
  | [] => none
  | c :: rest =>
    if atLineStart && marker.isPrefixOf (c :: rest) then some ((c :: rest).drop marker.length)
    else afterMarker? marker (c == '\n') rest

/-- The text after the code block that begins here, if one does and it ends. -/
def afterBlock? (cs : List Char) : Option (List Char) :=
  (marker? cs).bind fun (m, rest) ↦ afterMarker? m false rest

theorem length_of_afterMarker? {marker cs tail : List Char} {atLineStart : Bool}
    (h : afterMarker? marker atLineStart cs = some tail) : tail.length ≤ cs.length := by
  induction cs generalizing atLineStart with
  | nil => simp [afterMarker?] at h
  | cons c rest ih =>
    rw [afterMarker?] at h
    split at h
    · cases h
      rw [List.length_drop]
      exact Nat.sub_le _ _
    · exact Nat.le_succ_of_le (ih h)

theorem length_lt_of_afterBlock? {c : Char} {rest tail : List Char}
    (h : afterBlock? (c :: rest) = some tail) : tail.length < (c :: rest).length := by
  simp only [afterBlock?, marker?, Option.bind_eq_some_iff, Option.map_eq_some_iff] at h
  obtain ⟨_, ⟨m, hm, rfl⟩, h⟩ := h
  have hlen : 0 < m.length := by
    have := List.mem_of_find?_eq_some hm
    simp only [markers, List.mem_cons, List.not_mem_nil, or_false] at this
    rcases this with rfl | rfl <;> decide
  have := length_of_afterMarker? h
  simp only [List.length_drop, List.length_cons] at this ⊢
  omega

/-- The text without its code blocks. What follows a block is not at the start of a line. -/
def withoutCode (atLineStart : Bool) : List Char → List Char
  | [] => []
  | c :: rest =>
    if atLineStart then
      match _h : afterBlock? (c :: rest) with
      | some tail => withoutCode false tail
      | none => c :: withoutCode (c == '\n') rest
    else c :: withoutCode (c == '\n') rest
termination_by cs => cs.length
decreasing_by
  · exact length_lt_of_afterBlock? _h
  all_goals simp

/-! ## Tags in the body -/

/-- Whether a number sign after a character begins no tag. -/
def bindsTag (c : Char) : Bool := Text.isWordChar c || c == '#' || c == '&' || c == '/'

/-- Whether a character may stand in a tag. -/
def isTagChar (c : Char) : Bool :=
  !(Text.isBlank c || "#[]()\x7b\x7d,;:!?\"'\u0060".toList.contains c)

/-- What follows the number signs that begin a tag. -/
def written (before : Option Char) : List Char → List (List Char)
  | [] => []
  | c :: rest =>
    let run := rest.takeWhile isTagChar
    if c == '#' && !before.any bindsTag && !run.isEmpty then run :: written (some c) rest
    else written (some c) rest

/-- A text without the points at its end. -/
def dropFinalPoints (cs : List Char) : List Char := (cs.reverse.dropWhile (· == '.')).reverse

/-- The tags in a body, as they are written. -/
def inBody (body : List Char) : List (List Char) :=
  (written none (withoutCode true body)).map dropFinalPoints

/-! ## Tags in the front matter -/

/-- Whether a character separates tags that are listed in one text. -/
def separates (c : Char) : Bool := Text.isBlank c || c == ','

/-- The pieces of a text between separators, `piece` being what is already read of the first, last
code point first. Empty pieces are left out. -/
def pieces (piece : List CodePoint) : List CodePoint → List CodeText
  | [] => if piece.isEmpty then [] else [⟨piece.reverse⟩]
  | p :: rest =>
    if separates p.mended then
      if piece.isEmpty then pieces [] rest else ⟨piece.reverse⟩ :: pieces [] rest
    else pieces (p :: piece) rest

mutual

/-- The texts of a value and of the values in it. -/
def texts : Value → List CodeText
  | .null => []
  | .list xs => textsOfAll xs
  | .tuple xs => textsOfAll xs
  | v => [v.text]

/-- The texts of the values of a list. -/
def textsOfAll : List Value → List CodeText
  | [] => []
  | x :: xs => texts x ++ textsOfAll xs

end

/-- The value under the first key that reads `tags`, whatever its case. -/
def listed? (frontmatter : Mapping) : Option Value :=
  (List.find? (fun e ↦ e.1.text.lowercase == ("tags" : CodeText)) frontmatter).map Prod.snd

/-- The tags in front matter, as they are written. A text there lists several. -/
def inFrontmatter (frontmatter : Mapping) : List CodeText :=
  match listed? frontmatter with
  | some (.str s) => pieces [] s.codes
  | some v => texts v
  | none => []

/-- Whether the tags in front matter have texts. -/
def areWritable (frontmatter : Mapping) : Bool := (listed? frontmatter).all (·.isWritable)

/-! ## Normal form -/

/-- What is left of a tag that is trimmed and loses one number sign. -/
def bare (t : CodeText) : CodeText := ⟨Text.dropLeading (CodePoint.char '#') t.trimmed.codes⟩

/-- A tag in normal form; one that is nothing but a number sign is none. -/
def normal? (t : CodeText) : Option CodeText :=
  if (bare t).isEmpty then none else some (bare t).lowercase

/-- The tags of a note, as they are written. -/
def listed (body : String) (frontmatter : Mapping) : List CodeText :=
  (inBody body.toList).map CodeText.ofChars ++ inFrontmatter frontmatter

/-- The tags of a note. -/
def ofNote (body : String) (frontmatter : Mapping) : List CodeText :=
  Text.distinct ((listed body frontmatter).filterMap normal?)

end NoteQuery.Tags
