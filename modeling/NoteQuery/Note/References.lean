import NoteQuery.Text.Blank
import NoteQuery.Text.Distinct

/-!
# References of a note

A link names another note between double square brackets. Behind the name may stand a part of that note,
after `#` or `^`, and a text to show, after a bar. Links are read from left to right and do not overlap.
-/

namespace NoteQuery.References

/-- Whether a character may stand in the name of a note in a link. -/
def isTargetChar (c : Char) : Bool := !(c == ']' || c == '|' || c == '#' || c == '^')

/-- The text behind the part of a note that a link names. -/
def afterPart : List Char → List Char
  | c :: rest => if c == '#' || c == '^' then rest.dropWhile fun d ↦ !(d == ']' || d == '|') else c :: rest
  | [] => []

/-- The text behind what a link shows. -/
def afterShown : List Char → List Char
  | c :: rest => if c == '|' then rest.dropWhile (· != ']') else c :: rest
  | [] => []

/-- The name in a link after its opening brackets, and the text behind the link. -/
def link? (cs : List Char) : Option (List Char × List Char) :=
  match afterShown (afterPart (cs.dropWhile isTargetChar)) with
  | ']' :: ']' :: rest => some (cs.takeWhile isTargetChar, rest)
  | _ => none

theorem length_dropWhile_le (p : Char → Bool) (cs : List Char) :
    (cs.dropWhile p).length ≤ cs.length := (List.dropWhile_sublist p).length_le

theorem length_afterPart_le (cs : List Char) : (afterPart cs).length ≤ cs.length := by
  cases cs with
  | nil => exact Nat.le_refl _
  | cons c rest =>
    rw [afterPart]
    split
    · exact Nat.le_succ_of_le (length_dropWhile_le _ _)
    · exact Nat.le_refl _

theorem length_afterShown_le (cs : List Char) : (afterShown cs).length ≤ cs.length := by
  cases cs with
  | nil => exact Nat.le_refl _
  | cons c rest =>
    rw [afterShown]
    split
    · exact Nat.le_succ_of_le (length_dropWhile_le _ _)
    · exact Nat.le_refl _

theorem length_of_link? {cs target rest : List Char} (h : link? cs = some (target, rest)) :
    rest.length ≤ cs.length := by
  rw [link?] at h
  split at h
  next tail heq =>
    cases h
    have h₁ := length_afterShown_le (afterPart (cs.dropWhile isTargetChar))
    have h₂ := length_afterPart_le (cs.dropWhile isTargetChar)
    have h₃ := length_dropWhile_le isTargetChar cs
    rw [heq] at h₁
    simp only [List.length_cons] at h₁
    omega
  next => simp at h

/-- The names in the links of a text, as they are written. -/
def links : List Char → List (List Char)
  | [] => []
  | ['['] => []
  | '[' :: '[' :: rest =>
    match _h : link? rest with
    | some (target, tail) => target :: links tail
    | none => links ('[' :: rest)
  | _ :: rest => links rest
termination_by cs => cs.length
decreasing_by
  · have := length_of_link? _h
    simp only [List.length_cons]
    omega
  all_goals simp

/-- The notes that a body refers to: the names in its links, trimmed, in order of first occurrence. -/
def ofBody (body : String) : List String :=
  Text.distinct (((links body.toList).map Text.trim).filter (!·.isEmpty) |>.map String.ofList)

end NoteQuery.References
