import NoteQuery.Proofs.Note.Links
import NoteQuery.Proofs.Text.Distinct

/-!
# Reading written links

A text is written from prose and links in turn. Prose may hold single opening brackets, but not two in a row,
and does not end with one, so that the first two opening brackets behind it are those of the next link. The
link ends with the first closing bracket behind them, for there is none in its name, in the part of the note
it points at or in the text it shows. So a text is read piece by piece as it was written, and its links bear
the names they were given (`links_written`). What else stands in a link has no effect, not even further
opening brackets.

A piece of prose may be empty, so links may begin the text, end it and follow one another at once.
-/

namespace NoteQuery.References

/-- A piece of a text without links. -/
structure Prose where
  /-- The characters of the piece. -/
  chars : List Char
  /-- No two opening brackets stand in it. -/
  not_opening : ¬['[', '['] <:+: chars
  /-- It does not end with an opening bracket. -/
  getLast?_ne : chars.getLast? ≠ some '['

/-- A link, in the parts it is written from. -/
structure Link where
  /-- Whether an exclamation mark stands before it. -/
  isEmbedded : Bool
  /-- The name of the other note. -/
  target : List Char
  /-- The part of that note, with the sign before it. -/
  part : Option (Char × List Char)
  /-- The text to show. -/
  shown : Option (List Char)
  /-- No character of the name ends it. -/
  target_plain : ∀ c ∈ target, c ∉ [']', '|', '#', '^']
  /-- One of two signs begins a part, and no character of it ends it. -/
  part_plain : ∀ p ∈ part, p.1 ∈ ['#', '^'] ∧ ∀ c ∈ p.2, c ∉ [']', '|']
  /-- No closing bracket is shown. -/
  shown_plain : ∀ text ∈ shown, ']' ∉ text

namespace Link

/-- What stands behind the name. -/
def behind (l : Link) : List Char := (l.part.elim [] fun p ↦ p.1 :: p.2) ++ l.shown.elim [] ('|' :: ·)

/-- A link as it stands in a text. -/
def text (l : Link) : List Char :=
  (if l.isEmbedded then ['!'] else []) ++ '[' :: '[' :: (l.target ++ l.behind ++ [']', ']'])

variable (l : Link)

theorem isTargetChar_of_mem {c : Char} (h : c ∈ l.target) : isTargetChar c = true := by
  have hplain := l.target_plain c h
  rw [← Bool.not_eq_false, isTargetChar_eq_false_iff]
  simpa using hplain

theorem closing_notMem_behind : ']' ∉ l.behind := by
  have hpart := l.part_plain
  have hshown := l.shown_plain
  rw [behind, List.mem_append, not_or]
  constructor
  · cases h : l.part with
    | none => exact List.not_mem_nil
    | some p =>
      obtain ⟨hsign, hplain⟩ := hpart p h
      rw [Option.elim_some, List.mem_cons, not_or]
      refine ⟨?_, fun hmem ↦ hplain _ hmem (by simp)⟩
      rintro hc
      simp [← hc] at hsign
  · cases h : l.shown with
    | none => exact List.not_mem_nil
    | some shown => simpa using hshown shown h

theorem closing_notMem : ']' ∉ l.target ++ l.behind := by
  rw [List.mem_append, not_or]
  exact ⟨fun hmem ↦ l.target_plain _ hmem (by simp), l.closing_notMem_behind⟩

theorem takeWhile_behind : l.behind.takeWhile isTargetChar = [] := by
  have hpart := l.part_plain
  rw [behind]
  cases h : l.part with
  | none =>
    cases l.shown with
    | none => rfl
    | some shown => rfl
  | some p =>
    have hsign : isTargetChar p.1 = false := by
      have hmem := (hpart p h).1
      rw [isTargetChar_eq_false_iff]
      exact .inr (.inr (by simpa using hmem))
    rw [Option.elim_some, List.cons_append, List.takeWhile_cons_of_neg (by simp [hsign])]

/-- **Reading a link.** A link is read to its end, and its name is the one it was written with. -/
theorem links_text_append (rest : List Char) : links (l.text ++ rest) = l.target :: links rest := by
  have hopening : links ('[' :: '[' :: (l.target ++ l.behind ++ ([']', ']'] ++ rest))) = l.target :: links rest := by
    rw [List.cons_append, List.singleton_append, links_opening_of_eq_some (link?_closed l.closing_notMem rest),
      List.takeWhile_append_of_pos fun c hc ↦ l.isTargetChar_of_mem hc, takeWhile_behind, List.append_nil]
  rw [← List.append_assoc] at hopening
  rw [text]
  cases l.isEmbedded with
  | false => exact hopening
  | true => exact (links_cons (by simp)).trans hopening

end Link

/-- Prose is passed over, whatever follows it. -/
theorem Prose.links_append (p : Prose) (rest : List Char) : links (p.chars ++ rest) = links rest := by
  obtain ⟨cs, hopening, hlast⟩ := p
  induction cs with
  | nil => rfl
  | cons c cs ih =>
    have hskip : c = '[' → (cs ++ rest).head? ≠ some '[' := by
      rintro rfl
      cases cs with
      | nil => exact absurd rfl hlast
      | cons d cs =>
        rintro hd
        obtain rfl : d = '[' := Option.some.inj hd
        exact absurd ⟨[], cs, rfl⟩ hopening
    have htail : cs.getLast? ≠ some '[' := by
      cases cs with
      | nil => simp
      | cons d cs => rwa [List.getLast?_cons_cons] at hlast
    exact (links_cons hskip).trans (ih (fun h ↦ hopening (h.trans (List.suffix_cons c cs).isInfix)) htail)

/-- A text of prose and links in turn, with prose at its end. -/
def written (pieces : List (Prose × Link)) (last : Prose) : List Char :=
  pieces.flatMap (fun p ↦ p.1.chars ++ p.2.text) ++ last.chars

theorem links_written (pieces : List (Prose × Link)) (last : Prose) :
    links (written pieces last) = pieces.map fun p ↦ p.2.target := by
  induction pieces with
  | nil =>
    rw [written, List.flatMap_nil, List.nil_append, ← List.append_nil last.chars, last.links_append, links,
      List.map_nil]
  | cons p pieces ih =>
    have hstep : written (p :: pieces) last = p.1.chars ++ (p.2.text ++ written pieces last) := by
      simp only [written, List.flatMap_cons, List.append_assoc]
    rw [hstep, p.1.links_append, p.2.links_text_append, ih, List.map_cons]

/-- The references of a text are the names in its links, trimmed, that are not empty, without repetition. -/
theorem ofBody_eq_eraseDups (body : String) : ofBody body =
    (((links body.toList).map fun name ↦ Text.trimmed (String.ofList name)).filter (· ≠ "")).eraseDups := by
  have hblank (name : List Char) : (!(Text.trim name).isEmpty) =
      decide (Text.trimmed (String.ofList name) ≠ "") := by
    rw [Text.trimmed, String.toList_ofList]
    cases Text.trim name <;> simp
  rw [ofBody, Text.distinct_eq_eraseDups, List.filter_map, List.filter_map, List.map_map]
  simp only [Function.comp_def, hblank, Text.trimmed, String.toList_ofList]

/-- **Written links.** The references in a text of prose and links are the names of the links without blanks
at the ends, less those that are nothing but blanks, each where it first occurs. -/
theorem ofBody_written (pieces : List (Prose × Link)) (last : Prose) :
    ofBody (String.ofList (written pieces last)) =
      ((pieces.map fun p ↦ Text.trimmed (String.ofList p.2.target)).filter (· ≠ "")).eraseDups := by
  rw [ofBody_eq_eraseDups, String.toList_ofList, links_written, List.map_map]
  rfl

/-- Opening brackets stand in all parts of a link, and a single one in the prose before it. -/
theorem ofBody_written_of_brackets : ofBody "[x] ![[[a#b[[|c[[d]][[ [a ]]" = ["[a"] := by
  have hread := ofBody_written
    [(⟨['[', 'x', ']', ' '], by decide, by decide⟩,
        ⟨true, ['[', 'a'], some ('#', ['b', '[', '[']), some ['c', '[', '[', 'd'], by simp, by simp, by simp⟩),
      (⟨[], by decide, by decide⟩, ⟨false, [' ', '[', 'a', ' '], none, none, by simp, by simp, by simp⟩)]
    ⟨[], by decide, by decide⟩
  exact hread.trans (by decide +kernel)

end NoteQuery.References
