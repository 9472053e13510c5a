import NoteQuery.Note.Tags
import NoteQuery.Proofs.Text.Splitting

/-!
# Code blocks

A code block begins and ends at two lines that begin with the same marker. The reader of blocks goes from
character to character. Here it is taken from line to line: a line that does not begin with a marker is passed
over in one step (`afterMarker?_line`, `withoutCode_line`), and so is a text of such lines. A marker holds no
line break, so that the lines below a line have no say in whether a marker begins it.

So a block whose lines do not begin with its marker ends at the closing one, and of its last line only the line
break is left. The lines below it are read as if there had been an empty line in its place, other blocks among
them (`ofNote_append_block`).
-/

namespace NoteQuery.Tags

variable {m line cs : List Char}

/-! ## Markers -/

/-- Whether a text has a line that begins with a marker. -/
def HasMarkedLine (marker cs : List Char) : Prop := ∃ line ∈ Text.splitOn '\n' cs, marker <+: line

theorem hasMarkedLine_line_iff (hline : '\n' ∉ line) : HasMarkedLine m line ↔ m <+: line := by
  rw [HasMarkedLine, Text.splitOn_of_not_mem hline]
  simp

theorem hasMarkedLine_append_iff (cs rest : List Char) :
    HasMarkedLine m (cs ++ '\n' :: rest) ↔ HasMarkedLine m cs ∨ HasMarkedLine m rest := by
  simp only [HasMarkedLine, Text.splitOn_append_sep, List.mem_append, or_and_right, exists_or]

theorem newline_notMem_of_mem_markers (h : m ∈ markers) : '\n' ∉ m := by
  simp only [markers, List.mem_cons, List.not_mem_nil, or_false] at h
  rcases h with rfl | rfl <;> decide

theorem length_of_mem_markers (h : m ∈ markers) : m.length = 3 := by
  simp only [markers, List.mem_cons, List.not_mem_nil, or_false] at h
  rcases h with rfl | rfl <;> rfl

theorem ne_nil_of_mem_markers (h : m ∈ markers) : m ≠ [] := by
  rintro rfl
  cases length_of_mem_markers h

theorem eq_of_prefix_of_mem_markers {m' rest : List Char} (h : m ∈ markers) (h' : m' ∈ markers)
    (hbegins : m' <+: m ++ rest) : m' = m := by
  have hsame : m'.length = m.length := (length_of_mem_markers h').trans (length_of_mem_markers h).symm
  have hm : m' <+: m :=
    List.prefix_of_prefix_length_le hbegins (List.prefix_append m rest) (Nat.le_of_eq hsame)
  exact hm.eq_of_length hsame

theorem prefix_line_of_prefix_lines (hm : '\n' ∉ m) {more : List Char} (h : m <+: line ++ '\n' :: more) :
    m <+: line := by
  rcases List.prefix_or_prefix_of_prefix h (List.prefix_append line ('\n' :: more)) with hline | ⟨behind, rfl⟩
  · exact hline
  · have hbehind := (List.prefix_append_right_inj line).mp h
    cases behind with
    | nil => simp
    | cons c behind =>
      obtain ⟨rfl, -⟩ := List.cons_prefix_cons.mp hbehind
      simp at hm

/-! ## The search for a marker -/

theorem afterMarker?_append (hm : m ≠ []) (rest : List Char) :
    afterMarker? m true (m ++ rest) = some rest := by
  obtain ⟨c, tail, rfl⟩ := List.exists_cons_of_ne_nil hm
  have hbegins : (c :: tail).isPrefixOf (c :: (tail ++ rest)) = true :=
    List.isPrefixOf_iff_prefix.mpr (List.prefix_append (c :: tail) rest)
  rw [List.cons_append, afterMarker?, hbegins, Bool.true_and, if_pos rfl, ← List.cons_append, List.drop_left]

theorem afterMarker?_of_unmarked (h : ¬m <+: cs) : afterMarker? m true cs = afterMarker? m false cs := by
  cases cs with
  | nil => rfl
  | cons c cs =>
    rw [← List.isPrefixOf_iff_prefix] at h
    rw [afterMarker?, afterMarker?, Bool.true_and, Bool.false_and, if_neg h, if_neg Bool.false_ne_true]

theorem afterMarker?_within (hline : '\n' ∉ line) (more : List Char) :
    afterMarker? m false (line ++ '\n' :: more) = afterMarker? m true more := by
  induction line with
  | nil => rfl
  | cons c line ih =>
    rw [List.mem_cons, not_or] at hline
    rw [List.cons_append, afterMarker?, Bool.false_and, if_neg Bool.false_ne_true,
      beq_eq_false_iff_ne.mpr (Ne.symm hline.1), ih hline.2]

theorem afterMarker?_line (hm : '\n' ∉ m) (hline : '\n' ∉ line) (h : ¬m <+: line) (more : List Char) :
    afterMarker? m true (line ++ '\n' :: more) = afterMarker? m true more := by
  rw [afterMarker?_of_unmarked (mt (prefix_line_of_prefix_lines hm) h), afterMarker?_within hline]

theorem afterMarker?_lines (hm : '\n' ∉ m) (h : ¬HasMarkedLine m cs) (more : List Char) :
    afterMarker? m true (cs ++ '\n' :: more) = afterMarker? m true more := by
  induction cs using Text.piece_induction '\n' with
  | last line hline =>
    rw [hasMarkedLine_line_iff hline] at h
    exact afterMarker?_line hm hline h more
  | cons line cs hline ih =>
    rw [hasMarkedLine_append_iff, not_or, hasMarkedLine_line_iff hline] at h
    rw [List.append_assoc, List.cons_append, afterMarker?_line hm hline h.1, ih h.2]

/-! ## Blocks -/

theorem marker?_append (hm : m ∈ markers) (rest : List Char) : marker? (m ++ rest) = some (m, rest) := by
  have hfound : (markers.find? (·.isPrefixOf (m ++ rest))).isSome = true := by
    rw [List.find?_isSome]
    exact ⟨m, hm, List.isPrefixOf_iff_prefix.mpr (List.prefix_append m rest)⟩
  obtain ⟨m', hm'⟩ := Option.isSome_iff_exists.mp hfound
  have hbegins := List.find?_some hm'
  rw [List.isPrefixOf_iff_prefix] at hbegins
  have hsame : m' = m := eq_of_prefix_of_mem_markers hm (List.mem_of_find?_eq_some hm') hbegins
  rw [marker?, hm', hsame, Option.map_some, List.drop_left]

theorem afterBlock?_block (hm : m ∈ markers) {info content : List Char} (hinfo : '\n' ∉ info)
    (hcontent : ¬HasMarkedLine m content) (rest : List Char) :
    afterBlock? (m ++ (info ++ '\n' :: (content ++ '\n' :: (m ++ rest)))) = some rest := by
  calc afterBlock? (m ++ (info ++ '\n' :: (content ++ '\n' :: (m ++ rest))))
      = afterMarker? m false (info ++ '\n' :: (content ++ '\n' :: (m ++ rest))) := by
        rw [afterBlock?, marker?_append hm, Option.bind_some]
    _ = afterMarker? m true (content ++ '\n' :: (m ++ rest)) := afterMarker?_within hinfo _
    _ = afterMarker? m true (m ++ rest) := afterMarker?_lines (newline_notMem_of_mem_markers hm) hcontent _
    _ = some rest := afterMarker?_append (ne_nil_of_mem_markers hm) rest

theorem afterBlock?_eq_none (h : ∀ m ∈ markers, ¬m <+: cs) : afterBlock? cs = none := by
  have hfind : markers.find? (·.isPrefixOf cs) = none := by
    rw [List.find?_eq_none]
    exact fun m hm ↦ mt List.isPrefixOf_iff_prefix.mp (h m hm)
  rw [afterBlock?, marker?, hfind, Option.map_none, Option.bind_none]

theorem withoutCode_of_eq_none (h : afterBlock? cs = none) : withoutCode true cs = withoutCode false cs := by
  cases cs with
  | nil => rw [withoutCode, withoutCode]
  | cons c cs =>
    rw [withoutCode, withoutCode, if_pos rfl, if_neg Bool.false_ne_true]
    split
    · rename_i h'
      cases h'.symm.trans h
    · rfl

theorem withoutCode_of_eq_some {rest : List Char} (h : afterBlock? cs = some rest) :
    withoutCode true cs = withoutCode false rest := by
  cases cs with
  | nil => cases h
  | cons c cs =>
    rw [withoutCode, if_pos rfl]
    split
    · rename_i h'
      rw [Option.some.inj (h'.symm.trans h)]
    · rename_i h'
      cases h'.symm.trans h

theorem withoutCode_within (hline : '\n' ∉ line) (more : List Char) :
    withoutCode false (line ++ '\n' :: more) = line ++ '\n' :: withoutCode true more := by
  induction line with
  | nil => rw [List.nil_append, withoutCode]; rfl
  | cons c line ih =>
    rw [List.mem_cons, not_or] at hline
    rw [List.cons_append, withoutCode, if_neg Bool.false_ne_true, beq_eq_false_iff_ne.mpr (Ne.symm hline.1),
      ih hline.2, List.cons_append]

theorem withoutCode_line (hline : '\n' ∉ line) (h : ∀ m ∈ markers, ¬m <+: line) (more : List Char) :
    withoutCode true (line ++ '\n' :: more) = line ++ '\n' :: withoutCode true more := by
  have hnone : afterBlock? (line ++ '\n' :: more) = none :=
    afterBlock?_eq_none fun m hm ↦ mt (prefix_line_of_prefix_lines (newline_notMem_of_mem_markers hm)) (h m hm)
  rw [withoutCode_of_eq_none hnone, withoutCode_within hline]

theorem withoutCode_lines (h : ∀ m ∈ markers, ¬HasMarkedLine m cs) (more : List Char) :
    withoutCode true (cs ++ '\n' :: more) = cs ++ '\n' :: withoutCode true more := by
  induction cs using Text.piece_induction '\n' with
  | last line hline =>
    simp only [hasMarkedLine_line_iff hline] at h
    exact withoutCode_line hline h more
  | cons line cs hline ih =>
    simp only [hasMarkedLine_append_iff, hasMarkedLine_line_iff hline, not_or] at h
    rw [List.append_assoc, List.cons_append, withoutCode_line hline fun m hm ↦ (h m hm).1,
      ih fun m hm ↦ (h m hm).2, List.append_assoc, List.cons_append]

theorem withoutCode_block (hm : m ∈ markers) {before info content : List Char}
    (hends : before = [] ∨ before.getLast? = some '\n') (hbefore : ∀ m ∈ markers, ¬HasMarkedLine m before)
    (hinfo : '\n' ∉ info) (hcontent : ¬HasMarkedLine m content) (rest : List Char) :
    withoutCode true (before ++ (m ++ (info ++ '\n' :: (content ++ '\n' :: (m ++ '\n' :: rest))))) =
      withoutCode true (before ++ '\n' :: rest) := by
  have hblock : withoutCode true (m ++ (info ++ '\n' :: (content ++ '\n' :: (m ++ '\n' :: rest)))) =
      withoutCode true ('\n' :: rest) := by
    have hempty : ∀ m ∈ markers, ¬m <+: [] := fun m hm hnil ↦
      ne_nil_of_mem_markers hm (List.prefix_nil.mp hnil)
    rw [withoutCode_of_eq_some (afterBlock?_block hm hinfo hcontent _)]
    exact (withoutCode_within List.not_mem_nil rest).trans
      (withoutCode_line List.not_mem_nil hempty rest).symm
  rcases hends with rfl | hlast
  · exact hblock
  · obtain ⟨lines, rfl⟩ := List.getLast?_eq_some_iff.mp hlast
    simp only [hasMarkedLine_append_iff, not_or] at hbefore
    simp only [List.append_assoc, List.singleton_append, withoutCode_lines fun m hm ↦ (hbefore m hm).1, hblock]

/-- **Code blocks.** A code block that stands behind lines without markers has no tags. The tags of a note with
the block are those of the note with a line break in its place, whatever follows. -/
theorem ofNote_append_block {marker before info content : String} (hmarker : marker ∈ ["```", "~~~"])
    (hends : before = "" ∨ before.toList.getLast? = some '\n')
    (hbefore : ∀ m ∈ ["```", "~~~"], ¬HasMarkedLine m.toList before.toList) (hinfo : '\n' ∉ info.toList)
    (hcontent : ¬HasMarkedLine marker.toList content.toList) (rest : String) (frontmatter : Mapping) :
    ofNote (before ++ marker ++ info ++ "\n" ++ content ++ "\n" ++ marker ++ "\n" ++ rest) frontmatter =
      ofNote (before ++ "\n" ++ rest) frontmatter := by
  have hmarkers : ["```", "~~~"].map String.toList = markers := rfl
  have hm : marker.toList ∈ markers := hmarkers ▸ List.mem_map_of_mem hmarker
  have hp : ∀ m ∈ markers, ¬HasMarkedLine m before.toList := by
    rw [← hmarkers, List.forall_mem_map]
    exact hbefore
  have hnil : before.toList = [] ∨ before.toList.getLast? = some '\n' :=
    hends.imp_left fun h ↦ String.toList_eq_nil_iff.mpr h
  have hcode := withoutCode_block hm hnil hp hinfo hcontent rest.toList
  have hblock : (before ++ marker ++ info ++ "\n" ++ content ++ "\n" ++ marker ++ "\n" ++ rest).toList =
      before.toList ++ (marker.toList ++
        (info.toList ++ '\n' :: (content.toList ++ '\n' :: (marker.toList ++ '\n' :: rest.toList)))) := by simp
  have hbreak : (before ++ "\n" ++ rest).toList = before.toList ++ '\n' :: rest.toList := by simp
  rw [ofNote, ofNote, listed, listed, inBody, inBody, hblock, hbreak, hcode]

/-- A marker of the other kind in a block does not end it, and a further one behind it begins nothing. -/
theorem ofNote_append_block_of_markers :
    ("~~~" ∈ ["```", "~~~"] ∧ (∀ m ∈ ["```", "~~~"], ¬HasMarkedLine m.toList "#a\n".toList) ∧
      ¬HasMarkedLine "~~~".toList "#b\n```\n ~~~".toList) ∧
    ofNote ("#a\n" ++ "~~~" ++ " #x" ++ "\n" ++ "#b\n```\n ~~~" ++ "\n" ++ "~~~" ++ "\n" ++ "```\n#c")
      [(.str "Tags", .str "d")] = ["a", "c", "d"] := by
  have hmarker : "~~~" ∈ ["```", "~~~"] := by decide
  have hbefore : ∀ m ∈ ["```", "~~~"], ¬HasMarkedLine m.toList "#a\n".toList := by
    unfold HasMarkedLine
    decide
  have hcontent : ¬HasMarkedLine "~~~".toList "#b\n```\n ~~~".toList := by
    unfold HasMarkedLine
    decide
  refine ⟨⟨hmarker, hbefore, hcontent⟩, ?_⟩
  rw [ofNote_append_block hmarker (.inr (by decide)) hbefore (by decide) hcontent]
  decide +kernel

end NoteQuery.Tags
