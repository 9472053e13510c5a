import NoteQuery.Pattern.Literal

/-!
# Openings of named groups

A literal may open a named group by `(?<`, which is respelled `(?P<` before the body is read. The
respelling looks at characters, a reader of the body at pieces. Where no escaped parenthesis is taken for
such an opening, both see the same: the pieces of the respelled body are the pieces of the body, with a
letter more in each opening (`pieces_openNamedGroups`).

Readers that pass over a part of a pattern without looking at it, such as those of comments, pass over the
same part of the respelled pattern.
-/

namespace NoteQuery.Pattern

/-- Whether a parenthesis before these pieces is taken for the opening of a named group. -/
def namesGroup : List Piece → Bool
  | .plain '?' :: .plain '<' :: rest => rest.head? != some (.plain '=') && rest.head? != some (.plain '!')
  | _ => false

/-- The pieces with a letter more in each opening of a named group. -/
def respell : List Piece → List Piece
  | [] => []
  | p :: rest =>
    if p = .plain '(' ∧ namesGroup rest = true then p :: .plain '?' :: .plain 'P' :: (respell rest).tail
    else p :: respell rest

theorem exists_of_namesGroup {ps : List Piece} (h : namesGroup ps = true) :
    ∃ rest, ps = .plain '?' :: .plain '<' :: rest ∧ rest.head? ≠ some (.plain '=') ∧
      rest.head? ≠ some (.plain '!') := by
  unfold namesGroup at h
  split at h
  · rename_i rest
    rw [Bool.and_eq_true, bne_iff_ne, bne_iff_ne] at h
    exact ⟨rest, rfl, h.1, h.2⟩
  · cases h

theorem respell_of_opening {rest : List Piece} (h : namesGroup rest = true) :
    respell (.plain '(' :: rest) = .plain '(' :: .plain '?' :: .plain 'P' :: (respell rest).tail := by
  rw [respell, if_pos ⟨rfl, h⟩]

theorem respell_cons {p : Piece} {rest : List Piece} (h : p = .plain '(' → namesGroup rest = false) :
    respell (p :: rest) = p :: respell rest := by
  rw [respell, if_neg]
  rintro ⟨hp, hrest⟩
  rw [h hp] at hrest
  cases hrest

theorem respell_cons_of_ne {p : Piece} (h : p ≠ .plain '(') (rest : List Piece) :
    respell (p :: rest) = p :: respell rest :=
  respell_cons fun hp ↦ absurd hp h

/-- What stands behind the parenthesis of an opening begins with a question mark. -/
theorem respell_eq_cons_tail {rest : List Piece} (h : namesGroup rest = true) :
    respell rest = .plain '?' :: (respell rest).tail := by
  obtain ⟨tail, rfl, -⟩ := exists_of_namesGroup h
  rw [respell_cons_of_ne (by decide), List.tail_cons]

theorem tail_respell {ps : List Piece} (h : ps.head? = some (.plain '(') → namesGroup ps.tail = false) :
    (respell ps).tail = respell ps.tail := by
  cases ps with
  | nil => rfl
  | cons p rest =>
    have hcons : respell (p :: rest) = p :: respell rest := respell_cons fun hp ↦ h (congrArg some hp)
    rw [hcons]
    rfl

theorem head?_respell (ps : List Piece) : (respell ps).head? = ps.head? := by
  cases ps with
  | nil => rfl
  | cons p rest =>
    rw [respell]
    split <;> rfl

theorem length_le_length_respell (ps : List Piece) : ps.length ≤ (respell ps).length := by
  induction ps with
  | nil => exact Nat.le_refl _
  | cons p rest ih =>
    rw [respell]
    split
    · simp only [List.length_cons, List.length_tail]
      omega
    · simpa using ih

/-! ## Sets -/

/-- Whether every bracket that may open a set has one behind it that would close the set: one that does not
come first in it. -/
def ClosesSets (ps : List Piece) : Prop :=
  ∀ u v, ps = u ++ .plain '[' :: v → ∃ x y, v = x ++ .plain ']' :: y ∧ x ≠ [] ∧ x ≠ [.plain '^']

/-- Whether all openings of named groups stand outside sets. -/
def OpensOutsideSets (ps : List Piece) : Prop :=
  ∀ u v, ps = u ++ .plain '(' :: v → namesGroup v = true → ClosesSets u

/-- Whether every opening of a named group has a bracket before it that is not among the first `skip`
pieces and closes a set. -/
def OpensBehindBracket (skip : Nat) (ps : List Piece) : Prop :=
  ∀ u v, ps = u ++ .plain '(' :: v → namesGroup v = true → .plain ']' ∈ u.drop skip

theorem take_append_cons_drop {α : Type} {l : List α} {a : α} {i : Fin l.length} (hi : l[i] = a) :
    l = l.take i ++ a :: l.drop (i + 1) := by
  rw [← hi, Fin.getElem_fin, List.getElem_cons_drop, List.take_append_drop]

theorem forall_eq_append_cons_iff {α : Type} {l : List α} {a : α} {P : List α → List α → Prop} :
    (∀ u v, l = u ++ a :: v → P u v) ↔ ∀ i : Fin l.length, l[i] = a → P (l.take i) (l.drop (i + 1)) := by
  constructor
  · exact fun h i hi ↦ h _ _ (take_append_cons_drop hi)
  · rintro h u v rfl
    have hi := h ⟨u.length, by simp⟩ (by simp)
    simpa using hi

theorem exists_eq_append_cons_iff {α : Type} {l : List α} {a : α} {P : List α → Prop} :
    (∃ u v, l = u ++ a :: v ∧ P u) ↔ ∃ i : Fin l.length, l[i] = a ∧ P (l.take i) := by
  constructor
  · rintro ⟨u, v, rfl, hu⟩
    exact ⟨⟨u.length, by simp⟩, by simp, by simpa using hu⟩
  · rintro ⟨i, hi, hP⟩
    exact ⟨_, _, take_append_cons_drop hi, hP⟩

instance : DecidablePred ClosesSets := fun _ ↦
  have (v : List Piece) : Decidable (∃ x y, v = x ++ .plain ']' :: y ∧ x ≠ [] ∧ x ≠ [.plain '^']) :=
    decidable_of_iff _ exists_eq_append_cons_iff.symm
  decidable_of_iff _ forall_eq_append_cons_iff.symm

instance : DecidablePred OpensOutsideSets := fun _ ↦ decidable_of_iff _ forall_eq_append_cons_iff.symm

theorem OpensOutsideSets.of_append {u ps : List Piece} (h : OpensOutsideSets (u ++ ps)) :
    OpensOutsideSets ps := by
  rintro x y rfl hnames v w rfl
  exact h (u ++ (v ++ .plain '[' :: w)) y (by simp) hnames (u ++ v) w (by simp)

theorem OpensOutsideSets.of_cons {p : Piece} {ps : List Piece} (h : OpensOutsideSets (p :: ps)) :
    OpensOutsideSets ps :=
  OpensOutsideSets.of_append (u := [p]) h

theorem OpensOutsideSets.of_suffix {ps ps' : List Piece} (h : OpensOutsideSets ps) (hsuffix : ps' <:+ ps) :
    OpensOutsideSets ps' := by
  obtain ⟨u, rfl⟩ := hsuffix
  exact h.of_append

/-- In a set no opening of a named group comes before the bracket that closes it. -/
theorem OpensOutsideSets.opensBehindBracket {ps : List Piece} (h : OpensOutsideSets (.plain '[' :: ps))
    (hnegated : ps.head? ≠ some (.plain '^')) : OpensBehindBracket 1 ps := by
  rintro u v rfl hnames
  obtain ⟨x, y, rfl, hne, -⟩ := h (.plain '[' :: u) v rfl hnames [] u rfl
  obtain ⟨p, x, rfl⟩ := List.exists_cons_of_ne_nil hne
  simp

theorem OpensOutsideSets.opensBehindBracket_negated {ps : List Piece}
    (h : OpensOutsideSets (.plain '[' :: .plain '^' :: ps)) : OpensBehindBracket 1 ps := by
  rintro u v rfl hnames
  obtain ⟨x, y, hu, hne, hne'⟩ := h (.plain '[' :: .plain '^' :: u) v rfl hnames [] (.plain '^' :: u) rfl
  obtain ⟨p, x, rfl⟩ := List.exists_cons_of_ne_nil hne
  obtain ⟨rfl, rfl⟩ := List.cons.inj hu
  obtain ⟨p, x, rfl⟩ := List.exists_cons_of_ne_nil (l := x) (fun hx ↦ hne' (by rw [hx]))
  simp

theorem OpensBehindBracket.of_cons {p : Piece} {ps : List Piece} (h : OpensBehindBracket 0 (p :: ps))
    (hp : p ≠ .plain ']') : OpensBehindBracket 0 ps := by
  rintro u v rfl hnames
  have hmem := h (p :: u) v rfl hnames
  rw [List.drop_zero, List.mem_cons] at hmem
  exact hmem.resolve_left fun heq ↦ hp heq.symm

theorem OpensBehindBracket.of_cons_first {p : Piece} {ps : List Piece}
    (h : OpensBehindBracket 1 (p :: ps)) : OpensBehindBracket 0 ps := by
  rintro u v rfl hnames
  exact h (p :: u) v rfl hnames

theorem OpensBehindBracket.namesGroup_eq_false {skip : Nat} {rest : List Piece}
    (h : OpensBehindBracket skip (.plain '(' :: rest)) : namesGroup rest = false := by
  refine eq_false_of_ne_true fun hnames ↦ ?_
  have hmem := h [] rest rfl hnames
  simp at hmem

/-! ## Parts that are passed over -/

theorem before_cons_of_ne {stop : Char} {p : Piece} (h : p ≠ .plain stop) (rest : List Piece) :
    Reader.before stop (p :: rest)
      = (Reader.before stop rest).map fun (cs, after) ↦ (p.chars ++ cs, after) := by
  rw [Reader.before, if_neg h]

/-- Up to a character that is in no opening, a part of the respelled pieces is passed over where one of the
pieces is, and it is the same if it has no parenthesis. -/
theorem exists_before_respell {stop : Char} (hstop : stop ∉ ['(', '?', 'P']) {ps after : List Piece}
    {cs : List Char} (h : Reader.before stop ps = some (cs, after)) :
    ∃ cs', Reader.before stop (respell ps) = some (cs', respell after) ∧ ('(' ∉ cs → cs' = cs) := by
  have hne : ∀ c ∈ ['(', '?', 'P'], Piece.plain c ≠ .plain stop := by
    intro c hc heq
    exact hstop (Piece.plain.inj heq ▸ hc)
  induction ps generalizing cs with
  | nil => cases h
  | cons p rest ih =>
    by_cases hp : p = .plain stop
    · rw [Reader.before, if_pos hp] at h
      obtain ⟨rfl, rfl⟩ := Prod.mk.inj (Option.some.inj h)
      have hpar : p ≠ .plain '(' := fun hpar ↦ hne '(' (by simp) (hpar.symm.trans hp)
      exact ⟨[], by rw [respell_cons_of_ne hpar, Reader.before, if_pos hp], fun _ ↦ rfl⟩
    · rw [before_cons_of_ne hp] at h
      obtain ⟨⟨cs, after⟩, hbefore, hfound⟩ := Option.map_eq_some_iff.mp h
      obtain ⟨rfl, rfl⟩ := Prod.mk.inj hfound
      obtain ⟨cs', hcs', hsame⟩ := ih hbefore
      by_cases hopening : p = .plain '(' ∧ namesGroup rest = true
      · -- the letter more is passed over as well
        obtain ⟨rfl, hnames⟩ := hopening
        rw [respell_eq_cons_tail hnames, before_cons_of_ne (hne '?' (by simp))] at hcs'
        obtain ⟨⟨cs'', after'⟩, hbefore', hfound'⟩ := Option.map_eq_some_iff.mp hcs'
        obtain ⟨-, rfl⟩ := Prod.mk.inj hfound'
        refine ⟨'(' :: '?' :: 'P' :: cs'', ?_, fun hpar ↦ absurd List.mem_cons_self hpar⟩
        rw [respell_of_opening hnames, before_cons_of_ne hp, before_cons_of_ne (hne '?' (by simp)),
          before_cons_of_ne (hne 'P' (by simp)), hbefore']
        rfl
      · refine ⟨p.chars ++ cs', ?_, fun hpar ↦ ?_⟩
        · rw [respell, if_neg hopening, before_cons_of_ne hp, hcs']
          rfl
        · rw [hsame fun hmem ↦ hpar (List.mem_append_right _ hmem)]

theorem suffix_of_before {stop : Char} {ps after : List Piece} {cs : List Char}
    (h : Reader.before stop ps = some (cs, after)) : after <:+ ps := by
  induction ps generalizing cs with
  | nil => cases h
  | cons p rest ih =>
    rw [Reader.before] at h
    split at h
    · obtain ⟨-, rfl⟩ := Prod.mk.inj (Option.some.inj h)
      exact List.suffix_cons _ _
    · obtain ⟨⟨cs, after⟩, hbefore, hfound⟩ := Option.map_eq_some_iff.mp h
      obtain ⟨-, rfl⟩ := Prod.mk.inj hfound
      exact (ih hbefore).trans (List.suffix_cons _ _)

theorem skipComment_cons_of_ne {p : Piece} (h : p ≠ .plain '\n') (rest : List Piece) :
    skipComment (p :: rest) = skipComment rest := by
  rw [skipComment, if_neg h]

/-- A comment in a respelled pattern ends where it ends in the pattern. -/
theorem skipComment_respell (ps : List Piece) : skipComment (respell ps) = respell (skipComment ps) := by
  induction ps with
  | nil => rfl
  | cons p rest ih =>
    by_cases hp : p = .plain '\n'
    · rw [hp, respell_cons_of_ne (by decide), skipComment, if_pos rfl, skipComment, if_pos rfl]
    · rw [skipComment_cons_of_ne hp, ← ih]
      by_cases hopening : p = .plain '(' ∧ namesGroup rest = true
      · obtain ⟨rfl, hnames⟩ := hopening
        rw [respell_of_opening hnames, skipComment_cons_of_ne hp, skipComment_cons_of_ne (by decide),
          skipComment_cons_of_ne (by decide), respell_eq_cons_tail hnames,
          skipComment_cons_of_ne (by decide), List.tail_cons]
      · rw [respell, if_neg hopening, skipComment_cons_of_ne hp]

theorem skipComment_suffix (ps : List Piece) : skipComment ps <:+ ps := by
  induction ps with
  | nil => exact List.suffix_refl _
  | cons p rest ih =>
    rw [skipComment]
    split
    · exact List.suffix_cons _ _
    · exact ih.trans (List.suffix_cons _ _)

/-! ## Characters and pieces -/

theorem pieces_plain {c : Char} (h : c ≠ '\\') (cs : List Char) :
    pieces (c :: cs) = .plain c :: pieces cs := by
  rw [pieces, if_neg h]
  exact fun _ _ hc _ ↦ h hc

theorem exists_of_pieces_eq_cons {c : Char} {cs : List Char} {ps : List Piece}
    (h : pieces cs = .plain c :: ps) : ∃ rest, cs = c :: rest ∧ pieces rest = ps := by
  unfold pieces at h
  split at h
  · cases h
  · cases h
  · rename_i d rest _
    split at h
    · cases h
    · obtain ⟨hhead, htail⟩ := List.cons.inj h
      exact ⟨rest, by rw [Piece.plain.inj hhead], htail⟩

theorem head?_pieces {c : Char} (hc : c ≠ '\\') (cs : List Char) :
    (pieces cs).head? = some (.plain c) ↔ cs.head? = some c := by
  rw [List.head?_eq_some_iff, List.head?_eq_some_iff]
  constructor
  · rintro ⟨ps, h⟩
    obtain ⟨rest, hcs, -⟩ := exists_of_pieces_eq_cons h
    exact ⟨rest, hcs⟩
  · rintro ⟨rest, rfl⟩
    exact ⟨_, pieces_plain hc rest⟩

end NoteQuery.Pattern

namespace NoteQuery.PatternLiteral

open Pattern

theorem openNamedGroups_of_ne {c : Char} (h : c ≠ '(') (cs : List Char) :
    openNamedGroups (c :: cs) = c :: openNamedGroups cs := by
  rw [openNamedGroups]
  exact fun _ hc _ ↦ h hc

theorem openNamedGroups_cons (c : Char) (cs : List Char) :
    openNamedGroups (c :: cs) =
      if c = '(' ∧ namesGroup (pieces cs) = true then '(' :: '?' :: 'P' :: (openNamedGroups cs).tail
      else c :: openNamedGroups cs := by
  by_cases hopening : ∃ rest, c = '(' ∧ cs = '?' :: '<' :: rest
  · obtain ⟨rest, rfl, rfl⟩ := hopening
    have hrest : openNamedGroups ('?' :: '<' :: rest) = '?' :: '<' :: openNamedGroups rest := by
      rw [openNamedGroups_of_ne (by decide), openNamedGroups_of_ne (by decide)]
    have hnames : namesGroup (pieces ('?' :: '<' :: rest)) = true ↔
        rest.head? ≠ some '=' ∧ rest.head? ≠ some '!' := by
      rw [pieces_plain (by decide), pieces_plain (by decide), namesGroup, Bool.and_eq_true, bne_iff_ne,
        bne_iff_ne, ne_eq, ne_eq, head?_pieces (by decide), head?_pieces (by decide)]
    rw [hrest]
    by_cases hequals : rest.head? = some '='
    · rw [if_neg fun h ↦ (hnames.mp h.2).1 hequals]
      obtain ⟨tail, rfl⟩ := List.head?_eq_some_iff.mp hequals
      rw [openNamedGroups]
    · by_cases hmark : rest.head? = some '!'
      · rw [if_neg fun h ↦ (hnames.mp h.2).2 hmark]
        obtain ⟨tail, rfl⟩ := List.head?_eq_some_iff.mp hmark
        rw [openNamedGroups]
      · rw [if_pos ⟨rfl, hnames.mpr ⟨hequals, hmark⟩⟩, openNamedGroups, List.tail_cons]
        · rintro tail rfl
          exact hequals rfl
        · rintro tail rfl
          exact hmark rfl
  · rw [if_neg, openNamedGroups]
    · exact fun rest hc hcs ↦ hopening ⟨rest, hc, hcs⟩
    · rintro ⟨hc, hnames⟩
      obtain ⟨ps, hps, -⟩ := exists_of_namesGroup hnames
      obtain ⟨cs, rfl, hcs⟩ := exists_of_pieces_eq_cons hps
      obtain ⟨rest, rfl, -⟩ := exists_of_pieces_eq_cons hcs
      exact hopening ⟨rest, hc, rfl⟩

/-- The pieces of a respelled body, if no escaped parenthesis is respelled. -/
theorem pieces_openNamedGroups {cs : List Char}
    (h : ∀ before after, pieces cs = before ++ .escaped '(' :: after → namesGroup after = false) :
    pieces (openNamedGroups cs) = respell (pieces cs) := by
  induction cs using pieces.induct with
  | case1 => rfl
  | case2 c cs ih =>
    have hcs : pieces ('\\' :: c :: cs) = .escaped c :: pieces cs := by rw [pieces]
    rw [hcs] at h
    have hopen : openNamedGroups ('\\' :: c :: cs) = '\\' :: c :: openNamedGroups cs := by
      rw [openNamedGroups_of_ne (by decide), openNamedGroups_cons, if_neg]
      rintro ⟨rfl, hnames⟩
      rw [h [] (pieces cs) rfl] at hnames
      cases hnames
    rw [hopen, hcs, pieces, respell_cons (fun hc : Piece.escaped c = .plain '(' ↦ nomatch hc), ih]
    intro before after heq
    exact h (.escaped c :: before) after (by rw [heq, List.cons_append])
  | case3 cs hescape =>
    -- a backslash with nothing after it
    obtain rfl : cs = [] := by
      cases cs with
      | nil => rfl
      | cons d cs => exact absurd rfl (hescape d cs rfl)
    rfl
  | case4 c cs _ hback ih =>
    have hcs : pieces (c :: cs) = .plain c :: pieces cs := pieces_plain hback cs
    rw [hcs] at h
    have ih := ih fun before after heq ↦ h (.plain c :: before) after (by rw [heq, List.cons_append])
    rw [openNamedGroups_cons, hcs]
    by_cases hopening : c = '(' ∧ namesGroup (pieces cs) = true
    · obtain ⟨rfl, hnames⟩ := hopening
      obtain ⟨ps, hps, -⟩ := exists_of_namesGroup hnames
      obtain ⟨cs, rfl, -⟩ := exists_of_pieces_eq_cons hps
      rw [if_pos ⟨rfl, hnames⟩, respell_of_opening hnames, ← ih, openNamedGroups_of_ne (by decide)]
      simp only [pieces_plain (show '(' ≠ '\\' by decide), pieces_plain (show '?' ≠ '\\' by decide),
        pieces_plain (show 'P' ≠ '\\' by decide), List.tail_cons]
    · rw [if_neg hopening, pieces_plain hback, ih, respell_cons]
      intro hc
      exact eq_false_of_ne_true fun hnames ↦ hopening ⟨Piece.plain.inj hc, hnames⟩

end NoteQuery.PatternLiteral
