import Mathlib.Data.List.Induction
import NoteQuery.Note.References
import NoteQuery.Proofs.Text.Trim

/-!
# Links in a text

The name in a link, the part of a note behind it and the text to show may hold opening brackets, but no
closing one. So two opening brackets are a link exactly if the first closing bracket behind them is followed
by a second one, and the link ends there, whatever else stands in it (`link?_closed`, `link?_broken`).

A text that ends with a closing bracket is therefore read apart from what follows (`links_append`), and what
stands before a link matters only from its last closing bracket on. If two opening brackets stand there, or
one right before the link, they open another link, which ends where the link itself ends and takes it in
(`exists_links_append_link`). That other link bears the name only if its own name ends before the brackets it
has taken in; so a name that is linked behind an open link is lost, unless it is linked elsewhere too
(`mem_ofBody_append_link_iff`).
-/

namespace NoteQuery.References

variable {cs inner before rest : List Char} {c : Char}

/-! ## Where a link ends -/

theorem isTargetChar_eq_false_iff :
    isTargetChar c = false ↔ c = ']' ∨ c = '|' ∨ c = '#' ∨ c = '^' := by
  simp only [isTargetChar, Bool.not_eq_false', Bool.or_eq_true, beq_iff_eq, or_assoc]

theorem afterShown_dropWhile (cs : List Char) :
    afterShown (cs.dropWhile fun d ↦ !(d == ']' || d == '|')) = cs.dropWhile (· != ']') := by
  induction cs with
  | nil => rfl
  | cons c cs ih =>
    rw [List.dropWhile_cons]
    split
    · rename_i hc
      have hclosing : c ≠ ']' := by simp_all
      rw [ih, List.dropWhile_cons_of_pos (by simpa using hclosing)]
    · rename_i hc
      obtain rfl | rfl : c = ']' ∨ c = '|' := by simpa [or_iff_not_imp_left] using hc
      · rfl
      · rfl

/-- What may stand behind the name goes on to the first closing bracket. -/
theorem afterShown_afterPart (cs : List Char) :
    afterShown (afterPart (cs.dropWhile isTargetChar)) = cs.dropWhile (· != ']') := by
  induction cs with
  | nil => rfl
  | cons c cs ih =>
    cases hc : isTargetChar c with
    | true =>
      have hclosing : c ≠ ']' := by
        rintro rfl
        simp [isTargetChar] at hc
      rw [List.dropWhile_cons_of_pos hc, ih, List.dropWhile_cons_of_pos (by simpa using hclosing)]
    | false =>
      rw [List.dropWhile_cons_of_neg (by simp [hc])]
      rcases isTargetChar_eq_false_iff.mp hc with rfl | rfl | rfl | rfl
      · rfl
      · rfl
      · exact afterShown_dropWhile cs
      · exact afterShown_dropWhile cs

theorem dropWhile_append_closing (h : ']' ∉ inner) (cs : List Char) :
    (inner ++ ']' :: cs).dropWhile (· != ']') = ']' :: cs := by
  rw [List.dropWhile_append_of_pos fun c hc ↦ by simpa using ne_of_mem_of_not_mem hc h]
  rfl

theorem takeWhile_append_closing (inner cs : List Char) :
    (inner ++ ']' :: cs).takeWhile isTargetChar = inner.takeWhile isTargetChar := by
  induction inner with
  | nil => rfl
  | cons c inner ih => rw [List.cons_append, List.takeWhile_cons, List.takeWhile_cons, ih]

/-- Two opening brackets are a link if the first closing bracket behind them is doubled. -/
theorem link?_closed (h : ']' ∉ inner) (rest : List Char) :
    link? (inner ++ ']' :: ']' :: rest) = some (inner.takeWhile isTargetChar, rest) := by
  simp only [link?, afterShown_afterPart, dropWhile_append_closing h, takeWhile_append_closing]

theorem link?_broken (h : ']' ∉ inner) (hcs : cs.head? ≠ some ']') : link? (inner ++ ']' :: cs) = none := by
  simp only [link?, afterShown_afterPart, dropWhile_append_closing h]
  split
  · rename_i heq
    simp_all
  · rfl

theorem link?_of_notMem (h : ']' ∉ cs) : link? cs = none := by
  have hnil : cs.dropWhile (· != ']') = [] := by
    rw [List.dropWhile_eq_nil_iff]
    exact fun c hc ↦ by simpa using ne_of_mem_of_not_mem hc h
  simp only [link?, afterShown_afterPart, hnil]

/-- A link in a text ends with two closing brackets, the first ones in it. -/
theorem exists_of_link?_eq_some {target : List Char} (h : link? cs = some (target, rest)) :
    ∃ inner, ']' ∉ inner ∧ cs = inner ++ ']' :: ']' :: rest ∧ target = inner.takeWhile isTargetChar := by
  by_cases hmem : ']' ∈ cs
  · obtain ⟨inner, tail, rfl, hinner⟩ := List.eq_append_cons_of_mem hmem
    by_cases htail : tail.head? = some ']'
    · obtain ⟨rest', rfl⟩ := List.head?_eq_some_iff.mp htail
      rw [link?_closed hinner] at h
      obtain ⟨rfl, rfl⟩ := Prod.mk.inj (Option.some.inj h)
      exact ⟨inner, hinner, rfl, rfl⟩
    · rw [link?_broken hinner htail] at h
      cases h
  · rw [link?_of_notMem hmem] at h
    cases h

/-! ## Reading on -/

theorem links_opening_of_eq_some {target : List Char} (h : link? cs = some (target, rest)) :
    links ('[' :: '[' :: cs) = target :: links rest := by
  rw [links]
  split
  · rename_i target' rest' h'
    obtain ⟨rfl, rfl⟩ := Prod.mk.inj (Option.some.inj (h'.symm.trans h))
    rfl
  · rename_i h'
    cases h'.symm.trans h

theorem links_opening_of_eq_none (h : link? cs = none) :
    links ('[' :: '[' :: cs) = links ('[' :: cs) := by
  rw [links]
  split
  · rename_i h'
    cases h'.symm.trans h
  · rfl

/-- A character that does not begin two opening brackets is passed over. -/
theorem links_cons (h : c = '[' → cs.head? ≠ some '[') : links (c :: cs) = links cs := by
  by_cases hlast : c = '[' ∧ cs = []
  · obtain ⟨rfl, rfl⟩ := hlast
    rw [links, links]
  · rw [links]
    · rintro rfl rfl
      exact hlast ⟨rfl, rfl⟩
    · rintro rest rfl rfl
      exact h rfl rfl

theorem links_of_notMem (h : ']' ∉ cs) : links cs = [] := by
  fun_induction links cs with
  | case1 => rfl
  | case2 => rfl
  | case3 rest target tail hlink =>
    obtain ⟨inner, -, rfl, -⟩ := exists_of_link?_eq_some hlink
    simp at h
  | case4 rest hlink ih => exact ih (List.not_mem_of_not_mem_cons h)
  | case5 c rest hlast hdouble ih => exact ih (List.not_mem_of_not_mem_cons h)

/-- Whether a text ends with a closing bracket, if it is not empty. -/
def IsClosed (cs : List Char) : Prop := ∀ c ∈ cs.getLast?, c = ']'

theorem IsClosed.of_append (before : List Char) (h : IsClosed (before ++ cs)) : IsClosed cs := by
  intro c hc
  apply h
  rw [List.getLast?_append, Option.mem_def.mp hc]
  rfl

/-- A text that cannot be read as a link is not made one by what follows it, if it is closed. -/
theorem link?_append_eq_none (h : link? before = none) (hne : before ≠ []) (hbefore : IsClosed before)
    (hcs : cs.head? ≠ some ']') : link? (before ++ cs) = none := by
  have hmem : ']' ∈ before := by
    have hlast := List.getLast?_eq_some_getLast hne
    rw [← hbefore _ hlast]
    exact List.mem_of_getLast? hlast
  obtain ⟨inner, tail, rfl, hinner⟩ := List.eq_append_cons_of_mem hmem
  have htail : (tail ++ cs).head? ≠ some ']' := by
    rw [List.head?_append]
    cases tail with
    | nil => exact hcs
    | cons d tail =>
      rintro hd
      obtain rfl : d = ']' := Option.some.inj hd
      rw [link?_closed hinner] at h
      cases h
  rw [List.append_assoc, List.cons_append]
  exact link?_broken hinner htail

/-- **Closed texts.** A text that is closed is read apart from what follows, unless this begins with a second
closing bracket. -/
theorem links_append (hbefore : IsClosed before) (hcs : cs.head? ≠ some ']') :
    links (before ++ cs) = links before ++ links cs := by
  fun_induction links before with
  | case1 => rfl
  | case2 => cases hbefore '[' rfl
  | case3 rest target tail h ih =>
    obtain ⟨inner, hinner, rfl, rfl⟩ := exists_of_link?_eq_some h
    have htail : IsClosed tail :=
      IsClosed.of_append ('[' :: '[' :: inner ++ [']', ']']) (by simpa using hbefore)
    have happend : '[' :: '[' :: (inner ++ ']' :: ']' :: tail) ++ cs
        = '[' :: '[' :: (inner ++ ']' :: ']' :: (tail ++ cs)) := by simp
    rw [happend, links_opening_of_eq_some (link?_closed hinner (tail ++ cs)), ih htail, List.cons_append]
  | case4 rest h ih =>
    have hrest : rest ≠ [] := by
      rintro rfl
      cases hbefore '[' rfl
    have hclosed : IsClosed ('[' :: rest) := IsClosed.of_append ['['] hbefore
    have hnone := link?_append_eq_none h hrest (hclosed.of_append ['[']) hcs
    rw [List.cons_append, List.cons_append, links_opening_of_eq_none hnone]
    exact ih hclosed
  | case5 d rest hlast hdouble ih =>
    have hskip : d = '[' → (rest ++ cs).head? ≠ some '[' := by
      rintro rfl
      cases rest with
      | nil => exact absurd rfl (hlast rfl)
      | cons e rest =>
        rintro he
        obtain rfl : e = '[' := Option.some.inj he
        exact hdouble rest rfl rfl
    rw [List.cons_append, links_cons hskip]
    exact ih (IsClosed.of_append [d] hbefore)

/-! ## What stands before a link -/

/-- Whether two opening brackets stand behind the last closing one of a text, where an opening bracket that
follows the text counts as well. -/
def LeavesOpen (cs : List Char) : Prop := ∃ u v, cs ++ ['['] = u ++ '[' :: '[' :: v ∧ ']' ∉ v

/-- A text is a closed one with a text without closing brackets behind it. -/
theorem exists_eq_append_notMem (cs : List Char) :
    ∃ before tail, cs = before ++ tail ∧ IsClosed before ∧ ']' ∉ tail := by
  induction cs using List.reverseRecOn with
  | nil => exact ⟨[], [], rfl, nofun, List.not_mem_nil⟩
  | append_singleton cs c ih =>
    by_cases hc : c = ']'
    · exact ⟨cs ++ [c], [], by simp, by simp [IsClosed, hc], List.not_mem_nil⟩
    · obtain ⟨before, tail, rfl, hbefore, htail⟩ := ih
      refine ⟨before, tail ++ [c], List.append_assoc _ _ _, hbefore, ?_⟩
      simp [htail, Ne.symm hc]

theorem leavesOpen_append_iff (hbefore : IsClosed before) : LeavesOpen (before ++ cs) ↔ LeavesOpen cs := by
  constructor
  · rintro ⟨u, v, heq, hv⟩
    rw [List.append_assoc] at heq
    rcases List.append_eq_append_iff.mp heq with ⟨u', rfl, hcs⟩ | ⟨last, rfl, hcs⟩
    · exact ⟨u', v, hcs, hv⟩
    · -- the closing bracket of the closed part would stand behind the opening ones
      rcases List.eq_nil_or_concat last with rfl | ⟨last, d, rfl⟩
      · exact ⟨[], v, hcs.symm, hv⟩
      · have hd : d = ']' := hbefore d (by simp)
        have hmem : ']' ∈ '[' :: '[' :: v := by simp [hcs, hd]
        simp [hv] at hmem
  · rintro ⟨u, v, heq, hv⟩
    exact ⟨before ++ u, v, by rw [List.append_assoc, heq, List.append_assoc], hv⟩

theorem not_leavesOpen_nil : ¬LeavesOpen [] := by
  rintro ⟨u, v, heq, -⟩
  have hlength := congrArg List.length heq
  simp at hlength
  omega

theorem leavesOpen_cons_iff (hc : c = '[' → (cs ++ ['[']).head? ≠ some '[') :
    LeavesOpen (c :: cs) ↔ LeavesOpen cs := by
  constructor
  · rintro ⟨u, v, heq, hv⟩
    rw [List.cons_append] at heq
    rcases List.cons_eq_append_iff.mp heq with ⟨rfl, hhead⟩ | ⟨u', rfl, hcs⟩
    · obtain ⟨rfl, hcs⟩ := List.cons.inj hhead
      exact absurd (by rw [← hcs]; rfl) (hc rfl)
    · exact ⟨u', v, hcs, hv⟩
  · rintro ⟨u, v, heq, hv⟩
    exact ⟨c :: u, v, by rw [List.cons_append, heq, List.cons_append], hv⟩

/-- Before two opening brackets, a text without closing ones is passed over up to the first two opening ones,
which begin a link. What stands between these and the end of the text is taken into the link. -/
theorem exists_links_opening (hcs : ']' ∉ cs) :
    ∃ opening, ']' ∉ opening ∧ (LeavesOpen cs ↔ '[' ∈ opening) ∧ (opening ≠ [] → '[' ∈ opening) ∧
      ∀ more, links (cs ++ '[' :: '[' :: more) = links ('[' :: '[' :: (opening ++ more)) := by
  induction cs with
  | nil =>
    exact ⟨[], List.not_mem_nil, iff_of_false not_leavesOpen_nil List.not_mem_nil, fun h ↦ absurd rfl h,
      fun more ↦ rfl⟩
  | cons c cs ih =>
    rw [List.mem_cons, not_or] at hcs
    by_cases hhere : c = '[' ∧ (cs ++ ['[']).head? = some '['
    · obtain ⟨rfl, hhead⟩ := hhere
      obtain ⟨v, hv⟩ := List.head?_eq_some_iff.mp hhead
      have hclosing : ']' ∉ v := by
        intro hmem
        have hmem' : ']' ∈ cs ++ ['['] := hv ▸ List.mem_cons_of_mem _ hmem
        simp [hcs.2] at hmem'
      refine ⟨v ++ ['['], by simp [hclosing], iff_of_true ⟨[], v, congrArg _ hv, hclosing⟩ (by simp),
        fun _ ↦ by simp, fun more ↦ ?_⟩
      have happend : cs ++ '[' :: '[' :: more = '[' :: (v ++ ['['] ++ more) := by
        rw [List.append_cons, hv]
        simp
      rw [List.cons_append, happend]
    · have hskip : c = '[' → (cs ++ ['[']).head? ≠ some '[' := fun hc hhead ↦ hhere ⟨hc, hhead⟩
      obtain ⟨opening, hclosing, hopen, hne, hlinks⟩ := ih hcs.2
      refine ⟨opening, hclosing, (leavesOpen_cons_iff hskip).trans hopen, hne, fun more ↦ ?_⟩
      rw [List.cons_append, links_cons, hlinks]
      intro hc
      rw [List.append_cons, List.head?_append, Option.or_of_isSome]
      · exact hskip hc
      · simp

/-- **Links behind a text.** Before a link, a text has the links it has alone. The link is read with what the
text leaves open taken in. -/
theorem exists_links_append_link (before : List Char) :
    ∃ opening, (LeavesOpen before ↔ '[' ∈ opening) ∧ (opening ≠ [] → '[' ∈ opening) ∧
      ∀ inner after, ']' ∉ inner → links (before ++ '[' :: '[' :: (inner ++ ']' :: ']' :: after)) =
        links before ++ (opening ++ inner).takeWhile isTargetChar :: links after := by
  obtain ⟨closed, tail, rfl, hclosed, htail⟩ := exists_eq_append_notMem before
  obtain ⟨opening, hclosing, hopen, hne, hlinks⟩ := exists_links_opening htail
  refine ⟨opening, (leavesOpen_append_iff hclosed).trans hopen, hne, fun inner after hinner ↦ ?_⟩
  have htailHead : tail.head? ≠ some ']' := fun h ↦ htail (List.mem_of_head? h)
  have hmoreHead (more : List Char) : (tail ++ '[' :: more).head? ≠ some ']' := by
    cases tail with
    | nil => simp
    | cons c tail => exact htailHead
  calc links (closed ++ tail ++ '[' :: '[' :: (inner ++ ']' :: ']' :: after))
      = links closed ++ links (tail ++ '[' :: '[' :: (inner ++ ']' :: ']' :: after)) := by
        rw [List.append_assoc, links_append hclosed (hmoreHead _)]
    _ = links closed ++ links ('[' :: '[' :: (opening ++ inner ++ ']' :: ']' :: after)) := by
        rw [hlinks, List.append_assoc]
    _ = links closed ++ (opening ++ inner).takeWhile isTargetChar :: links after := by
        rw [links_opening_of_eq_some (link?_closed (by simp [hclosing, hinner]) after)]
    _ = links (closed ++ tail) ++ (opening ++ inner).takeWhile isTargetChar :: links after := by
        rw [links_append hclosed htailHead, links_of_notMem htail, List.append_nil]

/-! ## Names -/

/-- Whether a text can stand as the name of a note in a link. -/
structure IsName (t : String) : Prop where
  /-- It is not empty. -/
  filled : t ≠ ""
  /-- It has no blank at either end. -/
  trimmed : Text.trimmed t = t
  /-- No character of it is a bracket, ends the name or breaks the line. -/
  plain : ∀ c ∈ t.toList, c ∉ ['[', ']', '|', '#', '^', '\n']

theorem mem_ofBody_iff {t body : String} (h : t ≠ "") :
    t ∈ ofBody body ↔ ∃ name ∈ links body.toList, Text.trim name = t.toList := by
  simp only [ofBody, Text.mem_distinct, List.mem_map, List.mem_filter]
  constructor
  · rintro ⟨_, ⟨⟨name, hname, rfl⟩, -⟩, rfl⟩
    exact ⟨name, hname, by rw [String.toList_ofList]⟩
  · rintro ⟨name, hname, htrim⟩
    refine ⟨t.toList, ⟨⟨name, hname, htrim⟩, ?_⟩, String.ofList_toList⟩
    simpa using h

/-- A link has the name at its end only if nothing is taken in before it, or what is taken in ends a name of
its own, which is the same. -/
theorem trim_takeWhile_append_eq_iff {t : String} (h : IsName t) {opening : List Char}
    (hopening : opening ≠ [] → '[' ∈ opening) :
    Text.trim ((opening ++ t.toList).takeWhile isTargetChar) = t.toList ↔
      opening = [] ∨ Text.trim (opening.takeWhile isTargetChar) = t.toList := by
  have hname : t.toList.takeWhile isTargetChar = t.toList := by
    rw [List.takeWhile_eq_self_iff]
    intro c hc
    have hplain := h.plain c hc
    simp [isTargetChar] at hplain ⊢
    simp [hplain]
  have htrim : Text.trim t.toList = t.toList := by
    have htrimmed := congrArg String.toList h.trimmed
    rwa [Text.trimmed, String.toList_ofList] at htrimmed
  have hbracket {cs : List Char} (hmem : '[' ∈ cs) : Text.trim cs ≠ t.toList := by
    intro heq
    have hmem' : '[' ∈ t.toList := heq ▸ Text.mem_trim_of_mem (by decide) hmem
    exact h.plain _ hmem' (by simp)
  rw [List.takeWhile_append]
  by_cases hall : opening.takeWhile isTargetChar = opening
  · rw [if_pos (congrArg _ hall), hname, hall]
    by_cases hempty : opening = []
    · simp [hempty, htrim]
    · have hmem := hopening hempty
      exact iff_of_false (hbracket (List.mem_append_left _ hmem)) (by simp [hempty, hbracket hmem])
  · have hempty : opening ≠ [] := by
      rintro rfl
      exact hall rfl
    have hshort : (opening.takeWhile isTargetChar).length ≠ opening.length := fun hlength ↦
      hall ((List.takeWhile_sublist _).eq_of_length hlength)
    rw [if_neg hshort, or_iff_right hempty]

/-- **Links and what stands before them.** A name between double square brackets is a reference exactly if
the text before it leaves no link open, or the name is linked elsewhere: in the text before, with the link that
is left open ended at once, or in the text behind. -/
theorem mem_ofBody_append_link_iff {t : String} (h : IsName t) (before after : String) :
    t ∈ ofBody (before ++ "[[" ++ t ++ "]]" ++ after) ↔
      ¬LeavesOpen before.toList ∨ t ∈ ofBody (before ++ "[[]]") ∨ t ∈ ofBody after := by
  obtain ⟨opening, hopen, hopening, hlinks⟩ := exists_links_append_link before.toList
  have hclosing : ']' ∉ t.toList := fun hmem ↦ h.plain _ hmem (by simp)
  have hlink : (before ++ "[[" ++ t ++ "]]" ++ after).toList
      = before.toList ++ '[' :: '[' :: (t.toList ++ ']' :: ']' :: after.toList) := by simp
  have hended : (before ++ "[[]]").toList = before.toList ++ '[' :: '[' :: ([] ++ ']' :: ']' :: []) := by simp
  have hempty : opening = [] ↔ ¬LeavesOpen before.toList := by
    rw [hopen]
    exact ⟨fun hnil ↦ hnil ▸ List.not_mem_nil, fun hmem ↦ by_contra fun hne ↦ hmem (hopening hne)⟩
  rw [mem_ofBody_iff h.filled, mem_ofBody_iff h.filled, mem_ofBody_iff h.filled, hlink, hended,
    hlinks _ _ hclosing, hlinks _ _ List.not_mem_nil, List.append_nil, ← hempty, links]
  simp only [List.mem_append, List.mem_cons, List.not_mem_nil, or_false, or_and_right, exists_or,
    exists_eq_left, trim_takeWhile_append_eq_iff h hopening]
  rw [or_assoc, or_left_comm, or_assoc]

theorem mem_ofBody_append_link_iff_of_stray_brackets :
    IsName "t" ∧ ¬LeavesOpen "[[a] [b ".toList ∧ "t" ∈ ofBody ("[[a] [b " ++ "[[" ++ "t" ++ "]]" ++ "]") := by
  have hname : IsName "t" := ⟨by decide, by decide, by simp⟩
  have hbefore : ¬LeavesOpen "[[a] [b ".toList := by
    rw [show "[[a] [b ".toList = "[[a]".toList ++ [' ', '[', 'b', ' '] from rfl,
      leavesOpen_append_iff (by simp [IsClosed]), leavesOpen_cons_iff (by simp), leavesOpen_cons_iff (by simp),
      leavesOpen_cons_iff (by simp), leavesOpen_cons_iff (by simp)]
    exact not_leavesOpen_nil
  exact ⟨hname, hbefore, (mem_ofBody_append_link_iff hname _ _).mpr (.inl hbefore)⟩

/-- A link that is left open takes the next one in. -/
theorem not_forall_mem_ofBody_append_link :
    ¬∀ before after t : String, IsName t → t ∈ ofBody (before ++ "[[" ++ t ++ "]]" ++ after) := by
  intro h
  have hbody : ofBody ("[[x " ++ "[[" ++ "a" ++ "]]" ++ "") = ["x [[a"] := by cbv
  have hmem := h "[[x " "" "a" ⟨by decide, by decide, by simp⟩
  rw [hbody] at hmem
  simp at hmem

end NoteQuery.References
