import Mathlib.Data.List.TakeWhile
import NoteQuery.Note.Frontmatter

/-!
# Where front matter ends

A fence is a line of three hyphens with nothing but spaces and tabs behind them. Here fences are described
as lines of a text, by what stands before and behind them, and the readers of fences are related to that:
the search for a closing fence finds the first one with a line in front of it. A fence in the first line
of the block is looked at only if there is no other. So a block ends at the first fence behind the opening
one, unless this stands right behind it and a further one follows (`block_ends_at_first_fence`).
-/

namespace NoteQuery

namespace Fence

/-! ## Lines -/

/-- Whether a text is a line end. -/
def IsLineEnd (cs : List Char) : Prop := cs = ['\n'] ∨ cs = ['\r', '\n']

/-- Whether a line is a fence. -/
def IsFence (line : List Char) : Prop :=
  ∃ blanks, (∀ c ∈ blanks, c = ' ' ∨ c = '\t') ∧ line = '-' :: '-' :: '-' :: blanks

/-- Whether the first line of a text is a fence, with more behind its line end. -/
def Opens (cs behind : List Char) : Prop :=
  ∃ fence lineEnd, IsFence fence ∧ IsLineEnd lineEnd ∧ cs = fence ++ (lineEnd ++ behind)

/-- Whether a fence is a line of a text, with so much before it and so much behind it and its line end.
The last line needs no line end. -/
structure IsLineOf (cs before behind : List Char) : Prop where
  /-- The text before it ends with a line. -/
  ends : before = [] ∨ before.getLast? = some '\n'
  /-- It is a fence. -/
  exists_fence : ∃ fence lineEnd, IsFence fence ∧ (IsLineEnd lineEnd ∨ lineEnd = [] ∧ behind = []) ∧
    cs = before ++ (fence ++ (lineEnd ++ behind))

/-- Whether a fence is the first one in a text that has at least `least` characters before it. -/
structure IsFirstFrom (least : Nat) (cs before behind : List Char) : Prop extends
    IsLineOf cs before behind where
  /-- It has so many characters before it. -/
  least_le : least ≤ before.length
  /-- No fence with so many comes earlier. -/
  le_length : ∀ before' behind', IsLineOf cs before' behind' → least ≤ before'.length →
    before.length ≤ before'.length

/-- Whether no line of a text but the first is a fence. -/
def NoneBelowFirst (cs : List Char) : Prop := ∀ before behind, IsLineOf cs before behind → before = []

/-- A text without the line end at its end. -/
def dropLineEnd : List Char → List Char
  | [] => []
  | ['\n'] => []
  | ['\r', '\n'] => []
  | c :: rest => c :: dropLineEnd rest

/-! ## Readers -/

theorem lineEnd?_eq_some_iff {cs rest : List Char} :
    lineEnd? cs = some rest ↔ ∃ lineEnd, IsLineEnd lineEnd ∧ cs = lineEnd ++ rest := by
  constructor
  · intro h
    unfold lineEnd? at h
    split at h
    · obtain rfl := Option.some.inj h
      exact ⟨['\n'], .inl rfl, rfl⟩
    · obtain rfl := Option.some.inj h
      exact ⟨['\r', '\n'], .inr rfl, rfl⟩
    · cases h
  · rintro ⟨lineEnd, rfl | rfl, rfl⟩
    · rfl
    · rfl

theorem hyphens?_eq_some_iff {cs rest : List Char} :
    hyphens? cs = some rest ↔
      ∃ fence, IsFence fence ∧ (∀ c ∈ rest.head?, ¬(c = ' ' ∨ c = '\t')) ∧ cs = fence ++ rest := by
  constructor
  · intro h
    unfold hyphens? at h
    split at h
    · rename_i tail
      obtain rfl := Option.some.inj h
      refine ⟨'-' :: '-' :: '-' :: tail.takeWhile fun c ↦ c = ' ' || c = '\t',
        ⟨_, fun c hc ↦ ?_, rfl⟩, fun c hc ↦ ?_, ?_⟩
      · simpa using List.mem_takeWhile_imp hc
      · have hhead := List.head?_dropWhile_not (fun c ↦ c = ' ' || c = '\t') tail
        rw [Option.mem_def.mp hc] at hhead
        simpa using hhead
      · simp only [List.cons_append, List.takeWhile_append_dropWhile]
    · cases h
  · rintro ⟨_, ⟨blanks, hblanks, rfl⟩, hrest, rfl⟩
    have hdrop : (blanks ++ rest).dropWhile (fun c ↦ c = ' ' || c = '\t') = rest := by
      rw [List.dropWhile_append_of_pos fun c hc ↦ by simpa using hblanks c hc]
      cases rest with
      | nil => rfl
      | cons c rest => exact List.dropWhile_cons_of_neg (by simpa using hrest c rfl)
    exact congrArg some hdrop

theorem not_blank_of_mem_head? {lineEnd behind : List Char}
    (h : IsLineEnd lineEnd ∨ lineEnd = [] ∧ behind = []) :
    ∀ c ∈ (lineEnd ++ behind).head?, ¬(c = ' ' ∨ c = '\t') := by
  rcases h with (rfl | rfl) | ⟨rfl, rfl⟩
  · rintro _ ⟨⟩
    decide
  · rintro _ ⟨⟩
    decide
  · exact nofun

theorem opening?_eq_some_iff {cs behind : List Char} : opening? cs = some behind ↔ Opens cs behind := by
  rw [opening?, Option.bind_eq_some_iff]
  constructor
  · rintro ⟨rest, hrest, hend⟩
    obtain ⟨fence, hfence, -, rfl⟩ := hyphens?_eq_some_iff.mp hrest
    obtain ⟨lineEnd, hlineEnd, rfl⟩ := lineEnd?_eq_some_iff.mp hend
    exact ⟨fence, lineEnd, hfence, hlineEnd, rfl⟩
  · rintro ⟨fence, lineEnd, hfence, hlineEnd, rfl⟩
    exact ⟨_, hyphens?_eq_some_iff.mpr ⟨fence, hfence, not_blank_of_mem_head? (.inl hlineEnd), rfl⟩,
      lineEnd?_eq_some_iff.mpr ⟨lineEnd, hlineEnd, rfl⟩⟩

theorem closing?_eq_some_iff_hyphens? {cs behind : List Char} :
    closing? cs = some behind ↔
      ∃ rest, hyphens? cs = some rest ∧ (lineEnd? rest = some behind ∨ rest = [] ∧ behind = []) := by
  unfold closing?
  split
  · rename_i h
    simp [h, lineEnd?, eq_comm]
  · rename_i rest hrest h
    have hne : rest ≠ [] := hrest
    simp [h, hne]
  · rename_i h
    simp [h]

theorem closing?_eq_some_iff {cs behind : List Char} :
    closing? cs = some behind ↔ IsLineOf cs [] behind := by
  rw [closing?_eq_some_iff_hyphens?]
  constructor
  · rintro ⟨rest, hrest, hend⟩
    obtain ⟨fence, hfence, -, rfl⟩ := hyphens?_eq_some_iff.mp hrest
    refine ⟨.inl rfl, fence, ?_⟩
    rcases hend with hend | ⟨rfl, rfl⟩
    · obtain ⟨lineEnd, hlineEnd, rfl⟩ := lineEnd?_eq_some_iff.mp hend
      exact ⟨lineEnd, hfence, .inl hlineEnd, rfl⟩
    · exact ⟨[], hfence, .inr ⟨rfl, rfl⟩, rfl⟩
  · rintro ⟨-, fence, lineEnd, hfence, hlineEnd, rfl⟩
    refine ⟨_, hyphens?_eq_some_iff.mpr ⟨fence, hfence, not_blank_of_mem_head? hlineEnd, rfl⟩, ?_⟩
    rcases hlineEnd with hlineEnd | ⟨rfl, rfl⟩
    · exact .inl (lineEnd?_eq_some_iff.mpr ⟨lineEnd, hlineEnd, rfl⟩)
    · exact .inr ⟨rfl, rfl⟩

/-! ## Lines of the rest of a text -/

namespace IsLineOf

variable {cs before behind : List Char}

/-- What stands before a fence can be taken away together with it from the text. -/
theorem exists_eq_append (h : IsLineOf cs before behind) :
    ∃ rest, cs = before ++ rest ∧ IsLineOf rest [] behind := by
  obtain ⟨-, fence, lineEnd, hfence, hlineEnd, rfl⟩ := h
  exact ⟨_, rfl, .inl rfl, fence, lineEnd, hfence, hlineEnd, rfl⟩

theorem append {front : List Char} (hfront : front.getLast? = some '\n') (h : IsLineOf cs [] behind) :
    IsLineOf (front ++ cs) front behind := by
  obtain ⟨-, fence, lineEnd, hfence, hlineEnd, rfl⟩ := h
  exact ⟨.inr hfront, fence, lineEnd, hfence, hlineEnd, rfl⟩

theorem cons (c : Char) (hbefore : before ≠ []) (h : IsLineOf cs before behind) :
    IsLineOf (c :: cs) (c :: before) behind := by
  obtain ⟨hends, fence, lineEnd, hfence, hlineEnd, rfl⟩ := h
  refine ⟨.inr ?_, fence, lineEnd, hfence, hlineEnd, rfl⟩
  rw [List.getLast?_cons_of_ne_nil hbefore]
  exact hends.resolve_left hbefore

/-- A fence that is not the first line is a line of the text from its second character on, unless this is
where it begins. -/
theorem exists_eq_cons {c : Char} (hbefore : before ≠ []) (h : IsLineOf (c :: cs) before behind) :
    before = ['\n'] ∨ ∃ before', before = c :: before' ∧ before' ≠ [] ∧ IsLineOf cs before' behind := by
  obtain ⟨hends, fence, lineEnd, hfence, hlineEnd, heq⟩ := h
  obtain ⟨c', before', rfl⟩ := List.exists_cons_of_ne_nil hbefore
  obtain ⟨rfl, rfl⟩ := List.cons.inj heq
  have hlast := hends.resolve_left hbefore
  rcases eq_or_ne before' [] with rfl | hne
  · exact .inl (congrArg (· :: []) (Option.some.inj hlast))
  · rw [List.getLast?_cons_of_ne_nil hne] at hlast
    exact .inr ⟨before', rfl, hne, .inr hlast, fence, lineEnd, hfence, hlineEnd, rfl⟩

theorem getElem?_length (h : IsLineOf cs before behind) : cs[before.length]? = some '-' := by
  obtain ⟨-, fence, lineEnd, ⟨blanks, -, rfl⟩, -, rfl⟩ := h
  rw [List.getElem?_append_right le_rfl, Nat.sub_self]
  rfl

theorem ne_nil (h : IsLineOf cs before behind) : cs ≠ [] := by
  obtain ⟨-, fence, lineEnd, ⟨blanks, -, rfl⟩, -, rfl⟩ := h
  simp

theorem behind_unique {behind' : List Char} (h : IsLineOf cs before behind)
    (h' : IsLineOf cs before behind') : behind = behind' := by
  obtain ⟨rest, rfl, hrest⟩ := h.exists_eq_append
  obtain ⟨rest', heq, hrest'⟩ := h'.exists_eq_append
  obtain rfl := List.append_cancel_left heq
  rw [← closing?_eq_some_iff] at hrest hrest'
  exact Option.some.inj (hrest.symm.trans hrest')

end IsLineOf

theorem IsFirstFrom.unique {least : Nat} {cs before behind before' behind' : List Char}
    (h : IsFirstFrom least cs before behind) (h' : IsFirstFrom least cs before' behind') :
    before = before' ∧ behind = behind' := by
  have hlength : before.length = before'.length :=
    le_antisymm (h.le_length _ _ h'.toIsLineOf h'.least_le) (h'.le_length _ _ h.toIsLineOf h.least_le)
  obtain ⟨rest, hcs, -⟩ := h.exists_eq_append
  obtain ⟨rest', hcs', -⟩ := h'.exists_eq_append
  obtain rfl := List.append_inj_left (hcs.symm.trans hcs') hlength
  exact ⟨rfl, h.behind_unique h'.toIsLineOf⟩

/-! ## The line end before a closing fence -/

theorem IsLineEnd.getLast? {lineEnd : List Char} (h : IsLineEnd lineEnd) :
    lineEnd.getLast? = some '\n' := by
  rcases h with rfl | rfl <;> rfl

theorem IsLineEnd.dropLineEnd {lineEnd : List Char} (h : IsLineEnd lineEnd) :
    dropLineEnd lineEnd = [] := by
  rcases h with rfl | rfl <;> rfl

theorem dropLineEnd_cons {c : Char} {cs : List Char} (h : ¬IsLineEnd (c :: cs)) :
    dropLineEnd (c :: cs) = c :: dropLineEnd cs := by
  rw [dropLineEnd]
  · rintro rfl rfl
    exact h (.inl rfl)
  · rintro rfl rfl
    exact h (.inr rfl)

theorem eq_nil_or_isLineEnd {cs : List Char} (h : dropLineEnd cs = []) : cs = [] ∨ IsLineEnd cs := by
  cases cs with
  | nil => exact .inl rfl
  | cons c cs =>
    by_contra hnot
    rw [dropLineEnd_cons fun hend ↦ hnot (.inr hend)] at h
    cases h

theorem lineEnd?_bind_closing?_eq_some_iff {cs body : List Char} :
    (lineEnd? cs).bind closing? = some body ↔ ∃ lineEnd, IsLineEnd lineEnd ∧ IsLineOf cs lineEnd body := by
  rw [Option.bind_eq_some_iff]
  constructor
  · rintro ⟨rest, hrest, hbody⟩
    obtain ⟨lineEnd, hlineEnd, rfl⟩ := lineEnd?_eq_some_iff.mp hrest
    exact ⟨lineEnd, hlineEnd, (closing?_eq_some_iff.mp hbody).append hlineEnd.getLast?⟩
  · rintro ⟨lineEnd, hlineEnd, hline⟩
    obtain ⟨rest, rfl, hrest⟩ := hline.exists_eq_append
    exact ⟨rest, lineEnd?_eq_some_iff.mpr ⟨lineEnd, hlineEnd, rfl⟩, closing?_eq_some_iff.mpr hrest⟩

/-! ## The search for a closing fence -/

theorem isFirstFrom_one_of_isLineEnd {cs lineEnd body : List Char} (hlineEnd : IsLineEnd lineEnd)
    (h : IsLineOf cs lineEnd body) : IsFirstFrom 1 cs lineEnd body := by
  refine ⟨h, ?_, fun before' behind' h' hle ↦ ?_⟩
  · rcases hlineEnd with rfl | rfl <;> simp
  · obtain ⟨rest, hcs, -⟩ := h.exists_eq_append
    obtain ⟨rest', hcs', -⟩ := h'.exists_eq_append
    have hlast := h'.ends.resolve_left (List.ne_nil_of_length_pos hle)
    rcases hlineEnd with rfl | rfl
    · exact hle
    · -- a carriage return alone is not a line
      match before', hcs', hlast with
      | ['\n'], hcs', _ => simp [hcs] at hcs'
      | _ :: _ :: _, _, _ => simp

theorem IsFirstFrom.cons_one {c : Char} {cs before body : List Char} (h : IsFirstFrom 1 cs before body)
    (hnone : ∀ lineEnd body', IsLineEnd lineEnd → ¬IsLineOf (c :: cs) lineEnd body') :
    IsFirstFrom 1 (c :: cs) (c :: before) body := by
  refine ⟨h.toIsLineOf.cons c (List.ne_nil_of_length_pos h.least_le), by simp,
    fun before' behind' h' hle ↦ ?_⟩
  rcases h'.exists_eq_cons (List.ne_nil_of_length_pos hle) with rfl | ⟨before₁, rfl, hne, h₁⟩
  · exact absurd h' (hnone _ _ (.inl rfl))
  · exact Nat.succ_le_succ (h.le_length _ _ h₁ (List.length_pos_iff.mpr hne))

/-- A closing fence that is found is the first one with a line before it. -/
theorem exists_of_splitClosing?_eq_some {cs block body : List Char}
    (h : splitClosing? cs = some (block, body)) :
    ∃ before, IsFirstFrom 1 cs before body ∧ block = dropLineEnd before := by
  induction cs generalizing block with
  | nil => cases h
  | cons c cs ih =>
    rw [splitClosing?] at h
    split at h
    · rename_i hbody
      obtain ⟨rfl, rfl⟩ := Prod.mk.inj (Option.some.inj h)
      obtain ⟨lineEnd, hlineEnd, hline⟩ := lineEnd?_bind_closing?_eq_some_iff.mp hbody
      exact ⟨lineEnd, isFirstFrom_one_of_isLineEnd hlineEnd hline, hlineEnd.dropLineEnd.symm⟩
    · rename_i hnone
      obtain ⟨⟨block', body'⟩, hrest, heq⟩ := Option.map_eq_some_iff.mp h
      obtain ⟨rfl, rfl⟩ := Prod.mk.inj heq
      obtain ⟨before, hbefore, rfl⟩ := ih hrest
      have hno : ∀ lineEnd body', IsLineEnd lineEnd → ¬IsLineOf (c :: cs) lineEnd body' :=
        fun lineEnd body' hend hline ↦ Option.eq_none_iff_forall_ne_some.mp hnone body'
          (lineEnd?_bind_closing?_eq_some_iff.mpr ⟨lineEnd, hend, hline⟩)
      have hfirst := hbefore.cons_one hno
      exact ⟨c :: before, hfirst, (dropLineEnd_cons fun hend ↦ hno _ _ hend hfirst.toIsLineOf).symm⟩

theorem noneBelowFirst_of_splitClosing?_eq_none {cs : List Char} (h : splitClosing? cs = none) :
    NoneBelowFirst cs := by
  intro before behind hline
  by_contra hbefore
  induction cs generalizing before with
  | nil => exact hline.ne_nil rfl
  | cons c cs ih =>
    rw [splitClosing?] at h
    split at h
    · cases h
    · rename_i hnone
      rcases hline.exists_eq_cons hbefore with rfl | ⟨before', rfl, hne, hline'⟩
      · exact Option.eq_none_iff_forall_ne_some.mp hnone behind
          (lineEnd?_bind_closing?_eq_some_iff.mpr ⟨_, .inl rfl, hline⟩)
      · exact ih (Option.map_eq_none_iff.mp h) before' hline' hne

/-- A text that opens with a fence is split at the first fence that has a line between the two, or at the
one right behind the first if there is no other. -/
theorem split?_eq_some_iff {cs block body : List Char} :
    split? cs = some (block, body) ↔ ∃ behind before, Opens cs behind ∧ block = dropLineEnd before ∧
      (IsFirstFrom 1 behind before body ∨ before = [] ∧ IsLineOf behind [] body ∧ NoneBelowFirst behind) := by
  rw [split?, Option.bind_eq_some_iff]
  refine exists_congr fun behind ↦ ?_
  rw [opening?_eq_some_iff, exists_and_left]
  refine and_congr_right fun hopens ↦ ?_
  rcases hsplit : splitClosing? behind with _ | ⟨block', body'⟩
  · have honly := noneBelowFirst_of_splitClosing?_eq_none hsplit
    simp only [Option.map_eq_some_iff, closing?_eq_some_iff, Prod.mk.injEq]
    constructor
    · rintro ⟨_, hline, rfl, rfl⟩
      exact ⟨[], rfl, .inr ⟨rfl, hline, honly⟩⟩
    · rintro ⟨before, rfl, hfirst | ⟨rfl, hline, -⟩⟩
      · exact absurd (honly _ _ hfirst.toIsLineOf) (List.ne_nil_of_length_pos hfirst.least_le)
      · exact ⟨body, hline, rfl, rfl⟩
  · obtain ⟨before', hfirst', rfl⟩ := exists_of_splitClosing?_eq_some hsplit
    simp only [Option.some.injEq, Prod.mk.injEq]
    constructor
    · rintro ⟨rfl, rfl⟩
      exact ⟨before', rfl, .inl hfirst'⟩
    · rintro ⟨before, rfl, hfirst | ⟨rfl, -, honly⟩⟩
      · obtain ⟨rfl, rfl⟩ := hfirst.unique hfirst'
        exact ⟨rfl, rfl⟩
      · exact absurd (honly _ _ hfirst'.toIsLineOf) (List.ne_nil_of_length_pos hfirst'.least_le)

/-- The split is at the first fence behind the opening one, unless this stands right behind it and there
is a further one. -/
theorem split?_eq_some_first_iff {cs behind before body : List Char} (hopens : Opens cs behind)
    (hfirst : IsFirstFrom 0 behind before body) :
    split? cs = some (dropLineEnd before, body) ↔ (before = [] → NoneBelowFirst behind) := by
  rw [split?_eq_some_iff]
  constructor
  · rintro ⟨behind', before', hopens', hdrop, hcase⟩ rfl
    rw [← opening?_eq_some_iff] at hopens hopens'
    obtain rfl := Option.some.inj (hopens.symm.trans hopens')
    rcases hcase with hfirst' | ⟨-, -, honly⟩
    · -- the text begins with a hyphen, so it does not begin with a line end
      have hhead := hfirst.getElem?_length
      obtain ⟨rest, rfl, -⟩ := hfirst'.exists_eq_append
      rcases eq_nil_or_isLineEnd hdrop.symm with rfl | rfl | rfl
      · exact absurd hfirst'.least_le (by simp)
      · cases hhead
      · cases hhead
    · exact honly
  · intro honly
    refine ⟨behind, before, hopens, rfl, ?_⟩
    rcases eq_or_ne before [] with rfl | hne
    · exact .inr ⟨rfl, hfirst.toIsLineOf, honly rfl⟩
    · exact .inl ⟨hfirst.toIsLineOf, List.length_pos_iff.mpr hne,
        fun before' body' hline _ ↦ hfirst.le_length before' body' hline (Nat.zero_le _)⟩

end Fence

namespace Frontmatter

/-- The front matter of a note with such a block and such a body. -/
def ofBlock (block body : List Char) : Except Yaml.Fault Frontmatter :=
  match Yaml.parse block with
  | .ok (.map entries) =>
    if entries.all (·.1.isWritable) then .ok ⟨withTextKeys entries, String.ofList body, none⟩
    else .error .digits
  | .ok _ => .ok ⟨[], String.ofList body, none⟩
  | .error .malformed => .ok ⟨[], String.ofList body, some .malformed⟩
  | .error fault => .error fault

theorem ofText_of_split?_eq_some {text : String} {block body : List Char}
    (h : Fence.split? text.toList = some (block, body)) : ofText text = ofBlock block body := by
  rw [ofText, h]
  rfl

theorem body_of_ofBlock_eq_ok {block body : List Char} {f : Frontmatter} (h : ofBlock block body = .ok f) :
    f.body = String.ofList body := by
  rw [ofBlock] at h
  split at h
  · split at h
    · obtain rfl := Except.ok.inj h
      rfl
    · cases h
  · obtain rfl := Except.ok.inj h
    rfl
  · obtain rfl := Except.ok.inj h
    rfl
  · cases h

open Fence

/-- A text that does not open with a fence, or has no fence behind that one, is all body. Of every other
text the block is what stands between the opening fence and the first fence behind it, and the body is
what stands behind this one, if there is a line between the two or no further fence; and only then. -/
theorem block_ends_at_first_fence (text : String) :
    ((∀ behind before body, Opens text.toList behind → ¬IsLineOf behind before body) →
      ofText text = .ok ⟨[], text, none⟩) ∧
    ∀ behind before body, Opens text.toList behind → IsFirstFrom 0 behind before body →
      (split? text.toList = some (dropLineEnd before, body) ↔ (before = [] → NoneBelowFirst behind)) ∧
      ((before = [] → NoneBelowFirst behind) →
        ofText text = ofBlock (dropLineEnd before) body ∧
          ∀ f, ofText text = .ok f → f.body = String.ofList body) := by
  refine ⟨fun hnone ↦ ?_, fun behind before body hopens hfirst ↦ ?_⟩
  · rcases hsplit : split? text.toList with _ | ⟨block, body⟩
    · rw [ofText, hsplit]
    · obtain ⟨behind, before, hopens, -, hfirst | ⟨-, hline, -⟩⟩ := split?_eq_some_iff.mp hsplit
      · exact absurd hfirst.toIsLineOf (hnone _ _ _ hopens)
      · exact absurd hline (hnone _ _ _ hopens)
  · have hsplit := split?_eq_some_first_iff hopens hfirst
    refine ⟨hsplit, fun honly ↦ ?_⟩
    have htext := ofText_of_split?_eq_some (hsplit.mpr honly)
    exact ⟨htext, fun f hf ↦ body_of_ofBlock_eq_ok (htext.symm.trans hf)⟩

/-- The rules below the block stay in the body. -/
theorem block_ends_at_first_fence_of_rule :
    Opens "---\na: 1\n---\nbody\n---\nmore".toList "a: 1\n---\nbody\n---\nmore".toList ∧
    IsFirstFrom 0 "a: 1\n---\nbody\n---\nmore".toList "a: 1\n".toList "body\n---\nmore".toList ∧
    split? "---\na: 1\n---\nbody\n---\nmore".toList = some ("a: 1".toList, "body\n---\nmore".toList) ∧
    ofText "just text" = .ok ⟨[], "just text", none⟩ := by
  have hopens : Opens "---\na: 1\n---\nbody\n---\nmore".toList "a: 1\n---\nbody\n---\nmore".toList :=
    opening?_eq_some_iff.mp (by decide)
  have hfirst : IsFirstFrom 0 "a: 1\n---\nbody\n---\nmore".toList "a: 1\n".toList
      "body\n---\nmore".toList := by
    have hline := closing?_eq_some_iff.mp (show closing? "---\nbody\n---\nmore".toList = _ from rfl)
    refine ⟨hline.append (by decide : "a: 1\n".toList.getLast? = some '\n'), Nat.zero_le _,
      fun before' body' h _ ↦ ?_⟩
    by_contra hlt
    have hnot : ∀ n < 5, "a: 1\n---\nbody\n---\nmore".toList[n]? ≠ some '-' := by decide
    exact hnot _ (Nat.lt_of_not_le hlt) h.getElem?_length
  refine ⟨hopens, hfirst, ?_, (block_ends_at_first_fence "just text").1 ?_⟩
  · exact ((block_ends_at_first_fence _).2 _ _ _ hopens hfirst).1.mpr nofun
  · intro behind before body h
    exact nomatch opening?_eq_some_iff.mpr h

/-- The fence right behind the opening one does not end the block, if there is a further one. -/
theorem not_forall_ends_at_first_fence :
    ¬∀ (text : String) (behind before body : List Char), Opens text.toList behind →
      IsFirstFrom 0 behind before body → split? text.toList = some (dropLineEnd before, body) := by
  intro h
  have hfirst : IsFirstFrom 0 "---\nbody\n---\nmore".toList [] "body\n---\nmore".toList :=
    ⟨closing?_eq_some_iff.mp (by decide), le_rfl, fun _ _ _ _ ↦ Nat.zero_le _⟩
  have hopens : Opens "---\n---\nbody\n---\nmore".toList "---\nbody\n---\nmore".toList :=
    opening?_eq_some_iff.mp (by decide)
  exact absurd (h _ _ _ _ hopens hfirst) (by decide)

end Frontmatter

end NoteQuery
