import NoteQuery.Proofs.Query.Sides

/-!
# Colons outside quotes and parentheses

The text of a property filter is meant to be split at its first free colon, one that stands neither in quotes
nor in parentheses. In the part before a free colon no parenthesis is open; closing ones that close nothing do
not matter. The splitter asks for a level part instead, in which as many parentheses are closed as opened, and
so a parenthesis that closes nothing hides the colons behind it, or makes up for one that is still open.

As long as every closing parenthesis has an opening one, a part is level exactly if its end is free. Once one
of them has closed nothing, a part is never both. So a text is split at its first free colon exactly if no such
parenthesis stands before the first colon that is free or behind a level part (`splitColon_free_iff`).
-/

namespace NoteQuery.Property

variable {cs : List Char}

/-! ## Matching parentheses -/

/-- How the parentheses of a text match outside quotes. -/
structure Nesting where
  /-- How many are open. -/
  opened : Nat
  /-- How many have closed nothing. -/
  unmatched : Nat
  /-- Whether a quote is open. -/
  inQuote : Bool
deriving Repr, DecidableEq

namespace Nesting

/-- The matching after one more character. -/
def next (s : Nesting) (c : Char) : Nesting :=
  if c = '"' then { s with inQuote := !s.inQuote }
  else if s.inQuote then s
  else if c = '(' then { s with opened := s.opened + 1 }
  else if c = ')' then
    if s.opened = 0 then { s with unmatched := s.unmatched + 1 } else { s with opened := s.opened - 1 }
  else s

/-- The matching in a text. -/
def ofText (cs : List Char) : Nesting := cs.foldl next ⟨0, 0, false⟩

/-- What the splitter counts of it: the open parentheses, less those that have closed nothing. -/
def tallied (s : Nesting) : Int × Bool := (s.opened - s.unmatched, s.inQuote)

theorem tally_tallied (s : Nesting) (c : Char) : tally s.tallied c = (s.next c).tallied := by
  obtain ⟨opened, unmatched, inQuote⟩ := s
  by_cases hquote : c = '"'
  · simp [tally, next, tallied, hquote]
  · cases inQuote with
    | true => simp [tally, next, tallied, hquote]
    | false =>
      by_cases hopening : c = '('
      · simp [tally, next, tallied, hopening]
        omega
      · by_cases hclosing : c = ')'
        · by_cases hzero : opened = 0
          · simp [tally, next, tallied, hclosing, hzero]
            omega
          · simp [tally, next, tallied, hclosing, hzero]
            omega
        · simp [tally, next, tallied, hquote, hopening, hclosing]

theorem foldl_tally_tallied (s : Nesting) (cs : List Char) :
    cs.foldl tally s.tallied = (cs.foldl next s).tallied :=
  List.foldl_hom tallied fun s c ↦ tally_tallied s c

theorem inQuote_next (s : Nesting) (c : Char) :
    (s.next c).inQuote = if c = '"' then !s.inQuote else s.inQuote := by
  unfold next
  split_ifs <;> rfl

theorem inQuote_foldl_next (s : Nesting) (cs : List Char) :
    (cs.foldl next s).inQuote = (s.inQuote ^^ decide (cs.count '"' % 2 = 1)) := by
  induction cs generalizing s with
  | nil => simp
  | cons c cs ih =>
    rw [List.foldl_cons, ih, inQuote_next, List.count_cons]
    by_cases hquote : c = '"'
    · have hparity : decide ((cs.count '"' + 1) % 2 = 1) = !decide (cs.count '"' % 2 = 1) := by
        rw [← decide_not, decide_eq_decide]
        omega
      simp [hquote, hparity]
    · simp [hquote]

end Nesting

/-! ## Level parts and free colons -/

/-- Whether the end of a text is free: it has an even number of quotes, and no parenthesis that stands outside
quotes is open. -/
def IsFree (cs : List Char) : Prop := cs.count '"' % 2 = 0 ∧ (Nesting.ofText cs).opened = 0

instance (cs : List Char) : Decidable (IsFree cs) :=
  inferInstanceAs (Decidable (_ ∧ _))

theorem isLevel_iff : IsLevel cs ↔
    cs.count '"' % 2 = 0 ∧ (Nesting.ofText cs).opened = (Nesting.ofText cs).unmatched := by
  have htally : cs.foldl tally (0, false) = (Nesting.ofText cs).tallied :=
    Nesting.foldl_tally_tallied ⟨0, 0, false⟩ cs
  have hquote : (Nesting.ofText cs).inQuote = false ↔ cs.count '"' % 2 = 0 := by
    rw [Nesting.ofText, Nesting.inQuote_foldl_next]
    simp
  rw [IsLevel, htally, Nesting.tallied, Prod.mk.injEq, hquote]
  omega

/-- A part is level and its end is free exactly if it is either and every closing parenthesis has an opening
one. -/
theorem isLevel_and_isFree_iff : IsLevel cs ∧ IsFree cs ↔
    (IsLevel cs ∨ IsFree cs) ∧ (Nesting.ofText cs).unmatched = 0 := by
  rw [isLevel_iff, IsFree]
  omega

/-- **The first free colon.** A text is split at its first colon behind a level part. This is its first free
colon, or there is neither, exactly if every closing parenthesis before the first colon that is free or behind
a level part has an opening one. -/
theorem splitColon_free_iff (cs : List Char) :
    Sides IsLevel cs (splitColon cs).1 (splitColon cs).2 ∧
    (Sides IsFree cs (splitColon cs).1 (splitColon cs).2 ↔
      ∀ name expression, Sides (fun u ↦ IsLevel u ∨ IsFree u) cs name (some expression) →
        (Nesting.ofText name).unmatched = 0) := by
  have hlevel := sides_splitColon cs
  refine ⟨hlevel, fun hfree name expression hfirst ↦ ?_, fun hmatched ↦ ?_⟩
  · obtain ⟨heither, hboth⟩ := Sides.and_iff.mp ⟨hlevel, hfree⟩
    obtain ⟨rfl, hsplit⟩ := heither.unique hfirst
    exact (isLevel_and_isFree_iff.mp (hboth (by simp [hsplit]))).2
  · obtain ⟨name, expression, hfirst⟩ := exists_sides (fun u ↦ IsLevel u ∨ IsFree u) cs
    have hboth : expression ≠ none → IsLevel name ∧ IsFree name := by
      intro hsome
      obtain ⟨e, rfl⟩ := Option.ne_none_iff_exists'.mp hsome
      exact isLevel_and_isFree_iff.mpr ⟨hfirst.meets hsome, hmatched name e hfirst⟩
    obtain ⟨hname, hfree⟩ := Sides.and_iff.mpr ⟨hfirst, hboth⟩
    obtain ⟨hname, hexpression⟩ := hlevel.unique hname
    rwa [hname, hexpression]

/-- Behind `a)` a colon is free and is not taken. -/
theorem not_forall_sides_isFree_splitColon :
    ¬∀ cs : List Char, Sides IsFree cs (splitColon cs).1 (splitColon cs).2 := by
  intro h
  have hsplit : splitColon "a): b".toList = ("a): b".toList, none) := by decide
  have hsides := h "a): b".toList
  rw [hsplit] at hsides
  exact hsides.noColon ['a', ')'] [' ', 'b'] (by decide) (by decide)

end NoteQuery.Property
