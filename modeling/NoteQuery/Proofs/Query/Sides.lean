import NoteQuery.Proofs.Text.Trim
import NoteQuery.Query.Property

/-!
# The two sides of a property filter

The text of a property filter is split at a colon, the first one behind a part that meets a condition. The
splitter asks that no quote is open and that as many parentheses have been closed as opened
(`splitColon_eq_iff`); it does not ask which parenthesis a closing one belongs to. Trimming the text first
makes no difference to the operand that is made of the sides (`ofBracket_trim`).
-/

namespace NoteQuery.Property

variable {P Q : List Char → Prop} {cs name name' : List Char} {expression expression' : Option (List Char)}

/-! ## Splitting at a colon -/

/-- Whether no colon of a text stands behind a part that meets `P`. -/
def NoColon (P : List Char → Prop) (cs : List Char) : Prop := ∀ u v, cs = u ++ ':' :: v → ¬P u

theorem noColon_nil (P : List Char → Prop) : NoColon P [] := by
  intro u v h
  simp at h

theorem noColon_cons {c : Char} (hhead : c = ':' → ¬P []) (h : NoColon (fun u ↦ P (c :: u)) cs) :
    NoColon P (c :: cs) := by
  intro u v heq
  rcases List.cons_eq_append_iff.mp heq with ⟨rfl, hcolon⟩ | ⟨u, rfl, htail⟩
  · exact hhead (List.cons.inj hcolon).1.symm
  · exact h u v htail

theorem NoColon.of_append {before after : List Char} (h : NoColon P (before ++ cs ++ after))
    (hP : ∀ u, P u → P (before ++ u)) : NoColon P cs := by
  intro u v heq hu
  refine h (before ++ u) (v ++ after) ?_ (hP u hu)
  rw [heq]
  simp

/-- The colon and what follows it, if there is one. -/
def colonAnd : Option (List Char) → List Char
  | none => []
  | some expression => ':' :: expression

theorem colonAnd_inj : colonAnd expression = colonAnd expression' ↔ expression = expression' := by
  cases expression <;> cases expression' <;> simp [colonAnd]

/-- Whether a text is split into two sides at its first colon behind a part that meets `P`, or is all name
if there is none. -/
structure Sides (P : List Char → Prop) (cs name : List Char) (expression : Option (List Char)) : Prop where
  /-- The sides and the colon between them make up the text. -/
  eq_append : cs = name ++ colonAnd expression
  /-- The part before the colon meets the condition. -/
  meets : expression ≠ none → P name
  /-- No colon stands behind an earlier part that does. -/
  noColon : NoColon P name

theorem sides_nil (P : List Char → Prop) : Sides P [] [] none :=
  ⟨rfl, fun h ↦ absurd rfl h, noColon_nil P⟩

theorem sides_colon (h : P []) (cs : List Char) : Sides P (':' :: cs) [] (some cs) :=
  ⟨rfl, fun _ ↦ h, noColon_nil P⟩

namespace Sides

theorem cons {c : Char} (hhead : c = ':' → ¬P []) (h : Sides (fun u ↦ P (c :: u)) cs name expression) :
    Sides P (c :: cs) (c :: name) expression := by
  refine ⟨?_, h.meets, noColon_cons hhead h.noColon⟩
  rw [h.eq_append, List.cons_append]

/-- Of two ways to split a text the one with the shorter name splits it at a colon of the other's name. -/
theorem eq_or_exists_of_append (h : Sides P cs name expression) (h' : Sides Q cs name' expression')
    {more : List Char} (hmore : name' = name ++ more) :
    (name = name' ∧ expression = expression') ∨ ∃ v, name' = name ++ ':' :: v ∧ P name := by
  have htail : colonAnd expression = more ++ colonAnd expression' := by
    have heq := h.eq_append.symm.trans h'.eq_append
    rwa [hmore, List.append_assoc, List.append_right_inj] at heq
  cases more with
  | nil => exact .inl ⟨by rw [hmore, List.append_nil], colonAnd_inj.mp htail⟩
  | cons c v =>
    cases expression with
    | none => simp [colonAnd] at htail
    | some expression =>
      obtain ⟨rfl, -⟩ := List.cons.inj htail
      exact .inr ⟨v, hmore, h.meets (Option.some_ne_none _)⟩

/-- Two ways to split a text are the same, or one splits it at a colon of the other's name. -/
theorem eq_or_exists (h : Sides P cs name expression) (h' : Sides Q cs name' expression') :
    (name = name' ∧ expression = expression') ∨
      (∃ v, name' = name ++ ':' :: v ∧ P name) ∨ ∃ v, name = name' ++ ':' :: v ∧ Q name' := by
  rcases List.append_eq_append_iff.mp (h.eq_append.symm.trans h'.eq_append) with
    ⟨more, hmore, -⟩ | ⟨more, hmore, -⟩
  · rcases h.eq_or_exists_of_append h' hmore with hsame | hcolon
    · exact .inl hsame
    · exact .inr (.inl hcolon)
  · rcases h'.eq_or_exists_of_append h hmore with ⟨rfl, rfl⟩ | hcolon
    · exact .inl ⟨rfl, rfl⟩
    · exact .inr (.inr hcolon)

/-- A text is split in one way only. -/
theorem unique (h : Sides P cs name expression) (h' : Sides P cs name' expression') :
    name = name' ∧ expression = expression' := by
  rcases h.eq_or_exists h' with hsame | ⟨v, hv, hname⟩ | ⟨v, hv, hname⟩
  · exact hsame
  · exact absurd hname (h'.noColon name v hv)
  · exact absurd hname (h.noColon name' v hv)

/-- A condition that is met by the same parts of a text splits it in the same way. -/
theorem congr (h : Sides P cs name expression) (hPQ : ∀ u v, cs = u ++ v → (P u ↔ Q u)) :
    Sides Q cs name expression := by
  refine ⟨h.eq_append, fun hsome ↦ ?_, fun u v heq hu ↦ ?_⟩
  · exact (hPQ name _ h.eq_append).mp (h.meets hsome)
  · refine h.noColon u v heq ((hPQ u (':' :: v ++ colonAnd expression) ?_).mpr hu)
    rw [h.eq_append, heq, List.append_assoc]

/-- Two conditions split a text at the same colon exactly if the first one that either of them takes meets
both. -/
theorem and_iff : Sides P cs name expression ∧ Sides Q cs name expression ↔
    Sides (fun u ↦ P u ∨ Q u) cs name expression ∧ (expression ≠ none → P name ∧ Q name) := by
  constructor
  · rintro ⟨hP, hQ⟩
    refine ⟨⟨hP.eq_append, fun hsome ↦ .inl (hP.meets hsome), fun u v heq ↦ ?_⟩,
      fun hsome ↦ ⟨hP.meets hsome, hQ.meets hsome⟩⟩
    rintro (hu | hu)
    · exact hP.noColon u v heq hu
    · exact hQ.noColon u v heq hu
  · rintro ⟨h, hboth⟩
    exact ⟨⟨h.eq_append, fun hsome ↦ (hboth hsome).1, fun u v heq hu ↦ h.noColon u v heq (.inl hu)⟩,
      ⟨h.eq_append, fun hsome ↦ (hboth hsome).2, fun u v heq hu ↦ h.noColon u v heq (.inr hu)⟩⟩

end Sides

theorem exists_sides (P : List Char → Prop) (cs : List Char) : ∃ name expression, Sides P cs name expression := by
  induction cs generalizing P with
  | nil => exact ⟨[], none, sides_nil P⟩
  | cons c cs ih =>
    by_cases hhere : c = ':' ∧ P []
    · obtain ⟨rfl, hnil⟩ := hhere
      exact ⟨[], some cs, sides_colon hnil cs⟩
    · obtain ⟨name, expression, hsides⟩ := ih fun u ↦ P (c :: u)
      exact ⟨c :: name, expression, hsides.cons fun hcolon hnil ↦ hhere ⟨hcolon, hnil⟩⟩

/-! ## Counting parentheses -/

/-- One step of the splitter, which knows how many more parentheses have been opened than closed outside
quotes, and whether a quote is open. -/
def tally (s : Int × Bool) (c : Char) : Int × Bool :=
  if c = '"' then (s.1, !s.2)
  else if s.2 then s
  else if c = '(' then (s.1 + 1, s.2)
  else if c = ')' then (s.1 - 1, s.2)
  else s

/-- Whether no quote is open behind a text, and outside quotes as many parentheses have been closed in it as
opened. -/
def IsLevel (cs : List Char) : Prop := cs.foldl tally (0, false) = (0, false)

instance (cs : List Char) : Decidable (IsLevel cs) :=
  inferInstanceAs (Decidable (cs.foldl tally (0, false) = (0, false)))

theorem splitColonFrom_cons (before : List Char) (s : Int × Bool) (c : Char) (cs : List Char) :
    splitColonFrom before s.1 s.2 (c :: cs) =
      if c = ':' ∧ s = (0, false) then (before.reverse, some cs)
      else splitColonFrom (c :: before) (tally s c).1 (tally s c).2 cs := by
  obtain ⟨depth, inQuote⟩ := s
  rw [splitColonFrom, tally]
  by_cases hquote : c = '"'
  · simp [hquote]
  · cases inQuote with
    | true => simp [hquote]
    | false =>
      by_cases hopening : c = '('
      · simp [hopening]
      · by_cases hclosing : c = ')'
        · simp [hclosing]
        · simp [hquote, hopening, hclosing]

/-- From any state of the splitter on, the text is split where the state is the one it began with. -/
theorem exists_sides_splitColonFrom (before : List Char) (s : Int × Bool) (cs : List Char) :
    ∃ name expression, splitColonFrom before s.1 s.2 cs = (before.reverse ++ name, expression) ∧
      Sides (fun u ↦ u.foldl tally s = (0, false)) cs name expression := by
  induction cs generalizing before s with
  | nil => exact ⟨[], none, by rw [splitColonFrom, List.append_nil], sides_nil _⟩
  | cons c cs ih =>
    rw [splitColonFrom_cons]
    by_cases hhere : c = ':' ∧ s = (0, false)
    · obtain ⟨rfl, rfl⟩ := hhere
      exact ⟨[], some cs, by rw [if_pos ⟨rfl, rfl⟩, List.append_nil], sides_colon (by rfl) cs⟩
    · -- behind the character the state is another, from which the rest is split
      obtain ⟨name, expression, hsplit, hsides⟩ := ih (c :: before) (tally s c)
      refine ⟨c :: name, expression, ?_, hsides.cons fun hcolon hlevel ↦ hhere ⟨hcolon, hlevel⟩⟩
      rw [if_neg hhere, hsplit, List.reverse_cons, List.append_assoc, List.singleton_append]

theorem sides_splitColon (cs : List Char) : Sides IsLevel cs (splitColon cs).1 (splitColon cs).2 := by
  obtain ⟨name, expression, hsplit, hsides⟩ := exists_sides_splitColonFrom [] (0, false) cs
  rw [splitColon, hsplit]
  exact hsides

/-- The splitter splits a text at its first colon behind a part that is level. -/
theorem splitColon_eq_iff : splitColon cs = (name, expression) ↔ Sides IsLevel cs name expression := by
  constructor
  · intro h
    have hsides := sides_splitColon cs
    rwa [h] at hsides
  · intro h
    exact Prod.ext_iff.mpr ((sides_splitColon cs).unique h)

/-! ## Trimming -/

theorem tally_of_isBlank {c : Char} (h : Text.isBlank c = true) (s : Int × Bool) : tally s c = s := by
  have hne : c ≠ '"' ∧ c ≠ '(' ∧ c ≠ ')' := by
    refine ⟨?_, ?_, ?_⟩ <;> rintro rfl <;> exact absurd h (by decide)
  simp [tally, hne]

theorem isLevel_append_of_blank {blanks : List Char} (h : ∀ c ∈ blanks, Text.isBlank c = true)
    (u : List Char) : IsLevel (blanks ++ u) ↔ IsLevel u := by
  have hblanks : blanks.foldl tally (0, false) = (0, false) := by
    induction blanks with
    | nil => rfl
    | cons c blanks ih =>
      rw [List.foldl_cons, tally_of_isBlank (h c List.mem_cons_self)]
      exact ih fun d hd ↦ h d (List.mem_cons_of_mem c hd)
  rw [IsLevel, List.foldl_append, hblanks, IsLevel]

/-- The expression without blanks around it, if there is one and anything is left of it. -/
def kept (expression : Option (List Char)) : Option (List Char) :=
  (expression.map Text.trim).filter (· ≠ [])

theorem getD_kept (expression : Option (List Char)) :
    (kept expression).getD [] = Text.trim (expression.getD []) := by
  cases expression with
  | none => rfl
  | some e => by_cases he : Text.trim e = [] <;> simp [kept, Option.filter, he]

theorem splitColon_trim_of_some {e : List Char} (h : Sides IsLevel cs name (some e)) :
    splitColon (Text.trim cs) = (Text.trimStart name, some (Text.trimEnd e)) := by
  have hblank : ∀ c ∈ name.takeWhile Text.isBlank, Text.isBlank c = true :=
    fun c hc ↦ List.mem_takeWhile_imp hc
  have hname : name.takeWhile Text.isBlank ++ Text.trimStart name = name :=
    List.takeWhile_append_dropWhile
  refine splitColon_eq_iff.mpr ⟨?_, fun _ ↦ ?_, ?_⟩
  · rw [h.eq_append]
    exact Text.trim_append_cons (by decide) name e
  · rw [← isLevel_append_of_blank hblank, hname]
    exact h.meets (Option.some_ne_none e)
  · have hno : NoColon IsLevel (name.takeWhile Text.isBlank ++ Text.trimStart name ++ []) := by
      rw [List.append_nil, hname]
      exact h.noColon
    exact hno.of_append fun u hu ↦ (isLevel_append_of_blank hblank u).mpr hu

theorem splitColon_trim_of_none (h : Sides IsLevel cs name none) :
    splitColon (Text.trim cs) = (Text.trim name, none) := by
  obtain ⟨before, after, hname, hblank, -⟩ := Text.exists_eq_append_trim name
  refine splitColon_eq_iff.mpr ⟨?_, fun hsome ↦ absurd rfl hsome, ?_⟩
  · rw [h.eq_append]
    simp [colonAnd]
  · have hno := h.noColon
    rw [hname] at hno
    exact hno.of_append fun u hu ↦ (isLevel_append_of_blank hblank u).mpr hu

/-- **Operands.** The operand for the trimmed text of a filter is made of its trimmed sides. An expression
of which nothing is left is no expression. -/
theorem ofBracket_trim (h : Sides IsLevel cs name expression) :
    ofBracket (Text.trim cs)
      = payload (String.ofList (Text.trim name)) ((kept expression).map String.ofList) := by
  cases expression with
  | none =>
    have hkept : kept none = none := by rfl
    simp only [ofBracket, splitColon_trim_of_none h, Text.trim_trim, hkept, Option.map_none]
  | some e =>
    rw [ofBracket, splitColon_trim_of_some h]
    cases hend : Text.trimEnd e with
    | nil =>
      have hkept : kept (some e) = none := by
        have htrim : Text.trim e = [] := Text.trim_eq_nil_iff.mpr (Text.trimEnd_eq_nil_iff.mp hend)
        simp [kept, htrim]
      simp only [Text.trim_trimStart, hkept, Option.map_none]
    | cons c rest =>
      have hne : Text.trim e ≠ [] := by
        rw [ne_eq, Text.trim_eq_nil_iff, ← Text.trimEnd_eq_nil_iff, hend]
        exact List.cons_ne_nil c rest
      have hkept : kept (some e) = some (Text.trim e) := by simp [kept, hne]
      simp only [Text.trim_trimStart, hkept, Option.map_some, ← hend, Text.trim_trimEnd]

end NoteQuery.Property
