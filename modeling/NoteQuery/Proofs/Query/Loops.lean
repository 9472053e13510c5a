import NoteQuery.Proofs.Outcome
import NoteQuery.Query.Scan

/-!
# Loops over a text

The readers take what is left of a text. The same reading can be told by positions: a loop takes its steps at a
position, looks at a character of the text by its index, and goes on at another position or finishes there. Told
so, it could go wrong in ways that the readers cannot: an index may lie behind the end of the text, and a loop may
stay where it is for ever.

A loop moves on if neither happens, whatever its position in the text and its state (`Loop.MovesOn`). Then it ends
after at most as many steps as there are characters before it (`Loop.MovesOn.gives_run`). This is so for the loops
over blanks, words, phrases, filters and values. They are told as they look at the text, an index at a time; that
they read what the readers read is shown apart.
-/

namespace NoteQuery

namespace Scan

/-! ## Loops -/

/-- Why a loop stops before it finishes. -/
inductive Stop
  /-- The text has an open span. -/
  | fault (fault : QueryFault)
  /-- The text has no character at this index. -/
  | noCharacter (index : Nat)
  /-- The loop has taken all the steps it was given and goes on. -/
  | outOfSteps
deriving Repr, DecidableEq

/-- Whether the fault is one of the text. -/
def Stop.IsFault (stop : Stop) : Prop := ∃ fault, stop = .fault fault

/-- What a step comes to, and the position behind it. -/
inductive Step (σ α : Type)
  /-- The loop goes on in a new state. -/
  | again (position : Nat) (state : σ)
  /-- The loop has its result. -/
  | finish (position : Nat) (result : α)

/-- A loop over a text: the step it takes at a position in a state. -/
abbrev Loop (σ α : Type) := Nat → σ → Except Stop (Step σ α)

variable {σ α β : Type} {loop : Loop σ α} {total position budget steps : Nat} {state : σ}

/-- Takes steps until one finishes. At most `budget` steps may go on. -/
def Loop.run (loop : Loop σ α) (budget position : Nat) (state : σ) : Except Stop (α × Nat) :=
  match loop position state with
  | .error stop => .error stop
  | .ok (.finish behind result) => .ok (result, behind)
  | .ok (.again behind state) =>
    match budget with
    | 0 => .error .outOfSteps
    | budget + 1 => Loop.run loop budget behind state

theorem Loop.run_of_finish {behind : Nat} {result : α} (h : loop position state = .ok (.finish behind result))
    (budget : Nat) : loop.run budget position state = .ok (result, behind) := by
  rw [run.eq_def, h]

theorem Loop.run_of_again {behind : Nat} {state' : σ} (h : loop position state = .ok (.again behind state'))
    (hbudget : 0 < budget) : loop.run budget position state = loop.run (budget - 1) behind state' := by
  obtain ⟨budget, rfl⟩ := Nat.exists_eq_add_one.mpr hbudget
  rw [run.eq_def, h]
  rfl

theorem Loop.run_of_error {stop : Stop} (h : loop position state = .error stop) (budget : Nat) :
    loop.run budget position state = .error stop := by
  rw [run.eq_def, h]

/-- Whether a step goes on further along in a text of so many characters, or finishes no earlier than it began. -/
def Step.LeadsOn (position total : Nat) : Step σ α → Prop
  | .again behind _ => position < behind ∧ behind ≤ total
  | .finish behind _ => position ≤ behind ∧ behind ≤ total

/-- Whether all steps of a loop lead on in a text of so many characters, unless they find a fault of the text. -/
def Loop.MovesOn (loop : Loop σ α) (total : Nat) : Prop :=
  ∀ position ≤ total, ∀ state, Gives (loop position state) (Step.LeadsOn position total) Stop.IsFault

/-- A loop that moves on ends, in the text or with a fault, after at most as many steps as there are characters
before it. -/
theorem Loop.MovesOn.gives_run (h : loop.MovesOn total) (hposition : position ≤ total)
    (hbudget : total - position ≤ budget) (state : σ) :
    Gives (loop.run budget position state) (fun found ↦ position ≤ found.2 ∧ found.2 ≤ total) Stop.IsFault := by
  fun_induction Loop.run loop budget position state with
  | case1 budget position state stop hstop => exact (h position hposition state).fault hstop
  | case2 budget position state behind result hfinish => exact (h position hposition state).value hfinish
  | case3 position state behind state' hagain =>
    obtain ⟨hlt, hle⟩ := (h position hposition state).value hagain
    omega
  | case4 position state behind state' hagain budget ih =>
    obtain ⟨hlt, hle⟩ := (h position hposition state).value hagain
    refine (ih hle (by omega)).mono (fun found hfound ↦ ?_) fun _ hfault ↦ hfault
    exact ⟨Nat.le_trans (Nat.le_of_lt hlt) hfound.1, hfound.2⟩

/-- Whether a loop comes to a position and a state after so many steps that go on. -/
inductive Loop.Visits (loop : Loop σ α) (position : Nat) (state : σ) : Nat → Nat → σ → Prop
  /-- No step has been taken. -/
  | start : Visits loop position state 0 position state
  /-- One more step goes on. -/
  | next {steps here behind : Nat} {state' state'' : σ} (hvisits : Visits loop position state steps here state')
    (hstep : loop here state' = .ok (.again behind state'')) :
    Visits loop position state (steps + 1) behind state''

/-- A loop that moves on is at least one character further after each step, and never behind the end. -/
theorem Loop.MovesOn.of_visits (h : loop.MovesOn total) (hposition : position ≤ total) {here : Nat} {state' : σ}
    (hvisits : loop.Visits position state steps here state') : position + steps ≤ here ∧ here ≤ total := by
  induction hvisits with
  | start => exact ⟨Nat.le_refl position, hposition⟩
  | next _ hstep ih =>
    obtain ⟨hle, hhere⟩ := ih
    obtain ⟨hlt, hbehind⟩ := (h _ hhere _).value hstep
    exact ⟨by omega, hbehind⟩

/-! ## Characters by index -/

/-- The character of a text at an index. -/
def characterAt (text : List Char) (index : Nat) : Except Stop Char :=
  match text[index]? with
  | some c => .ok c
  | none => .error (.noCharacter index)

theorem characterAt_of_lt {text : List Char} {index : Nat} (h : index < text.length) :
    characterAt text index = .ok text[index] := by
  rw [characterAt, List.getElem?_eq_getElem h]

/-- Looks at the character at a position, unless this is the end of the text. -/
def look (text : List Char) (position : Nat) (atEnd : Except Stop β) (go : Char → Except Stop β) : Except Stop β :=
  if position < text.length then characterAt text position >>= go else atEnd

theorem gives_look {text : List Char} {atEnd : Except Stop β} {go : Char → Except Stop β} {P : β → Prop}
    {E : Stop → Prop} (hend : Gives atEnd P E) (hgo : position < text.length → ∀ c, Gives (go c) P E) :
    Gives (look text position atEnd go) P E := by
  rw [look]
  split
  · rename_i hlt
    rw [characterAt_of_lt hlt]
    exact hgo hlt text[position]
  · exact hend

/-! ## Runs of characters -/

/-- Passes over characters. -/
def whileAt (text : List Char) (p : Char → Bool) : Loop Unit Unit := fun position _ ↦
  look text position (.ok (.finish position ())) fun c ↦
    .ok (if p c then .again (position + 1) () else .finish position ())

/-! ## Spans -/

/-- Takes a phrase, of which a part has been read. It begins at `start`. -/
def quotedAt (text : List Char) (start : Nat) : Loop (List Char) (List Char) := fun position out ↦
  look text position (.error (.fault (.openQuote start))) fun c ↦
    if c = '\\' then
      look text (position + 1) (.ok (.again (position + 1) out)) fun d ↦ .ok (.again (position + 2) (out ++ [d]))
    else if c = '"' then .ok (.finish (position + 1) out)
    else .ok (.again (position + 1) (out ++ [c]))

/-- The phrase that begins at a position. -/
def readQuotedAt (text : List Char) (position : Nat) : Except Stop (List Char × Nat) :=
  (quotedAt text position).run text.length (position + 1) []

/-- Takes the text of a filter, of which a part has been read, `depth` further brackets being open. The filter
begins at `start`. -/
def bracketAt (text : List Char) (start : Nat) : Loop (Nat × List Char) (List Char) := fun position (depth, out) ↦
  look text position (.error (.fault (.openBracket start))) fun c ↦
    if c = '"' then do
      let (phrase, behind) ← readQuotedAt text position
      .ok (.again behind (depth, out ++ ('"' :: phrase ++ ['"'])))
    else if c = '[' then .ok (.again (position + 1) (depth + 1, out ++ [c]))
    else if c = ']' then
      match depth with
      | 0 => .ok (.finish (position + 1) out)
      | depth + 1 => .ok (.again (position + 1) (depth, out ++ [c]))
    else .ok (.again (position + 1) (depth, out ++ [c]))

/-- The text of the filter that begins at a position. -/
def readBracketAt (text : List Char) (position : Nat) : Except Stop (List Char × Nat) :=
  (bracketAt text position).run text.length (position + 1) (0, [])

/-- The number of backslashes right before an index of a text. -/
def backslashesBefore (text : List Char) : Nat → Except Stop Nat
  | 0 => .ok 0
  | index + 1 => do
    let c ← characterAt text index
    if c = '\\' then (backslashesBefore text index).map (· + 1) else .ok 0

/-- Whether a text ends in a quote that no odd run of backslashes precedes. -/
def endsQuotedAt (body : List Char) : Except Stop Bool :=
  if body.getLast? = some '"' then (backslashesBefore body (body.length - 1)).map (· % 2 == 0) else .ok false

/-- Carries a quoted value on, of which `body` has been read. It begins at `start`. -/
def spanningAt (text : List Char) (start : Nat) : Loop (List Char) (List Char) := fun position body ↦ do
  if ← endsQuotedAt body then
    .ok (.finish position (unescapeQuotes body.dropLast))
  else
    look text position (.error (.fault (.openQuote start))) fun c ↦ .ok (.again (position + 1) (body ++ [c]))

/-! ## Words -/

/-- The value of a field, of which `value` stands before a position, in the same word. -/
def readValueAt (text value : List Char) (position : Nat) : Except Stop (List Char × Nat) :=
  match value with
  | [] =>
    look text position (.ok (stripOuterQuotes [], position)) fun c ↦
      if c = '"' then readQuotedAt text position else .ok (stripOuterQuotes [], position)
  | '"' :: body => (spanningAt text (position - value.length)).run text.length position body
  | value => .ok (stripOuterQuotes value, position)

/-- The word at a position: the word `OR`, a bare word or a field with its value. -/
def readWordAt (text defaultKey : List Char) (neg : Bool) (position : Nat) (ts : List (Token Term)) :
    Except Stop (Step (List (Token Term)) (List (Token Term))) := do
  let (_, behind) ← (whileAt text inWord).run text.length position ()
  let word := text.extract position behind
  if word.isEmpty then
    .ok (.again (behind + 1) ts)
  else if !neg && Text.lower word == ['o', 'r'] then
    .ok (.again behind (ts ++ [.or]))
  else
    match splitField word with
    | none => .ok (.again behind (ts ++ [termToken defaultKey (stripOuterQuotes word) neg]))
    | some (key, value) => do
      let (value, behind) ← readValueAt text value behind
      .ok (.again behind (ts ++ [termToken (Text.lower key) value neg]))

/-! ## Passes -/

/-- The token that begins with a certain character at a position. -/
def readTokenAt (text defaultKey : List Char) (neg : Bool) (position : Nat) (ts : List (Token Term)) (c : Char) :
    Except Stop (Step (List (Token Term)) (List (Token Term))) :=
  if c = '(' then .ok (.again (position + 1) (ts ++ [.opening]))
  else if c = ')' then .ok (.again (position + 1) (ts ++ [.closing]))
  else if c = '[' then do
    let (inner, behind) ← readBracketAt text position
    .ok (.again behind (ts ++ [.term ⟨"prop", Property.ofBracket (Text.trim inner), neg⟩]))
  else if c = '"' then do
    let (value, behind) ← readQuotedAt text position
    .ok (.again behind (ts ++ [termToken defaultKey value neg]))
  else readWordAt text defaultKey neg position ts

/-- Takes the tokens of a text, of which some have been taken. -/
def passAt (text defaultKey : List Char) : Loop (List (Token Term)) (List (Token Term)) := fun position ts ↦ do
  let (_, position) ← (whileAt text Text.isBlank).run text.length position ()
  look text position (.ok (.finish position ts)) fun c ↦
    if c = '-' then do
      let (_, position) ← (whileAt text Text.isBlank).run text.length (position + 1) ()
      look text position (.ok (.finish position ts)) fun c ↦ readTokenAt text defaultKey true position ts c
    else readTokenAt text defaultKey false position ts c

/-! ## Steps that lead on -/

variable {text : List Char}

theorem whileAt_movesOn (text : List Char) (p : Char → Bool) : (whileAt text p).MovesOn text.length := by
  intro position hposition _
  refine gives_look ⟨Nat.le_refl position, hposition⟩ fun hlt c ↦ ?_
  rw [Gives]
  split
  · exact ⟨Nat.lt_succ_self position, hlt⟩
  · exact ⟨Nat.le_refl position, hposition⟩

theorem quotedAt_movesOn (text : List Char) (start : Nat) : (quotedAt text start).MovesOn text.length := by
  intro position _ out
  refine gives_look ⟨_, rfl⟩ fun hlt c ↦ ?_
  split
  · refine gives_look ⟨Nat.lt_succ_self position, hlt⟩ fun hnext d ↦ ?_
    exact ⟨Nat.lt_add_of_pos_right Nat.two_pos, hnext⟩
  · split
    · exact ⟨Nat.le_succ position, hlt⟩
    · exact ⟨Nat.lt_succ_self position, hlt⟩

theorem gives_readQuotedAt (h : position < text.length) :
    Gives (readQuotedAt text position) (fun found ↦ position < found.2 ∧ found.2 ≤ text.length) Stop.IsFault :=
  (quotedAt_movesOn text position).gives_run h (Nat.sub_le _ _) []

theorem bracketAt_movesOn (text : List Char) (start : Nat) : (bracketAt text start).MovesOn text.length := by
  rintro position - ⟨depth, out⟩
  refine gives_look ⟨_, rfl⟩ fun hlt c ↦ ?_
  split
  · exact (gives_readQuotedAt hlt).bind fun _ hfound ↦ hfound
  · split
    · exact ⟨Nat.lt_succ_self position, hlt⟩
    · split
      · split
        · exact ⟨Nat.le_succ position, hlt⟩
        · exact ⟨Nat.lt_succ_self position, hlt⟩
      · exact ⟨Nat.lt_succ_self position, hlt⟩

/-- No index is behind the end, since the backslashes are looked for before an index of the text. -/
theorem backslashesBefore_eq {index : Nat} (h : index ≤ text.length) :
    backslashesBefore text index = .ok ((text.take index).reverse.takeWhile (· == '\\')).length := by
  induction index with
  | zero => rfl
  | succ index ih =>
    have hlt : index < text.length := h
    rw [backslashesBefore, characterAt_of_lt hlt, ih (Nat.le_of_succ_le h), List.take_succ_eq_append_getElem hlt,
      List.reverse_append, List.reverse_singleton, List.singleton_append, List.takeWhile_cons]
    change (if text[index] = '\\' then _ else _) = _
    by_cases hc : text[index] = '\\'
    · rw [if_pos hc, if_pos (beq_iff_eq.mpr hc)]
      rfl
    · rw [if_neg hc, if_neg (mt beq_iff_eq.mp hc)]
      rfl

theorem endsQuotedAt_eq (body : List Char) : endsQuotedAt body = .ok (endsQuoted body.reverse) := by
  rcases List.eq_nil_or_concat body with rfl | ⟨before, c, rfl⟩
  · rfl
  · rw [List.concat_eq_append, endsQuotedAt, List.getLast?_concat, List.reverse_concat]
    by_cases hc : c = '"'
    · rw [if_pos (congrArg some hc), backslashesBefore_eq (Nat.sub_le _ _), List.length_append, List.length_singleton,
        Nat.add_sub_cancel, List.take_left, hc]
      rfl
    · rw [if_neg (mt Option.some.inj hc)]
      unfold endsQuoted
      split
      · rename_i hquote
        exact absurd (List.cons.inj hquote).1 hc
      · rfl

/-- A value that is read last character first is the one that the loop carries on. -/
theorem spanningAt_reverse (text : List Char) (start position : Nat) (value : List Char) :
    spanningAt text start position value.reverse =
      if endsQuoted value then .ok (.finish position (unescapeQuotes value.tail.reverse))
      else
        look text position (.error (.fault (.openQuote start))) fun c ↦
          .ok (.again (position + 1) (value.reverse ++ [c])) := by
  rw [spanningAt, endsQuotedAt_eq, List.reverse_reverse, List.dropLast_reverse]
  rfl

theorem spanningAt_movesOn (text : List Char) (start : Nat) : (spanningAt text start).MovesOn text.length := by
  intro position hposition body
  rw [← List.reverse_reverse body, spanningAt_reverse]
  split
  · exact ⟨Nat.le_refl position, hposition⟩
  · exact gives_look ⟨_, rfl⟩ fun hlt c ↦ ⟨Nat.lt_succ_self position, hlt⟩

end Scan

end NoteQuery
