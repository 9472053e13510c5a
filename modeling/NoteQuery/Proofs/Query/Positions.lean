import Mathlib
import NoteQuery.Proofs.Query.Loops
import NoteQuery.Proofs.Query.Scanning

/-!
# Reading by positions

The loops over a text read what the readers read: where so much of the text is left (`IsAt`), a loop finishes at
the position where the reader leaves off, or stops with the fault that its open span is (`Finds`, `Follows`). So
the last loop, which takes the tokens, moves on too, and it takes the tokens that a query is read into. No loop
looks behind the end of the text or stays where it is, the tokens are taken in at most as many passes as the text
has characters, and there are no more of them (`reading_moves_on`).
-/

namespace NoteQuery

namespace Scan

variable {σ β : Type} {position budget : Nat} {text rest : List Char}

/-! ## What is left at a position -/

/-- Whether so much of a text is left at a position. -/
def IsAt (text : List Char) (position : Nat) (rest : List Char) : Prop :=
  ∃ before, text = before ++ rest ∧ before.length = position

namespace IsAt

variable {c : Char}

theorem zero (text : List Char) : IsAt text 0 text := ⟨[], rfl, rfl⟩

theorem of_le (h : position ≤ text.length) : IsAt text position (text.drop position) :=
  ⟨text.take position, (List.take_append_drop position text).symm, List.length_take_of_le h⟩

theorem length_eq (h : IsAt text position rest) : text.length = position + rest.length := by
  obtain ⟨before, rfl, rfl⟩ := h
  exact List.length_append

theorem le (h : IsAt text position rest) : position ≤ text.length := by
  rw [h.length_eq]
  exact Nat.le_add_right position rest.length

theorem length_le (h : IsAt text position rest) : rest.length ≤ text.length := by
  rw [h.length_eq]
  exact Nat.le_add_left rest.length position

theorem eq_length (h : IsAt text position []) : position = text.length := h.length_eq.symm

theorem append (taken : List Char) (h : IsAt text position (taken ++ rest)) :
    IsAt text (position + taken.length) rest := by
  obtain ⟨before, rfl, rfl⟩ := h
  exact ⟨before ++ taken, (List.append_assoc before taken rest).symm, List.length_append⟩

theorem next (h : IsAt text position (c :: rest)) : IsAt text (position + 1) rest :=
  append [c] h

theorem characterAt (h : IsAt text position (c :: rest)) : characterAt text position = .ok c := by
  obtain ⟨before, rfl, rfl⟩ := h
  rw [Scan.characterAt, List.getElem?_append_right (Nat.le_refl _), Nat.sub_self]
  rfl

theorem look_cons (h : IsAt text position (c :: rest)) (atEnd : Except Stop β) (go : Char → Except Stop β) :
    look text position atEnd go = go c := by
  have hlt : position < text.length := by
    rw [h.length_eq, List.length_cons]
    omega
  rw [look, if_pos hlt, h.characterAt]
  rfl

theorem look_nil (h : IsAt text position []) (atEnd : Except Stop β) (go : Char → Except Stop β) :
    look text position atEnd go = atEnd := by
  rw [look, if_neg]
  rw [h.length_eq]
  exact Nat.lt_irrefl position

end IsAt

/-! ## What is found -/

/-- What a reader finds, told by the position behind it, or by the position of an open span. -/
def Finds (text : List Char) (outcome : Except Stop (β × Nat)) : Except OpenSpan (β × List Char) → Prop
  | .ok (found, rest) => ∃ behind, IsAt text behind rest ∧ outcome = .ok (found, behind)
  | .error span => outcome = .error (.fault (span.toFault text.length))

/-- What is found behind a text that has been taken already. -/
def prepend (taken : List Char) (found : List Char × List Char) : List Char × List Char :=
  (taken ++ found.1, found.2)

theorem map_prepend_append (x : Except OpenSpan (List Char × List Char)) (out taken : List Char) :
    (x.map fun (s, after) ↦ (taken ++ s, after)).map (prepend out) = x.map (prepend (out ++ taken)) := by
  cases x with
  | error span => rfl
  | ok found =>
    obtain ⟨s, after⟩ := found
    exact congrArg (fun all ↦ Except.ok (all, after)) (List.append_assoc out taken s).symm

theorem map_prepend_nil (x : Except OpenSpan (List Char × List Char)) : x.map (prepend []) = x := by
  cases x with
  | error span => rfl
  | ok found => rfl

/-- A span that is found, or the open quote with so many characters from it to the end. -/
def quoteOr (left : Nat) : Option β → Except OpenSpan β
  | some found => .ok found
  | none => .error (.quote left)

theorem quoteOr_map {γ : Type} (left : Nat) (found : Option β) (f : β → γ) :
    quoteOr left (found.map f) = (quoteOr left found).map f := by
  cases found with
  | none => rfl
  | some b => rfl

theorem finds_error_quote {start : Nat} {outcome : Except Stop (β × Nat)} (hstart : start ≤ text.length)
    (h : outcome = .error (.fault (.openQuote start))) :
    Finds text outcome (.error (.quote (text.length - start))) := by
  rw [Finds, OpenSpan.toFault, Nat.sub_sub_self hstart, h]

theorem finds_of_again {loop : Loop σ (List Char)} {state state' : σ} {behind : Nat} (taken : List Char)
    {out : List Char} {x : Except OpenSpan (List Char × List Char)}
    (hagain : loop position state = .ok (.again behind state'))
    (hbudget : 0 < budget)
    (hrest : Finds text (loop.run (budget - 1) behind state') (x.map (prepend (out ++ taken)))) :
    Finds text (loop.run budget position state) ((x.map fun (s, after) ↦ (taken ++ s, after)).map (prepend out)) := by
  rw [Loop.run_of_again hagain hbudget, map_prepend_append]
  exact hrest

/-- At whatever position the loop goes on, it finds what the reader finds in the text that is left, behind what has
been taken. -/
theorem run_quotedAt {start : Nat} (hstart : start ≤ text.length) (h : IsAt text position rest)
    (hbudget : rest.length ≤ budget) (out : List Char) :
    Finds text ((quotedAt text start).run budget position out)
      ((quoteOr (text.length - start) (readQuoted rest)).map (prepend out)) := by
  fun_induction readQuoted rest generalizing budget position out with
  | case1 =>
    have hstop : quotedAt text start position out = .error (.fault (.openQuote start)) := by
      rw [quotedAt, h.look_nil]
    exact finds_error_quote hstart (Loop.run_of_error hstop budget)
  | case2 tail =>
    have hfinish : quotedAt text start position out = .ok (.finish (position + 1) out) := by
      rw [quotedAt, h.look_cons, if_neg (by decide), if_pos rfl]
    refine ⟨position + 1, h.next, ?_⟩
    rw [Loop.run_of_finish hfinish, List.append_nil]
  | case3 c tail ih =>
    have hagain : quotedAt text start position out = .ok (.again (position + 2) (out ++ [c])) := by
      rw [quotedAt, h.look_cons, if_pos rfl, h.next.look_cons]
    simp only [List.length_cons] at hbudget
    rw [quoteOr_map]
    exact finds_of_again [c] hagain (by omega) (ih h.next.next (by omega) (out ++ [c]))
  | case4 tail hquote hescape =>
    -- the backslash is the last character of the text
    obtain rfl : tail = [] := List.eq_nil_iff_forall_not_mem.mpr fun d hd ↦ by
      obtain ⟨e, tail, rfl⟩ := List.exists_cons_of_ne_nil (List.ne_nil_of_mem hd)
      exact hescape e tail rfl rfl
    have hagain : quotedAt text start position out = .ok (.again (position + 1) out) := by
      rw [quotedAt, h.look_cons, if_pos rfl, h.next.look_nil]
    have hstop : quotedAt text start (position + 1) out = .error (.fault (.openQuote start)) := by
      rw [quotedAt, h.next.look_nil]
    exact finds_error_quote hstart ((Loop.run_of_again hagain hbudget).trans (Loop.run_of_error hstop _))
  | case5 c tail hquote hescape hback ih =>
    have hagain : quotedAt text start position out = .ok (.again (position + 1) (out ++ [c])) := by
      rw [quotedAt, h.look_cons, if_neg hback, if_neg hquote]
    rw [List.length_cons] at hbudget
    rw [quoteOr_map]
    exact finds_of_again [c] hagain (by omega) (ih h.next (by omega) (out ++ [c]))

theorem finds_readQuotedAt (h : IsAt text position ('"' :: rest)) :
    Finds text (readQuotedAt text position) (quoteOr (rest.length + 1) (readQuoted rest)) := by
  have hlength := h.length_eq
  rw [List.length_cons] at hlength
  have hfinds : Finds text (readQuotedAt text position) _ := run_quotedAt h.le h.next (by omega) []
  rwa [map_prepend_nil, hlength, Nat.add_sub_cancel_left] at hfinds

theorem run_bracketAt {start : Nat} (hstart : start ≤ text.length) {depth : Nat} (h : IsAt text position rest)
    (hbudget : rest.length ≤ budget) (out : List Char) :
    Finds text ((bracketAt text start).run budget position (depth, out))
      ((readBracket (text.length - start) depth rest).map (prepend out)) := by
  fun_induction readBracket (text.length - start) depth rest generalizing budget position out with
  | case1 depth =>
    have hstop : bracketAt text start position (depth, out) = .error (.fault (.openBracket start)) := by
      rw [bracketAt, h.look_nil]
    refine (Loop.run_of_error hstop budget).trans ?_
    rw [OpenSpan.toFault, Nat.sub_sub_self hstart]
  | case2 depth tail hopen =>
    have hfinds := finds_readQuotedAt h
    rw [hopen] at hfinds
    have hstop : bracketAt text start position (depth, out)
        = .error (.fault ((OpenSpan.quote (tail.length + 1)).toFault text.length)) := by
      rw [bracketAt, h.look_cons, if_pos rfl, hfinds]
      rfl
    exact Loop.run_of_error hstop budget
  | case3 depth tail phrase after hquoted ih =>
    have hlt := length_lt_of_readQuoted hquoted
    have hfinds := finds_readQuotedAt h
    rw [hquoted] at hfinds
    obtain ⟨behind, hbehind, hphrase⟩ := hfinds
    have hagain : bracketAt text start position (depth, out)
        = .ok (.again behind (depth, out ++ ('"' :: phrase ++ ['"']))) := by
      rw [bracketAt, h.look_cons, if_pos rfl, hphrase]
      rfl
    rw [List.length_cons] at hbudget
    have hrest : Finds text ((bracketAt text start).run budget position (depth, out)) _ :=
      finds_of_again ('"' :: phrase ++ ['"']) hagain (by omega) (ih hbehind (by omega) _)
    simpa using hrest
  | case4 depth tail hquote ih =>
    have hagain : bracketAt text start position (depth, out)
        = .ok (.again (position + 1) (depth + 1, out ++ ['['])) := by
      rw [bracketAt, h.look_cons, if_neg hquote, if_pos rfl]
    rw [List.length_cons] at hbudget
    exact finds_of_again ['['] hagain (by omega) (ih h.next (by omega) _)
  | case5 tail hquote hopening =>
    have hfinish : bracketAt text start position (0, out) = .ok (.finish (position + 1) out) := by
      rw [bracketAt, h.look_cons, if_neg hquote, if_neg hopening, if_pos rfl]
    refine ⟨position + 1, h.next, ?_⟩
    rw [Loop.run_of_finish hfinish, List.append_nil]
  | case6 tail depth hquote hopening ih =>
    have hagain : bracketAt text start position (depth + 1, out)
        = .ok (.again (position + 1) (depth, out ++ [']'])) := by
      rw [bracketAt, h.look_cons, if_neg hquote, if_neg hopening, if_pos rfl]
    rw [List.length_cons] at hbudget
    exact finds_of_again [']'] hagain (by omega) (ih h.next (by omega) _)
  | case7 depth c tail hquote hopening hclosing ih =>
    have hagain : bracketAt text start position (depth, out) = .ok (.again (position + 1) (depth, out ++ [c])) := by
      rw [bracketAt, h.look_cons, if_neg hquote, if_neg hopening, if_neg hclosing]
    rw [List.length_cons] at hbudget
    exact finds_of_again [c] hagain (by omega) (ih h.next (by omega) _)

theorem finds_readBracketAt (h : IsAt text position ('[' :: rest)) :
    Finds text (readBracketAt text position) (readBracket (rest.length + 1) 0 rest) := by
  have hlength := h.length_eq
  rw [List.length_cons] at hlength
  have hfinds : Finds text (readBracketAt text position) _ := run_bracketAt h.le h.next (by omega) []
  rwa [map_prepend_nil, hlength, Nat.add_sub_cancel_left] at hfinds

theorem run_spanningAt {start : Nat} (hstart : start ≤ text.length) {value : List Char}
    (h : IsAt text position rest) (hbudget : rest.length ≤ budget) :
    Finds text ((spanningAt text start).run budget position value.reverse)
      (quoteOr (text.length - start) (readSpanning value rest)) := by
  fun_induction readSpanning value rest generalizing budget position with
  | case1 value hends | case3 value c tail hends =>
    have hfinish : spanningAt text start position value.reverse
        = .ok (.finish position (unescapeQuotes value.tail.reverse)) := by
      rw [spanningAt_reverse, if_pos hends]
    exact ⟨position, h, Loop.run_of_finish hfinish budget⟩
  | case2 value hends =>
    have hstop : spanningAt text start position value.reverse = .error (.fault (.openQuote start)) := by
      rw [spanningAt_reverse, if_neg hends, h.look_nil]
    exact finds_error_quote hstart (Loop.run_of_error hstop budget)
  | case4 value c tail hends ih =>
    have hagain : spanningAt text start position value.reverse
        = .ok (.again (position + 1) (c :: value).reverse) := by
      rw [spanningAt_reverse, if_neg hends, h.look_cons, List.reverse_cons]
    rw [List.length_cons] at hbudget
    rw [Loop.run_of_again hagain (by omega)]
    exact ih h.next (by omega)

/-! ## Words and passes -/

theorem run_whileAt (h : IsAt text position rest) (hbudget : rest.length ≤ budget)
    (p : Char → Bool) :
    (whileAt text p).run budget position () = .ok ((), position + (rest.takeWhile p).length) := by
  induction rest generalizing position budget with
  | nil => exact Loop.run_of_finish (h.look_nil _ _) budget
  | cons c rest ih =>
    rw [List.length_cons] at hbudget
    by_cases hc : p c = true
    · have hstep : whileAt text p position () = .ok (.again (position + 1) ()) := by
        rw [whileAt, h.look_cons, if_pos hc]
      rw [Loop.run_of_again hstep (by omega), ih h.next (by omega), List.takeWhile_cons_of_pos hc,
        List.length_cons, Nat.add_right_comm, Nat.add_assoc]
    · have hstep : whileAt text p position () = .ok (.finish position ()) := by
        rw [whileAt, h.look_cons, if_neg hc]
      rw [Loop.run_of_finish hstep, List.takeWhile_cons_of_neg hc]
      rfl

/-- What a step of the last loop comes to, if the tokens `ts` have been taken, told by what a pass comes to. -/
def Follows (text : List Char) (ts : List (Token Term))
    (outcome : Except Stop (Step (List (Token Term)) (List (Token Term)))) : Pass → Prop
  | .done => outcome = .ok (.finish text.length ts)
  | .open span => outcome = .error (.fault (span.toFault text.length))
  | .read token rest => ∃ behind, IsAt text behind rest ∧ outcome = .ok (.again behind (ts ++ token.toList))

variable {defaultKey : List Char} {neg : Bool} {ts : List (Token Term)}

/-- The pass that takes its token from what is found. -/
def Pass.ofFound (token : β → Token Term) : Except OpenSpan (β × List Char) → Pass
  | .ok (b, rest) => .read (some (token b)) rest
  | .error span => .open span

theorem Finds.follows {outcome : Except Stop (β × Nat)} {found : Except OpenSpan (β × List Char)}
    (h : Finds text outcome found) (token : β → Token Term) :
    Follows text ts (outcome >>= fun (b, behind) ↦ .ok (.again behind (ts ++ [token b])))
      (Pass.ofFound token found) := by
  match found with
  | .ok (b, rest) =>
    obtain ⟨behind, hbehind, rfl⟩ := h
    exact ⟨behind, hbehind, rfl⟩
  | .error span =>
    rw [Finds] at h
    rw [h]
    rfl

theorem finds_readValueAt {value : List Char} (hvalue : value.length ≤ position) (h : IsAt text position rest) :
    Finds text (readValueAt text value position) (readValue value rest) := by
  unfold readValue
  split
  · rename_i tail
    have hfinds := finds_readQuotedAt h
    rw [readValueAt, h.look_cons, if_pos rfl]
    cases hread : readQuoted tail with
    | none | some found =>
      rw [hread] at hfinds
      exact hfinds
  · rename_i body
    have hlength := h.length_eq
    rw [List.length_cons] at hvalue
    have hstart : position - (body.length + 1) ≤ text.length := by omega
    have hleft : text.length - (position - (body.length + 1)) = body.length + 1 + rest.length := by omega
    have hfinds : Finds text (readValueAt text ('"' :: body) position) _ :=
      body.reverse_reverse ▸ run_spanningAt hstart h (by omega)
    rw [hleft] at hfinds
    cases hread : readSpanning body.reverse rest with
    | none | some found =>
      rw [hread] at hfinds
      exact hfinds
  · rename_i hphrase hquote
    refine ⟨position, h, ?_⟩
    unfold readValueAt
    split
    · cases rest with
      | nil => rw [h.look_nil]
      | cons c rest =>
        rw [h.look_cons, if_neg]
        rintro rfl
        exact hquote rest rfl rfl
    · rename_i body
      exact (hphrase body rfl).elim
    · rfl

theorem extract_isAt {word behind : List Char} (h : IsAt text position (word ++ behind)) :
    text.extract position (position + word.length) = word := by
  obtain ⟨before, rfl, rfl⟩ := h
  rw [List.extract_eq_take_drop, List.drop_left, Nat.add_sub_cancel_left, List.take_left]

theorem follows_readWordAt (hne : rest ≠ []) (h : IsAt text position rest) :
    Follows text ts (readWordAt text defaultKey neg position ts) (readWord defaultKey neg rest) := by
  have hsplit : rest.takeWhile inWord ++ rest.dropWhile inWord = rest := List.takeWhile_append_dropWhile
  rw [readWordAt, run_whileAt h h.length_le inWord, readWord]
  generalize rest.takeWhile inWord = word at hsplit
  generalize rest.dropWhile inWord = behind at hsplit
  rw [← hsplit] at h
  have hbehind := h.append word
  simp only [bind, Except.bind, extract_isAt h]
  by_cases hempty : word.isEmpty = true
  · -- a stray bracket is one character of the text
    obtain rfl := List.isEmpty_iff.mp hempty
    obtain ⟨c, tail, rfl⟩ := List.exists_cons_of_ne_nil hne
    obtain rfl : behind = c :: tail := hsplit
    refine ⟨position + 1, h.next, ?_⟩
    rw [if_pos hempty, Option.toList_none, List.append_nil]
    rfl
  · rw [if_neg hempty, if_neg hempty]
    by_cases hor : (!neg && Text.lower word == ['o', 'r']) = true
    · rw [if_pos hor, if_pos hor]
      exact ⟨_, hbehind, rfl⟩
    · rw [if_neg hor, if_neg hor]
      cases hfield : splitField word with
      | none => exact ⟨_, hbehind, rfl⟩
      | some field =>
        obtain ⟨key, value⟩ := field
        obtain ⟨-, hword⟩ := splitField_eq_some_iff.mp hfield
        have hlength : value.length ≤ position + word.length := by
          rw [hword, List.length_append, List.length_cons]
          omega
        have hfinds := finds_readValueAt hlength hbehind
        simp only
        cases hread : readValue value behind with
        | ok found | error span =>
          rw [hread] at hfinds
          exact hfinds.follows fun value ↦ termToken (Text.lower key) value neg

theorem follows_readTokenAt {c : Char} (h : IsAt text position (c :: rest)) :
    Follows text ts (readTokenAt text defaultKey neg position ts c) (readToken defaultKey neg (c :: rest)) := by
  unfold readToken
  split
  · rename_i hnil
    cases hnil
  · rename_i tail heq
    obtain ⟨rfl, rfl⟩ := List.cons.inj heq
    exact ⟨position + 1, h.next, rfl⟩
  · rename_i tail heq
    obtain ⟨rfl, rfl⟩ := List.cons.inj heq
    exact ⟨position + 1, h.next, rfl⟩
  · rename_i tail heq
    obtain ⟨rfl, rfl⟩ := List.cons.inj heq
    have hfinds := finds_readBracketAt h
    rw [readTokenAt, if_neg (by decide), if_neg (by decide), if_pos rfl]
    cases hread : readBracket (rest.length + 1) 0 rest with
    | ok found | error span =>
      rw [hread] at hfinds
      exact hfinds.follows fun inner ↦ .term ⟨"prop", Property.ofBracket (Text.trim inner), neg⟩
  · rename_i tail heq
    obtain ⟨rfl, rfl⟩ := List.cons.inj heq
    have hfinds := finds_readQuotedAt h
    rw [readTokenAt, if_neg (by decide), if_neg (by decide), if_neg (by decide), if_pos rfl]
    cases hread : readQuoted rest with
    | some found | none =>
      rw [hread] at hfinds
      exact hfinds.follows fun value ↦ termToken defaultKey value neg
  · rename_i hnil hopening hclosing hbracket hquote
    have hc : c ≠ '(' ∧ c ≠ ')' ∧ c ≠ '[' ∧ c ≠ '"' :=
      ⟨fun hc ↦ hopening rest (by rw [hc]), fun hc ↦ hclosing rest (by rw [hc]), fun hc ↦ hbracket rest (by rw [hc]),
        fun hc ↦ hquote rest (by rw [hc])⟩
    rw [readTokenAt, if_neg hc.1, if_neg hc.2.1, if_neg hc.2.2.1, if_neg hc.2.2.2]
    exact follows_readWordAt hnil h

theorem exists_run_blanks (h : IsAt text position rest) :
    ∃ behind, IsAt text behind (Text.trimStart rest) ∧
      (whileAt text Text.isBlank).run text.length position () = .ok ((), behind) := by
  refine ⟨_, ?_, run_whileAt h h.length_le Text.isBlank⟩
  have hsplit : rest.takeWhile Text.isBlank ++ Text.trimStart rest = rest := List.takeWhile_append_dropWhile
  rw [← hsplit] at h
  exact h.append _

theorem follows_look {go : Char → Except Stop (Step (List (Token Term)) (List (Token Term)))}
    (h : IsAt text position rest)
    (hgo : ∀ c ∈ rest.head?, go c = readTokenAt text defaultKey neg position ts c) :
    Follows text ts (look text position (.ok (.finish position ts)) go) (readToken defaultKey neg rest) := by
  match rest with
  | [] =>
    rw [h.look_nil, h.eq_length]
    rfl
  | c :: tail =>
    rw [h.look_cons, hgo c rfl]
    exact follows_readTokenAt h

theorem follows_passAt (h : IsAt text position rest) (defaultKey : List Char) (ts : List (Token Term)) :
    Follows text ts (passAt text defaultKey position ts) (pass defaultKey rest) := by
  obtain ⟨behind, hbehind, hrun⟩ := exists_run_blanks h
  rw [passAt, hrun]
  change Follows text ts (look text behind _ _) _
  by_cases hminus : ∃ tail, Text.trimStart rest = '-' :: tail
  · obtain ⟨tail, htail⟩ := hminus
    rw [htail] at hbehind
    obtain ⟨after, hafter, hrun⟩ := exists_run_blanks hbehind.next
    rw [pass_of_minus htail, hbehind.look_cons, if_pos rfl, hrun]
    exact follows_look hafter fun _ _ ↦ rfl
  · rw [pass_of_not_minus (not_exists.mp hminus)]
    refine follows_look hbehind fun c hc ↦ if_neg ?_
    rintro rfl
    exact hminus (List.head?_eq_some_iff.mp hc)

theorem passAt_movesOn (text defaultKey : List Char) : (passAt text defaultKey).MovesOn text.length := by
  intro position hposition ts
  have hrest := IsAt.of_le hposition
  have hfollows := follows_passAt hrest defaultKey ts
  match hpass : pass defaultKey (text.drop position) with
  | .done =>
    rw [hpass, Follows] at hfollows
    rw [hfollows]
    exact ⟨hposition, Nat.le_refl _⟩
  | .open span =>
    rw [hpass, Follows] at hfollows
    rw [hfollows]
    exact ⟨_, rfl⟩
  | .read token rest =>
    rw [hpass] at hfollows
    obtain ⟨behind, hbehind, hagain⟩ := hfollows
    have hlt := length_lt_of_pass hpass
    rw [hagain]
    refine ⟨?_, hbehind.le⟩
    have h₁ := hrest.length_eq
    have h₂ := hbehind.length_eq
    omega

theorem run_passAt (h : IsAt text position rest) (hbudget : rest.length ≤ budget) (ts : List (Token Term)) :
    ((passAt text defaultKey).run budget position ts).map Prod.fst
      = ((tokens defaultKey rest).map (ts ++ ·)).mapError fun span ↦ .fault (span.toFault text.length) := by
  induction rest using tokens.induct defaultKey generalizing budget position ts with
  | case1 rest hdone =>
    have hfollows := follows_passAt h defaultKey ts
    rw [hdone, Follows] at hfollows
    rw [Loop.run_of_finish hfollows, tokens_of_done hdone]
    simp [Except.map, Except.mapError]
  | case2 rest span hopen =>
    have hfollows := follows_passAt h defaultKey ts
    rw [hopen, Follows] at hfollows
    rw [Loop.run_of_error hfollows, tokens_of_open hopen]
    rfl
  | case3 rest token tail hread ih =>
    have hfollows := follows_passAt h defaultKey ts
    rw [hread] at hfollows
    obtain ⟨behind, hbehind, hagain⟩ := hfollows
    have hlt := length_lt_of_pass hread
    rw [Loop.run_of_again hagain (by omega), ih hbehind (by omega), tokens_of_read hread]
    cases tokens defaultKey tail with
    | error span => rfl
    | ok us => simp [Except.map, Except.mapError]

theorem length_le_of_visits {defaultKey : List Char} {steps : Nat} {ts : List (Token Term)}
    (h : (passAt text defaultKey).Visits 0 [] steps position ts) : ts.length ≤ steps := by
  induction h with
  | start => exact Nat.le_refl 0
  | @next steps here behind ts us hvisits hstep ih =>
    have hle := ((passAt_movesOn text defaultKey).of_visits (Nat.zero_le _) hvisits).2
    have hfollows := follows_passAt (IsAt.of_le hle) defaultKey ts
    match hpass : pass defaultKey (text.drop here) with
    | .done =>
      rw [hpass, Follows, hstep] at hfollows
      cases hfollows
    | .open span =>
      rw [hpass, Follows, hstep] at hfollows
      cases hfollows
    | .read token rest =>
      rw [hpass] at hfollows
      obtain ⟨behind', -, hagain⟩ := hfollows
      obtain ⟨-, rfl⟩ := Step.again.inj (Except.ok.inj (hstep.symm.trans hagain))
      have htoken := Option.length_toList_le (o := token)
      rw [List.length_append]
      omega

theorem length_le_of_tokens {defaultKey cs : List Char} {ts : List (Token Term)}
    (h : tokens defaultKey cs = .ok ts) : ts.length ≤ cs.length := by
  induction cs using tokens.induct defaultKey generalizing ts with
  | case1 cs hdone =>
    obtain rfl := Except.ok.inj ((tokens_of_done hdone).symm.trans h)
    exact Nat.zero_le _
  | case2 cs span hopen => cases (tokens_of_open hopen).symm.trans h
  | case3 cs token rest hread ih =>
    rw [tokens_of_read hread] at h
    obtain ⟨us, hus, rfl⟩ := map_eq_ok h
    have hlt := length_lt_of_pass hread
    have hle := ih hus
    have htoken := Option.length_toList_le (o := token)
    rw [List.length_append]
    omega

/-- Whether every loop of the reader moves on in a text: over blanks, over a word, over a phrase, a filter or a
value that begins somewhere, and over the whole text. -/
structure AllMoveOn (text defaultKey : List Char) : Prop where
  /-- Blanks are passed over. -/
  blanks : (whileAt text Text.isBlank).MovesOn text.length
  /-- A word is passed over. -/
  word : (whileAt text inWord).MovesOn text.length
  /-- A phrase is taken. -/
  quoted (start : Nat) : (quotedAt text start).MovesOn text.length
  /-- The text of a filter is taken, with the phrases in it. -/
  bracket (start : Nat) : (bracketAt text start).MovesOn text.length
  /-- A value is carried on to its closing quote. -/
  spanning (start : Nat) : (spanningAt text start).MovesOn text.length
  /-- The tokens are taken, one pass after another. -/
  passes : (passAt text defaultKey).MovesOn text.length

theorem allMoveOn (text defaultKey : List Char) : AllMoveOn text defaultKey where
  blanks := whileAt_movesOn text Text.isBlank
  word := whileAt_movesOn text inWord
  quoted := quotedAt_movesOn text
  bracket := bracketAt_movesOn text
  spanning := spanningAt_movesOn text
  passes := passAt_movesOn text defaultKey

end Scan

/-! ## Queries -/

open Scan

/-- The tokens of a query, taken by positions. At most as many passes go on as the text has characters. -/
def tokenizeAt (text defaultKey : String) : Except Stop (List (Token Term)) :=
  ((passAt text.toList (Text.lower defaultKey.toList)).run text.toList.length 0 []).map Prod.fst

theorem tokenizeAt_eq (text defaultKey : String) :
    tokenizeAt text defaultKey = (tokenize text defaultKey).mapError .fault := by
  rw [tokenizeAt, run_passAt (IsAt.zero _) (Nat.le_refl _), tokenize]
  cases tokens (Text.lower defaultKey.toList) text.toList with
  | error span => rfl
  | ok ts => rfl

/-- **Reading moves on.** Each step of each loop of the reader that goes on leads further, at most to the end of the
text, and looks at no character behind it. So the tokens of a query can be taken by positions: after at most as many
passes as the text has characters the next one finishes or finds an open span. The pass after `steps` others begins
at that position or later, and at most `steps` tokens have been taken before it. -/
theorem reading_moves_on (text defaultKey : String) :
    AllMoveOn text.toList (Text.lower defaultKey.toList) ∧
    tokenizeAt text defaultKey = (tokenize text defaultKey).mapError .fault ∧
    (∀ steps position ts,
      (passAt text.toList (Text.lower defaultKey.toList)).Visits 0 [] steps position ts →
        ts.length ≤ steps ∧ steps ≤ position ∧ position ≤ text.toList.length) ∧
    ∀ ts, tokenize text defaultKey = .ok ts → ts.length ≤ text.toList.length := by
  refine ⟨allMoveOn _ _, tokenizeAt_eq text defaultKey, fun steps position ts hvisits ↦ ?_, fun ts hts ↦ ?_⟩
  · obtain ⟨hsteps, hposition⟩ := (passAt_movesOn _ _).of_visits (Nat.zero_le _) hvisits
    exact ⟨length_le_of_visits hvisits, by omega, hposition⟩
  · exact length_le_of_tokens (mapError_eq_ok_iff.mp hts)

/-- In `](` each character is a pass of its own, the first of which takes no token; in `(-"a` the third character is
an open quote. -/
theorem reading_moves_on_of_stray_bracket :
    tokenize "](" "default" = .ok [.opening] ∧
    (passAt "](".toList (Text.lower "default".toList)).Visits 0 [] 2 2 [.opening] ∧
    (1 ≤ 2 ∧ 2 ≤ 2 ∧ 2 ≤ "](".toList.length) ∧
    [Token.opening (α := Term)].length ≤ "](".toList.length ∧
    tokenize "(-\"a" "default" = .error (.openQuote 2) ∧
    tokenizeAt "(-\"a" "default" = .error (.fault (.openQuote 2)) := by
  have htokens : tokenize "](" "default" = .ok [.opening] := by cbv
  have hvisits : (passAt "](".toList (Text.lower "default".toList)).Visits 0 [] 2 2 [.opening] :=
    .next (.next .start rfl) rfl
  have hopen : tokenize "(-\"a" "default" = .error (.openQuote 2) := by cbv
  obtain ⟨-, -, hpasses, hlength⟩ := reading_moves_on "](" "default"
  refine ⟨htokens, hvisits, hpasses 2 2 _ hvisits, hlength _ htokens, hopen, ?_⟩
  rw [(reading_moves_on "(-\"a" "default").2.1, hopen]
  rfl

end NoteQuery
