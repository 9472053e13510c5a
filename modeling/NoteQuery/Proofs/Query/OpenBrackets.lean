import NoteQuery.Proofs.Query.Decoding

/-!
# Brackets that close and brackets that stay open

A property filter ends at the bracket that closes its opening one. Brackets in it count, except in quoted
spans. A text that is balanced in this sense is passed over, however many brackets are open around it
(`IsBalanced.exists_readBracket`), and only such a text can stand before the closing bracket
(`exists_readBracket_eq_ok_iff`).

A bracket that never closes is reported where it stands. The passes before it have read all they read from the
text in front of it, and would read the same if the text broke off sooner (`Reaches.exists_before`). So this
text has tokens. Where the text breaks off behind the bracket, the bracket is reached again and is still open.
A quoted span may be open behind it as well, and then that is what is reported
(`brackets_close_or_stay_open`).
-/

namespace NoteQuery

namespace Scan

variable {defaultKey cs : List Char}

/-! ## Balanced texts -/

/-- Whether a text closes so many brackets that are open before it and those that it opens itself. Brackets in
quoted spans do not count, and all these spans are closed. -/
inductive IsBalanced : Nat → List Char → Prop
  /-- Nothing is open. -/
  | nil : IsBalanced 0 []
  /-- A character of no meaning comes first. -/
  | plain {depth : Nat} {c : Char} {cs : List Char} (hc : c ∉ ['"', '[', ']']) (hcs : IsBalanced depth cs) :
    IsBalanced depth (c :: cs)
  /-- A bracket is opened first. -/
  | opening {depth : Nat} {cs : List Char} (hcs : IsBalanced (depth + 1) cs) : IsBalanced depth ('[' :: cs)
  /-- A bracket that is open is closed first. -/
  | closing {depth : Nat} {cs : List Char} (hcs : IsBalanced depth cs) : IsBalanced (depth + 1) (']' :: cs)
  /-- A quoted span comes first. -/
  | quoted {depth : Nat} {body cs : List Char} (hbody : IsQuotable body) (hcs : IsBalanced depth cs) :
    IsBalanced depth ('"' :: (body ++ '"' :: cs))

/-- What is read of a balanced text does not depend on what stands behind the bracket that closes it. -/
theorem IsBalanced.exists_readBracket {depth : Nat} {inner : List Char} (h : IsBalanced depth inner) :
    ∃ out, ∀ left rest, readBracket left depth (inner ++ ']' :: rest) = .ok (out, rest) := by
  induction h with
  | nil => exact ⟨[], readBracket_closing_zero⟩
  | @plain depth c cs hc _ ih =>
    obtain ⟨out, hread⟩ := ih
    refine ⟨c :: out, fun left rest ↦ ?_⟩
    rw [List.cons_append, readBracket_cons hc, hread]
    rfl
  | opening _ ih =>
    obtain ⟨out, hread⟩ := ih
    refine ⟨'[' :: out, fun left rest ↦ ?_⟩
    rw [List.cons_append, readBracket_opening, hread]
    rfl
  | closing _ ih =>
    obtain ⟨out, hread⟩ := ih
    refine ⟨']' :: out, fun left rest ↦ ?_⟩
    rw [List.cons_append, readBracket_closing_succ, hread]
    rfl
  | @quoted depth body cs hbody _ ih =>
    obtain ⟨out, hread⟩ := ih
    refine ⟨'"' :: unescapeAll body ++ '"' :: out, fun left rest ↦ ?_⟩
    rw [List.cons_append, List.append_assoc, List.cons_append,
      readBracket_quote (hbody.readQuoted_append _), hread]
    rfl

theorem exists_balanced_of_readBracket {left depth : Nat} {out rest : List Char}
    (h : readBracket left depth cs = .ok (out, rest)) :
    ∃ inner, cs = inner ++ ']' :: rest ∧ IsBalanced depth inner := by
  fun_induction readBracket left depth cs generalizing out rest with
  | case1 => cases h
  | case2 => cases h
  | case3 depth tail value behind hquoted ih =>
    obtain ⟨⟨out, after⟩, hread, hout⟩ := map_eq_ok h
    obtain ⟨rfl, rfl⟩ := Prod.mk.inj hout
    obtain ⟨body, rfl, hbody, -⟩ := IsQuotable.exists_of_readQuoted hquoted
    obtain ⟨inner, rfl, hinner⟩ := ih hread
    exact ⟨'"' :: (body ++ '"' :: inner), by simp, .quoted hbody hinner⟩
  | case4 depth tail _ ih =>
    obtain ⟨⟨out, after⟩, hread, hout⟩ := map_eq_ok h
    obtain ⟨rfl, rfl⟩ := Prod.mk.inj hout
    obtain ⟨inner, rfl, hinner⟩ := ih hread
    exact ⟨'[' :: inner, rfl, .opening hinner⟩
  | case5 tail =>
    obtain ⟨rfl, rfl⟩ := Prod.mk.inj (Except.ok.inj h)
    exact ⟨[], rfl, .nil⟩
  | case6 tail depth _ _ ih =>
    obtain ⟨⟨out, after⟩, hread, hout⟩ := map_eq_ok h
    obtain ⟨rfl, rfl⟩ := Prod.mk.inj hout
    obtain ⟨inner, rfl, hinner⟩ := ih hread
    exact ⟨']' :: inner, rfl, .closing hinner⟩
  | case7 depth c tail hquote hopening hclosing ih =>
    obtain ⟨⟨out, after⟩, hread, hout⟩ := map_eq_ok h
    obtain ⟨rfl, rfl⟩ := Prod.mk.inj hout
    obtain ⟨inner, rfl, hinner⟩ := ih hread
    exact ⟨c :: inner, rfl, .plain (by simp [hquote, hopening, hclosing]) hinner⟩

/-- **Closed brackets.** A bracket is closed exactly if a balanced text stands behind it, and a closing bracket
behind that. -/
theorem exists_readBracket_eq_ok_iff {left depth : Nat} :
    (∃ found, readBracket left depth cs = .ok found) ↔
      ∃ inner rest, cs = inner ++ ']' :: rest ∧ IsBalanced depth inner := by
  constructor
  · rintro ⟨⟨out, rest⟩, h⟩
    obtain ⟨inner, hcs, hinner⟩ := exists_balanced_of_readBracket h
    exact ⟨inner, rest, hcs, hinner⟩
  · rintro ⟨inner, rest, rfl, hinner⟩
    obtain ⟨out, hread⟩ := hinner.exists_readBracket
    exact ⟨(out, rest), hread left rest⟩

theorem IsBalanced.exists_tokens {inner : List Char} (h : IsBalanced 0 inner) :
    ∃ operand, ∀ defaultKey rest, tokens defaultKey ('[' :: (inner ++ ']' :: rest)) =
      (tokens defaultKey rest).map (.term ⟨"prop", operand, false⟩ :: ·) := by
  obtain ⟨out, hread⟩ := h.exists_readBracket
  refine ⟨Property.ofBracket (Text.trim out), fun defaultKey rest ↦ ?_⟩
  have hpass : pass defaultKey ('[' :: (inner ++ ']' :: rest))
      = .read (some (.term ⟨"prop", Property.ofBracket (Text.trim out), false⟩)) rest := by
    rw [pass_cons (by decide) (by decide), readToken, hread]
  rw [tokens_of_read hpass]
  rfl

/-! ## Open brackets -/

theorem readBracket_eq_error_cases {left depth : Nat} {span : OpenSpan}
    (h : readBracket left depth cs = .error span) :
    span = .bracket left ∨ ∃ n ≤ cs.length, span = .quote n := by
  cases span with
  | quote n =>
    obtain ⟨tail, hsuffix, rfl, -⟩ := exists_suffix_of_readBracket h
    exact .inr ⟨_, hsuffix.length_le, rfl⟩
  | bracket n =>
    left
    fun_induction readBracket left depth cs with
    | case1 => exact (Except.error.inj h).symm
    | case2 => cases h
    | case5 => cases h
    | case3 _ _ _ _ _ ih | case4 _ _ _ ih | case6 _ _ _ _ ih | case7 _ _ _ _ _ _ ih =>
      exact ih (eq_error_of_map_eq_error h)

/-- A bracket that is open stays open if the text breaks off: what closes it would close it in the longer text
too. -/
theorem exists_readBracket_eq_error {left depth : Nat} {span : OpenSpan} {more : List Char}
    (h : readBracket left depth cs = .error span) (hmore : more <+: cs) (left' : Nat) :
    ∃ span', readBracket left' depth more = .error span' := by
  cases hread : readBracket left' depth more with
  | error span' => exact ⟨span', rfl⟩
  | ok found =>
    obtain ⟨inner, rest, rfl, hinner⟩ := exists_readBracket_eq_ok_iff.mp ⟨found, hread⟩
    obtain ⟨behind, rfl⟩ := hmore
    have hclosed : ∃ found', readBracket left depth (inner ++ ']' :: rest ++ behind) = .ok found' :=
      exists_readBracket_eq_ok_iff.mpr ⟨inner, rest ++ behind, by simp, hinner⟩
    obtain ⟨found', hread'⟩ := hclosed
    cases h.symm.trans hread'

theorem readValue_ne_error_bracket (value : List Char) (n : Nat) :
    readValue value cs ≠ .error (.bracket n) := by
  intro h
  unfold readValue at h
  split at h
  · split at h
    · cases h
    · cases h
  · split at h
    · cases h
    · cases h
  · cases h

/-- A word has no open bracket, for the value of a field can only be an open quote. -/
theorem readWord_ne_open_bracket (neg : Bool) (n : Nat) : readWord defaultKey neg cs ≠ .open (.bracket n) := by
  intro h
  rw [readWord] at h
  split at h
  · cases h
  · split at h
    · cases h
    · split at h
      · cases h
      · split at h
        · cases h
        · rename_i hvalue
          rw [Pass.open.inj h] at hvalue
          exact readValue_ne_error_bracket _ n hvalue

theorem exists_of_readToken_eq_open_bracket {neg : Bool} {n : Nat}
    (h : readToken defaultKey neg cs = .open (.bracket n)) :
    ∃ tail, cs = '[' :: tail ∧ readBracket (tail.length + 1) 0 tail = .error (.bracket n) := by
  unfold readToken at h
  split at h
  · cases h
  · cases h
  · cases h
  · rename_i tail
    split at h
    · cases h
    · rename_i hread
      exact ⟨tail, rfl, by rw [hread, Pass.open.inj h]⟩
  · split at h
    · cases h
    · cases h
  · exact absurd h (readWord_ne_open_bracket neg n)

/-- What a pass reports as an open bracket stands at the front of the text, with nothing to read before it,
and is reported wherever the text breaks off behind it, or a quote in it. -/
theorem exists_of_pass_eq_open_bracket {n : Nat} (h : pass defaultKey cs = .open (.bracket n)) :
    ∃ lead tail, cs = lead ++ '[' :: tail ∧ n = tail.length + 1 ∧ pass defaultKey lead = .done ∧
      ∀ more, more <+: tail → ∃ span, pass defaultKey (lead ++ '[' :: more) = .open span ∧
        (span = .bracket (more.length + 1) ∨ ∃ m ≤ more.length, span = .quote m) := by
  obtain ⟨lead, neg, hcs, hfront, hpass⟩ := exists_lead cs
  rw [hcs, hpass defaultKey _ hfront] at h
  obtain ⟨tail, htail, hopen⟩ := exists_of_readToken_eq_open_bracket h
  refine ⟨lead, tail, by rw [← htail]; exact hcs, ?_, ?_, fun more hmore ↦ ?_⟩
  · rcases readBracket_eq_error_cases hopen with hspan | ⟨m, -, hspan⟩
    · exact OpenSpan.bracket.inj hspan
    · cases hspan
  · have hdone := hpass defaultKey [] nofun
    rwa [List.append_nil] at hdone
  · obtain ⟨span, hspan⟩ := exists_readBracket_eq_error hopen hmore (more.length + 1)
    have hbracket : StandsInFront neg ('[' :: more) := by
      rintro c ⟨⟩
      exact ⟨by decide, nofun⟩
    refine ⟨span, ?_, readBracket_eq_error_cases hspan⟩
    rw [hpass defaultKey _ hbracket, readToken, hspan]

/-! ## The passes before -/

/-- The passes before a place read the same if the text goes on alike from there. -/
theorem Reaches.exists_before {target : List Char} (h : Reaches defaultKey cs target) :
    ∃ before, cs = before ++ target ∧
      ∀ more, BeginsLike target more → Reaches defaultKey (before ++ more) more := by
  induction h with
  | here cs => exact ⟨[], rfl, fun more _ ↦ .here more⟩
  | there hread _ ih =>
    obtain ⟨taken, rfl, htaken⟩ := exists_taken_of_pass hread
    obtain ⟨before, rfl, hbefore⟩ := ih
    refine ⟨taken ++ before, (List.append_assoc _ _ _).symm, fun more hmore ↦ ?_⟩
    rw [List.append_assoc]
    exact .there (htaken _ (hmore.append_left before)) (hbefore more hmore)

theorem Reaches.exists_tokens_of_done {target : List Char} (h : Reaches defaultKey cs target)
    (hdone : pass defaultKey target = .done) : ∃ ts, tokens defaultKey cs = .ok ts := by
  induction h with
  | here cs => exact ⟨[], tokens_of_done hdone⟩
  | there hread _ ih =>
    obtain ⟨ts, hts⟩ := ih hdone
    rw [tokens_of_read hread, hts]
    exact ⟨_, rfl⟩

/-- **Open brackets.** The text before an open bracket has tokens. Wherever the text breaks off behind the
bracket, the bracket is open, or a quote in it. -/
theorem exists_of_tokens_eq_open_bracket {n : Nat} (h : tokens defaultKey cs = .error (.bracket n)) :
    ∃ before tail, cs = before ++ '[' :: tail ∧ n = tail.length + 1 ∧
      (∃ ts, tokens defaultKey before = .ok ts) ∧
      ∀ more, more <+: tail → ∃ span, tokens defaultKey (before ++ '[' :: more) = .error span ∧
        (span = .bracket (more.length + 1) ∨ ∃ m ≤ more.length, span = .quote m) := by
  obtain ⟨target, hreaches, hopen⟩ := tokens_eq_error_iff.mp h
  obtain ⟨before, rfl, hbefore⟩ := hreaches.exists_before
  obtain ⟨lead, tail, rfl, hn, hdone, hbroken⟩ := exists_of_pass_eq_open_bracket hopen
  refine ⟨before ++ lead, tail, (List.append_assoc _ _ _).symm, hn, ?_, fun more hmore ↦ ?_⟩
  · exact (hbefore lead (.of_beginning (List.prefix_append _ _))).exists_tokens_of_done hdone
  · obtain ⟨span, hspan, hcases⟩ := hbroken more hmore
    have hbegins : lead ++ '[' :: more <+: lead ++ '[' :: tail :=
      (List.prefix_append_right_inj lead).mpr (List.cons_prefix_cons.mpr ⟨rfl, hmore⟩)
    rw [List.append_assoc]
    exact ⟨span, tokens_eq_error_iff.mpr ⟨_, hbefore _ (.of_beginning hbegins), hspan⟩, hcases⟩

end Scan

/-! ## Queries -/

open Scan

/-- The first `j` characters of a text. -/
def brokenOff (text : String) (j : Nat) : String := String.ofList (text.toList.take j)

/-- **Brackets.** A bracket that is reported as open is the first thing in its text that cannot be read: the
text before it has tokens, and a text that breaks off behind it has the same open bracket or an open quote
further on. A balanced text in brackets is one property filter, whatever follows. -/
theorem brackets_close_or_stay_open (key : String) :
    (∀ (text : String) (p : Nat), tokenize text key = .error (.openBracket p) →
      text.toList[p]? = some '[' ∧ (∃ ts, tokenize (brokenOff text p) key = .ok ts) ∧
      ∀ j, p < j → tokenize (brokenOff text j) key = .error (.openBracket p) ∨
        ∃ q, p < q ∧ tokenize (brokenOff text j) key = .error (.openQuote q)) ∧
    ∀ inner : String, IsBalanced 0 inner.toList → ∃ operand, ∀ rest ts, tokenize rest key = .ok ts →
      tokenize ("[" ++ inner ++ "]" ++ rest) key = .ok (.term ⟨"prop", operand, false⟩ :: ts) := by
  constructor
  · intro text p h
    obtain ⟨span, hspan, -, hfault⟩ := exists_span_of_tokenize_eq_error h
    cases span with
    | quote n => cases hfault
    | bracket n =>
      obtain ⟨before, tail, htext, rfl, ⟨ts, hts⟩, hbroken⟩ := exists_of_tokens_eq_open_bracket hspan
      have hp : p = before.length := by
        rw [← QueryFault.openBracket.inj hfault, htext, List.length_append, List.length_cons,
          Nat.add_sub_cancel]
      subst hp
      refine ⟨by simp [htext], ⟨ts, ?_⟩, fun j hj ↦ ?_⟩
      · rw [tokenize_eq_ok_iff, brokenOff, htext, String.toList_ofList, List.take_left]
        exact hts
      · obtain ⟨k, rfl⟩ : ∃ k, j = before.length + (k + 1) := ⟨j - (before.length + 1), by omega⟩
        obtain ⟨span, hspan, hcases⟩ := hbroken (tail.take k) (List.take_prefix k tail)
        have hbrokenOff : (brokenOff text (before.length + (k + 1))).toList = before ++ '[' :: tail.take k := by
          rw [brokenOff, htext, String.toList_ofList, List.take_length_add_append, List.take_succ_cons]
        have hlength : (before ++ '[' :: tail.take k).length = before.length + ((tail.take k).length + 1) := by
          rw [List.length_append, List.length_cons]
        rw [tokenize, hbrokenOff, hspan, hlength]
        rcases hcases with rfl | ⟨m, hm, rfl⟩
        · exact .inl (congrArg (fun q ↦ Except.error (QueryFault.openBracket q)) (Nat.add_sub_cancel _ _))
        · exact .inr ⟨before.length + ((tail.take k).length + 1) - m, by omega, rfl⟩
  · intro inner hinner
    obtain ⟨operand, hread⟩ := hinner.exists_tokens
    refine ⟨operand, fun rest ts hts ↦ ?_⟩
    have htext : ("[" ++ inner ++ "]" ++ rest).toList = '[' :: (inner.toList ++ ']' :: rest.toList) := by simp
    rw [tokenize_eq_ok_iff] at hts ⊢
    rw [htext, hread, hts]
    rfl

/-- In `a -[b "]"` the bracket is open, and behind its quote the quote is; in `[c ["]"]]z` both brackets close. -/
theorem brackets_close_or_stay_open_of_quoted_bracket :
    (tokenize "a -[b \"]\"" "default" = .error (.openBracket 3) ∧
      (∃ ts, tokenize (brokenOff "a -[b \"]\"" 3) "default" = .ok ts) ∧
      tokenize (brokenOff "a -[b \"]\"" 7) "default" = .error (.openQuote 6)) ∧
    IsBalanced 0 "c [\"]\"]".toList ∧
      tokenize "z" "default" = .ok [.term ⟨"default", "z", false⟩] ∧
      ∃ operand, tokenize ("[" ++ "c [\"]\"]" ++ "]" ++ "z") "default"
        = .ok [.term ⟨"prop", operand, false⟩, .term ⟨"default", "z", false⟩] := by
  have hopen : tokenize "a -[b \"]\"" "default" = .error (.openBracket 3) := by decide +kernel
  have hquote : tokenize (brokenOff "a -[b \"]\"" 7) "default" = .error (.openQuote 6) := by decide +kernel
  have hword : tokenize "z" "default" = .ok [.term ⟨"default", "z", false⟩] := by decide +kernel
  have hbalanced : IsBalanced 0 "c [\"]\"]".toList := by
    have hlist : "c [\"]\"]".toList = 'c' :: ' ' :: '[' :: '"' :: ([']'] ++ '"' :: [']']) := by decide
    rw [hlist]
    have hspan : IsQuotable [']'] := .plain (by decide) (by decide) .nil
    exact .plain (by decide) (.plain (by decide) (.opening (.quoted hspan (.closing .nil))))
  obtain ⟨hbreaks, hcloses⟩ := brackets_close_or_stay_open "default"
  obtain ⟨operand, hread⟩ := hcloses _ hbalanced
  exact ⟨⟨hopen, (hbreaks _ _ hopen).2.1, hquote⟩, hbalanced, hword, operand, hread _ _ hword⟩

end NoteQuery
