import Mathlib
import NoteQuery.Proofs.Outcome
import NoteQuery.Proofs.Query.Remaining

/-!
# Texts joined by blanks

Two texts with blanks between them have the tokens of the one and then those of the other, unless the
first ends on a minus sign: that sign then belongs to what follows.

A pass that reads a token looks no further than the blank behind its text, so the passes over the first
text are the same. A span that never closes is counted from the end of the text, so that text in front does
not change it, and it lies in the text in which it is found (`left_le_of_tokens`), so that its position
moves by what stands in front.
-/

namespace NoteQuery

namespace Scan

/-- A pass that reads a token reads the same one if the text goes on behind a blank. -/
theorem pass_append {more : List Char} (hmore : ∀ c ∈ more.head?, Text.isBlank c = true)
    {defaultKey cs rest : List Char} {token : Option (Token Term)}
    (h : pass defaultKey cs = .read token rest) :
    pass defaultKey (cs ++ more) = .read token (rest ++ more) := by
  obtain ⟨taken, rfl, htaken⟩ := exists_taken_of_pass h
  rw [List.append_assoc]
  exact htaken _ (.self_append hmore rest)

/-! ## Where a text stops -/

/-- Whether a text ends on a minus sign that waits for an operand. -/
def endsOnMinus (defaultKey : List Char) (cs : List Char) : Bool :=
  match _h : pass defaultKey cs with
  | .done => (Text.trimStart cs).head? == some '-'
  | .open _ => false
  | .read _ rest => endsOnMinus defaultKey rest
termination_by cs.length
decreasing_by exact length_lt_of_pass _h

theorem endsOnMinus_of_read {defaultKey cs rest : List Char} {token : Option (Token Term)}
    (h : pass defaultKey cs = .read token rest) :
    endsOnMinus defaultKey cs = endsOnMinus defaultKey rest := by
  fun_cases endsOnMinus defaultKey cs with
  | case1 hp => cases h.symm.trans hp
  | case2 span hp => cases h.symm.trans hp
  | case3 token' rest' hp =>
    cases h.symm.trans hp
    rfl

theorem endsOnMinus_of_done {defaultKey cs : List Char} (h : pass defaultKey cs = .done) :
    endsOnMinus defaultKey cs = ((Text.trimStart cs).head? == some '-') := by
  fun_cases endsOnMinus defaultKey cs with
  | case1 hp => rfl
  | case2 span hp => cases h.symm.trans hp
  | case3 token rest hp => cases h.symm.trans hp

theorem readWord_ne_done (defaultKey : List Char) (neg : Bool) (cs : List Char) :
    readWord defaultKey neg cs ≠ .done := by
  intro h
  rw [readWord] at h
  split at h
  · cases h
  · split at h
    · cases h
    · split at h
      · cases h
      · split at h
        · cases h
        · cases h

theorem eq_nil_of_readToken_eq_done {defaultKey cs : List Char} {neg : Bool}
    (h : readToken defaultKey neg cs = .done) : cs = [] := by
  unfold readToken at h
  split at h
  · rfl
  · cases h
  · cases h
  · split at h
    · cases h
    · cases h
  · split at h
    · cases h
    · cases h
  · exact absurd h (readWord_ne_done defaultKey neg cs)

/-- What a pass that reads nothing has found: nothing but blanks, or a minus sign between blanks. -/
theorem trimStart_of_pass_eq_done {defaultKey cs : List Char} (h : pass defaultKey cs = .done) :
    Text.trimStart cs = [] ∨ ∃ tail, Text.trimStart cs = '-' :: tail ∧ Text.trimStart tail = [] := by
  by_cases hminus : ∃ tail, Text.trimStart cs = '-' :: tail
  · obtain ⟨tail, htail⟩ := hminus
    rw [pass_of_minus htail] at h
    exact .inr ⟨tail, htail, eq_nil_of_readToken_eq_done h⟩
  · rw [pass_of_not_minus (not_exists.mp hminus)] at h
    exact .inl (eq_nil_of_readToken_eq_done h)

/-- **Scans.** The tokens of a text that goes on behind a blank are those of the text and those of what
follows, to which a minus sign belongs if the text ends on one. -/
theorem tokens_append {more : List Char} (hmore : ∀ c ∈ more.head?, Text.isBlank c = true)
    {defaultKey cs : List Char} {ts : List (Token Term)} (h : tokens defaultKey cs = .ok ts) :
    tokens defaultKey (cs ++ more)
      = (tokens defaultKey (if endsOnMinus defaultKey cs then '-' :: more else more)).map
          (ts ++ ·) := by
  induction cs using tokens.induct defaultKey generalizing ts with
  | case1 cs hdone =>
    obtain rfl : [] = ts := Except.ok.inj ((tokens_of_done hdone).symm.trans h)
    rw [endsOnMinus_of_done hdone]
    rcases trimStart_of_pass_eq_done hdone with hnil | ⟨tail, htail, hnil⟩
    · rw [hnil, if_neg (by decide),
        tokens_congr (pass_congr (Text.trimStart_append_of_eq_nil hnil more) defaultKey)]
      cases tokens defaultKey more <;> rfl
    · -- the sign stands before what follows, with blanks between them or without
      have hpass : pass defaultKey (cs ++ more) = pass defaultKey ('-' :: more) := by
        rw [pass_of_minus (Text.trimStart_append_of_eq_cons htail more),
          Text.trimStart_append_of_eq_nil hnil,
          pass_of_minus (Text.trimStart_cons_of_not_blank (by decide) more)]
      rw [htail, if_pos (by simp), tokens_congr hpass]
      cases tokens defaultKey ('-' :: more) <;> rfl
  | case2 cs span hopen => cases (tokens_of_open hopen).symm.trans h
  | case3 cs token rest hread ih =>
    rw [tokens_of_read hread] at h
    obtain ⟨ts', hrest, rfl⟩ := map_eq_ok h
    rw [tokens_of_read (pass_append hmore hread), ih hrest, endsOnMinus_of_read hread]
    cases tokens defaultKey (if endsOnMinus defaultKey rest then '-' :: more else more) with
    | error span => rfl
    | ok us => exact congrArg Except.ok (List.append_assoc _ _ _).symm

/-! ## Blanks between two texts -/

theorem tokens_append_of_forall_blank {blanks : List Char}
    (h : ∀ c ∈ blanks, Text.isBlank c = true) (defaultKey cs : List Char) :
    tokens defaultKey (blanks ++ cs) = tokens defaultKey cs :=
  tokens_congr (pass_congr (Text.trimStart_append_of_forall_blank h cs) defaultKey)

theorem tokens_minus_append_of_forall_blank {blanks : List Char}
    (h : ∀ c ∈ blanks, Text.isBlank c = true) (defaultKey cs : List Char) :
    tokens defaultKey ('-' :: (blanks ++ cs)) = tokens defaultKey ('-' :: cs) := by
  have hminus (cs : List Char) : Text.trimStart ('-' :: cs) = '-' :: cs :=
    Text.trimStart_cons_of_not_blank (by decide) cs
  refine tokens_congr ?_
  rw [pass_of_minus (hminus _), pass_of_minus (hminus _), Text.trimStart_append_of_forall_blank h]

theorem tokens_append_append {blanks : List Char} (hne : blanks ≠ [])
    (hblanks : ∀ c ∈ blanks, Text.isBlank c = true) {defaultKey cs : List Char}
    {ts : List (Token Term)} (h : tokens defaultKey cs = .ok ts) (more : List Char) :
    tokens defaultKey (cs ++ (blanks ++ more))
      = (tokens defaultKey (if endsOnMinus defaultKey cs then '-' :: more else more)).map
          (ts ++ ·) := by
  have hhead : ∀ c ∈ (blanks ++ more).head?, Text.isBlank c = true := by
    intro c hc
    rw [List.head?_append_of_ne_nil _ hne] at hc
    exact hblanks c (List.mem_of_mem_head? hc)
  rw [tokens_append hhead h]
  cases endsOnMinus defaultKey cs with
  | false => rw [if_neg Bool.false_ne_true, if_neg Bool.false_ne_true,
      tokens_append_of_forall_blank hblanks]
  | true => rw [if_pos rfl, if_pos rfl, tokens_minus_append_of_forall_blank hblanks]

end Scan

/-! ## Positions -/

/-- The number of characters from the opening of a span to the end of the text. -/
def OpenSpan.left : OpenSpan → Nat
  | quote left | bracket left => left

/-- A span that lies in a text lies in the same place, so much further on, in a text with more in front.
-/
theorem OpenSpan.toFault_add {span : OpenSpan} {total : Nat} (h : span.left ≤ total) (n : Nat) :
    span.toFault (n + total) = (span.toFault total).shift n := by
  have hposition : n + total - span.left = total - span.left + n := by omega
  cases span with
  | quote left => exact congrArg QueryFault.openQuote hposition
  | bracket left => exact congrArg QueryFault.openBracket hposition

namespace Scan

variable {span : OpenSpan}

theorem left_le_of_readBracket {left depth : Nat} {cs : List Char} (hle : cs.length ≤ left)
    (h : readBracket left depth cs = .error span) : span.left ≤ left := by
  fun_induction readBracket left depth cs with
  | case1 =>
    rw [← Except.error.inj h]
    exact Nat.le_refl left
  | case2 depth tail =>
    rw [← Except.error.inj h]
    exact hle
  | case3 depth tail value behind hquoted ih =>
    have hlt := length_lt_of_readQuoted hquoted
    rw [List.length_cons] at hle
    exact ih (by omega) (eq_error_of_map_eq_error h)
  | case4 depth tail _ ih => exact ih (Nat.le_of_succ_le hle) (eq_error_of_map_eq_error h)
  | case5 => cases h
  | case6 tail depth _ _ ih => exact ih (Nat.le_of_succ_le hle) (eq_error_of_map_eq_error h)
  | case7 depth c tail _ _ _ ih => exact ih (Nat.le_of_succ_le hle) (eq_error_of_map_eq_error h)

theorem left_le_of_readValue {value cs : List Char} (h : readValue value cs = .error span) :
    span.left ≤ value.length + cs.length := by
  unfold readValue at h
  split at h
  · split at h
    · cases h
    · rw [← Except.error.inj h]
      exact Nat.le_add_left _ _
  · split at h
    · cases h
    · rw [← Except.error.inj h]
      exact Nat.le_refl _
  · cases h

theorem length_lt_of_splitField {word key value : List Char}
    (h : splitField word = some (key, value)) : value.length < word.length := by
  have hword := congrArg List.length (List.takeWhile_append_dropWhile (p := (· != ':')) (l := word))
  unfold splitField at h
  split at h
  · rename_i hkey hvalue
    obtain ⟨rfl, rfl⟩ := Prod.mk.inj (Option.some.inj h)
    rw [hvalue, List.length_append, List.length_cons] at hword
    omega
  · cases h

theorem left_le_of_readWord {defaultKey cs : List Char} {neg : Bool}
    (h : readWord defaultKey neg cs = .open span) : span.left ≤ cs.length := by
  have hcs := congrArg List.length (List.takeWhile_append_dropWhile (p := inWord) (l := cs))
  rw [List.length_append] at hcs
  rw [readWord] at h
  split at h
  · cases h
  · split at h
    · cases h
    · split at h
      · cases h
      · rename_i hfield
        split at h
        · cases h
        · rename_i hvalue
          obtain rfl := Pass.open.inj h
          have hle := left_le_of_readValue hvalue
          have hlt := length_lt_of_splitField hfield
          omega

theorem left_le_of_readToken {defaultKey cs : List Char} {neg : Bool}
    (h : readToken defaultKey neg cs = .open span) : span.left ≤ cs.length := by
  unfold readToken at h
  split at h
  · cases h
  · cases h
  · cases h
  · split at h
    · cases h
    · rename_i hread
      obtain rfl := Pass.open.inj h
      exact left_le_of_readBracket (Nat.le_succ _) hread
  · split at h
    · cases h
    · obtain rfl := Pass.open.inj h
      exact Nat.le_refl _
  · exact left_le_of_readWord h

theorem left_le_of_pass {defaultKey cs : List Char} (h : pass defaultKey cs = .open span) :
    span.left ≤ cs.length := by
  have hle := length_trimStart_le cs
  by_cases hminus : ∃ tail, Text.trimStart cs = '-' :: tail
  · obtain ⟨tail, htail⟩ := hminus
    rw [pass_of_minus htail] at h
    have hspan := left_le_of_readToken h
    have htrim := length_trimStart_le tail
    rw [htail, List.length_cons] at hle
    omega
  · rw [pass_of_not_minus (not_exists.mp hminus)] at h
    exact Nat.le_trans (left_le_of_readToken h) hle

theorem left_le_of_tokens {defaultKey cs : List Char} (h : tokens defaultKey cs = .error span) :
    span.left ≤ cs.length := by
  induction cs using tokens.induct defaultKey with
  | case1 cs hdone => cases (tokens_of_done hdone).symm.trans h
  | case2 cs found hopen =>
    obtain rfl := Except.error.inj ((tokens_of_open hopen).symm.trans h)
    exact left_le_of_pass hopen
  | case3 cs token rest hread ih =>
    rw [tokens_of_read hread] at h
    exact Nat.le_trans (ih (eq_error_of_map_eq_error h)) (Nat.le_of_lt (length_lt_of_pass hread))

end Scan

/-! ## Queries -/

theorem tokenize_eq_ok_iff {text key : String} {ts : List (Token Term)} :
    tokenize text key = .ok ts ↔ Scan.tokens (Text.lower key.toList) text.toList = .ok ts :=
  mapError_eq_ok_iff

theorem exists_span_of_tokenize_eq_error {text key : String} {fault : QueryFault}
    (h : tokenize text key = .error fault) :
    ∃ span, Scan.tokens (Text.lower key.toList) text.toList = .error span ∧
      span.left ≤ text.toList.length ∧ span.toFault text.toList.length = fault := by
  obtain ⟨span, hspan, hfault⟩ := exists_of_mapError_eq_error h
  exact ⟨span, hspan, Scan.left_le_of_tokens hspan, hfault⟩

/-- **Joined texts.** Behind a text that is read to its end, blanks and a further text give the tokens
of both; if the further text has a fault, it is in the same place of that text. If the first text ends
on a minus sign, the sign stands in front of the further text instead. -/
theorem tokenize_append_append {u w key : String} {ts : List (Token Term)}
    (hu : tokenize u key = .ok ts) (hw : w ≠ "") (hblank : Text.isBlankText w = true) (v : String) :
    (Scan.endsOnMinus (Text.lower key.toList) u.toList = false →
      (∀ us, tokenize v key = .ok us → tokenize (u ++ w ++ v) key = .ok (ts ++ us)) ∧
      ∀ fault, tokenize v key = .error fault →
        tokenize (u ++ w ++ v) key = .error (fault.shift (u ++ w).length)) ∧
    (Scan.endsOnMinus (Text.lower key.toList) u.toList = true →
      ((∃ all, tokenize (u ++ w ++ v) key = .ok all) ↔ ∃ us, tokenize ("-" ++ v) key = .ok us) ∧
      ∀ us, tokenize ("-" ++ v) key = .ok us → tokenize (u ++ w ++ v) key = .ok (ts ++ us)) := by
  have htext : (u ++ w ++ v).toList = u.toList ++ (w.toList ++ v.toList) := by
    rw [String.toList_append, String.toList_append, List.append_assoc]
  have happend := Scan.tokens_append_append (mt String.toList_eq_nil_iff.mp hw)
    (List.all_eq_true.mp hblank) (tokenize_eq_ok_iff.mp hu) v.toList
  rw [← htext] at happend
  constructor
  · intro hminus
    rw [hminus, if_neg Bool.false_ne_true] at happend
    constructor
    · intro us hus
      rw [tokenize_eq_ok_iff] at hus ⊢
      rw [happend, hus]
      rfl
    · intro fault hfault
      obtain ⟨span, hspan, hleft, rfl⟩ := exists_span_of_tokenize_eq_error hfault
      have hlength : (u ++ w ++ v).toList.length = (u ++ w).length + v.toList.length := by
        rw [String.toList_append, List.length_append, String.length_toList]
      rw [tokenize, happend, hspan, hlength, ← OpenSpan.toFault_add hleft]
      rfl
  · intro hminus
    rw [hminus, if_pos rfl] at happend
    have hv : ("-" ++ v).toList = '-' :: v.toList := String.toList_append
    rw [← hv] at happend
    have hboth : ∀ us, tokenize ("-" ++ v) key = .ok us →
        tokenize (u ++ w ++ v) key = .ok (ts ++ us) := by
      intro us hus
      rw [tokenize_eq_ok_iff] at hus ⊢
      rw [happend, hus]
      rfl
    refine ⟨⟨?_, fun ⟨us, hus⟩ ↦ ⟨ts ++ us, hboth us hus⟩⟩, hboth⟩
    rintro ⟨all, hall⟩
    rw [tokenize_eq_ok_iff, happend] at hall
    obtain ⟨us, hus, -⟩ := Scan.map_eq_ok hall
    exact ⟨us, tokenize_eq_ok_iff.mpr hus⟩

/-- In `(a "b` the quote is where it is in `"b`, three characters further on; in `a - b` the sign is that
of `-b`. -/
theorem tokenize_append_append_quote_and_sign :
    (tokenize "(a" "default" = .ok [.opening, .term ⟨"default", "a", false⟩] ∧
      Scan.endsOnMinus (Text.lower "default".toList) "(a".toList = false ∧
      tokenize "\"b" "default" = .error (.openQuote 0) ∧
      tokenize ("(a" ++ " " ++ "\"b") "default" = .error (.openQuote 3)) ∧
    tokenize "a -" "default" = .ok [.term ⟨"default", "a", false⟩] ∧
      Scan.endsOnMinus (Text.lower "default".toList) "a -".toList = true ∧
      tokenize ("-" ++ "b") "default" = .ok [.term ⟨"default", "b", true⟩] ∧
      tokenize ("a -" ++ " " ++ "b") "default"
        = .ok [.term ⟨"default", "a", false⟩, .term ⟨"default", "b", true⟩] := by
  have hspace : " " ≠ "" := by decide
  have hblank : Text.isBlankText " " = true := by decide
  have hopening : tokenize "(a" "default" = .ok [.opening, .term ⟨"default", "a", false⟩] := by cbv
  have hopen : Scan.endsOnMinus (Text.lower "default".toList) "(a".toList = false := by
    decide +kernel
  have hquote : tokenize "\"b" "default" = .error (.openQuote 0) := by cbv
  have hsign : tokenize "a -" "default" = .ok [.term ⟨"default", "a", false⟩] := by cbv
  have hminus : Scan.endsOnMinus (Text.lower "default".toList) "a -".toList = true := by
    decide +kernel
  have hnegated : tokenize ("-" ++ "b") "default" = .ok [.term ⟨"default", "b", true⟩] := by cbv
  refine ⟨⟨hopening, hopen, hquote, ?_⟩, hsign, hminus, hnegated, ?_⟩
  · exact ((tokenize_append_append hopening hspace hblank "\"b").1 hopen).2 _ hquote
  · exact ((tokenize_append_append hsign hspace hblank "b").2 hminus).2 _ hnegated

end NoteQuery
