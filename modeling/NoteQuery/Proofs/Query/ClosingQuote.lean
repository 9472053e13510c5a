import NoteQuery.Proofs.Query.TermShape

/-!
# The quote that closes a span

A backslash escapes the character behind it, so a quote closes a span if it stands behind an even number
of backslashes. A phrase ends at the first such quote, alone and inside brackets. The value of a field is
first taken to the end of the word it begins in, and only from there on is a closing quote looked for. So
spans end at their first closing quote exactly when no value is closed inside the word it begins in, by a
quote behind which the word goes on (`spans_end_first_iff`).
-/

namespace NoteQuery

namespace Scan

/-! ## Closing quotes -/

/-- Whether a text ends with an odd number of backslashes, which escape what follows. -/
def EscapesNext (cs : List Char) : Prop := (cs.reverse.takeWhile (· == '\\')).length % 2 = 1

instance (cs : List Char) : Decidable (EscapesNext cs) :=
  inferInstanceAs (Decidable ((cs.reverse.takeWhile (· == '\\')).length % 2 = 1))

/-- Whether a quote of a text, with so much before it and so much behind it, is not escaped. -/
structure Closes (cs inner rest : List Char) : Prop where
  /-- The quote stands between the two. -/
  eq_append : cs = inner ++ '"' :: rest
  /-- No odd number of backslashes stands before it. -/
  not_escapesNext : ¬EscapesNext inner

/-- Whether it is the first such quote that ends `least` characters into the text or later. -/
structure ClosesFirstFrom (least : Nat) (cs inner rest : List Char) : Prop extends
    Closes cs inner rest where
  /-- It ends that far into the text. -/
  least_le : least ≤ inner.length + 1
  /-- No such quote comes earlier. -/
  length_le : ∀ inner' rest', Closes cs inner' rest' → least ≤ inner'.length + 1 →
    inner.length ≤ inner'.length

theorem escapesNext_append_cons {c : Char} (hc : c ≠ '\\') (before inner : List Char) :
    EscapesNext (before ++ c :: inner) ↔ EscapesNext inner := by
  have htake : (before ++ c :: inner).reverse.takeWhile (· == '\\')
      = inner.reverse.takeWhile (· == '\\') := by
    have hstop : (c :: before.reverse).takeWhile (· == '\\') = [] :=
      List.takeWhile_cons_of_neg fun he ↦ hc (eq_of_beq he)
    rw [List.reverse_append, List.reverse_cons, List.append_assoc, List.singleton_append,
      List.takeWhile_append, hstop, List.append_nil]
    split
    · rename_i hall
      exact ((List.takeWhile_prefix _).eq_of_length hall).symm
    · rfl
  rw [EscapesNext, htake, EscapesNext]

theorem escapesNext_cons_cons (inner : List Char) :
    EscapesNext ('\\' :: '\\' :: inner) ↔ EscapesNext inner := by
  have hreverse : ('\\' :: '\\' :: inner).reverse = inner.reverse ++ ['\\', '\\'] := by simp
  rw [EscapesNext, hreverse, List.takeWhile_append, EscapesNext]
  split
  · rename_i hall
    rw [List.length_append, hall]
    exact iff_of_eq (congrArg (· = 1) (Nat.add_mod_right inner.reverse.length 2))
  · rfl

theorem escapesNext_cons_cons_iff (c : Char) (inner : List Char) :
    EscapesNext ('\\' :: c :: inner) ↔ EscapesNext inner := by
  by_cases hc : c = '\\'
  · rw [hc, escapesNext_cons_cons]
  · exact escapesNext_append_cons hc ['\\'] inner

namespace Closes

variable {c : Char} {cs inner rest : List Char}

theorem length_eq (h : Closes cs inner rest) : cs.length = inner.length + 1 + rest.length := by
  rw [h.eq_append, List.length_append, List.length_cons]
  omega

theorem ne_nil (h : Closes cs inner rest) : cs ≠ [] := by
  rw [h.eq_append]
  simp

theorem exists_of_cons (hquote : c ≠ '"') (hback : c ≠ '\\') (h : Closes (c :: cs) inner rest) :
    ∃ inner', Closes cs inner' rest := by
  obtain ⟨heq, heven⟩ := h
  rcases List.cons_eq_append_iff.mp heq with ⟨-, hhead⟩ | ⟨inner', rfl, htail⟩
  · exact absurd (List.cons.inj hhead).1.symm hquote
  · exact ⟨inner', htail, mt (escapesNext_append_cons hback [] inner').mpr heven⟩

theorem exists_of_escape (h : Closes ('\\' :: c :: cs) inner rest) : ∃ inner', Closes cs inner' rest := by
  obtain ⟨heq, heven⟩ := h
  rcases List.cons_eq_append_iff.mp heq with ⟨-, hhead⟩ | ⟨inner', rfl, htail⟩
  · cases hhead
  · rcases List.cons_eq_append_iff.mp htail with ⟨rfl, -⟩ | ⟨inner', rfl, hbehind⟩
    · exact absurd (by decide) heven
    · exact ⟨inner', hbehind, mt (escapesNext_cons_cons_iff c inner').mpr heven⟩

end Closes

/-! ## Phrases -/

theorem not_closes_of_readQuoted_eq_none {cs : List Char} (h : readQuoted cs = none)
    (inner rest : List Char) : ¬Closes cs inner rest := by
  intro hcloses
  fun_induction readQuoted cs generalizing inner with
  | case1 => exact hcloses.ne_nil rfl
  | case2 => cases h
  | case3 c tail ih =>
    obtain ⟨inner', htail⟩ := hcloses.exists_of_escape
    exact ih (Option.map_eq_none_iff.mp h) inner' htail
  | case4 tail hquote hescape =>
    -- the last character of the text
    rcases List.cons_eq_append_iff.mp hcloses.eq_append with ⟨-, hhead⟩ | ⟨inner', -, htail⟩
    · cases hhead
    · obtain ⟨d, tail, rfl⟩ := List.exists_cons_of_ne_nil (l := tail) (by simp [htail])
      exact hescape d tail rfl rfl
  | case5 c tail hquote _ hback ih =>
    obtain ⟨inner', htail⟩ := hcloses.exists_of_cons hquote hback
    exact ih (Option.map_eq_none_iff.mp h) inner' htail

/-- An open phrase inside a bracket is reported with what is left from its quote on. -/
theorem exists_suffix_of_readBracket {left depth n : Nat} {cs : List Char}
    (h : readBracket left depth cs = .error (.quote n)) :
    ∃ tail, '"' :: tail <:+ cs ∧ n = tail.length + 1 ∧ readQuoted tail = none := by
  fun_induction readBracket left depth cs with
  | case1 => cases h
  | case2 depth tail hquoted =>
    obtain rfl := OpenSpan.quote.inj (Except.error.inj h)
    exact ⟨tail, List.suffix_refl _, rfl, hquoted⟩
  | case3 depth rest s after hquoted ih =>
    obtain ⟨tail, hsuffix, htail⟩ := ih (eq_error_of_map_eq_error h)
    obtain ⟨taken, rfl, -⟩ := exists_taken_of_readQuoted hquoted
    exact ⟨tail, hsuffix.trans ((List.suffix_append taken after).trans (List.suffix_cons _ _)), htail⟩
  | case5 => cases h
  | case4 depth rest _ ih | case6 rest depth _ _ ih | case7 depth c rest _ _ _ ih =>
    obtain ⟨tail, hsuffix, htail⟩ := ih (eq_error_of_map_eq_error h)
    exact ⟨tail, hsuffix.trans (List.suffix_cons _ _), htail⟩

/-! ## Values of fields -/

theorem endsQuoted_eq_true_iff {value : List Char} :
    endsQuoted value = true ↔ ∃ before, value = '"' :: before ∧ ¬EscapesNext before.reverse := by
  unfold endsQuoted
  split
  · rename_i before
    simp only [List.cons.injEq, true_and, exists_eq_left', EscapesNext, List.reverse_reverse, beq_iff_eq]
    omega
  · rename_i hquote
    refine iff_of_false Bool.false_ne_true ?_
    rintro ⟨before, rfl, -⟩
    exact hquote before rfl

/-- A quote that closes a text at the end of what has been read of it is where the reader stops. -/
theorem endsQuoted_of_closes {value cs inner rest : List Char} (h : Closes (value.reverse ++ cs) inner rest)
    (hlength : inner.length + 1 = value.length) : endsQuoted value = true := by
  have heq : value.reverse ++ cs = (inner ++ ['"']) ++ rest := by rw [h.eq_append]; simp
  have hvalue : value.reverse = inner ++ ['"'] := List.append_inj_left heq (by simpa using hlength.symm)
  rw [endsQuoted_eq_true_iff]
  refine ⟨inner.reverse, ?_, by rw [List.reverse_reverse]; exact h.not_escapesNext⟩
  rw [← List.reverse_reverse value, hvalue, List.reverse_concat]

theorem closesFirstFrom_of_endsQuoted {value : List Char} (h : endsQuoted value = true) (cs : List Char) :
    ClosesFirstFrom value.length (value.reverse ++ cs) value.tail.reverse cs := by
  obtain ⟨before, rfl, heven⟩ := endsQuoted_eq_true_iff.mp h
  refine ⟨⟨by simp, heven⟩, by simp, fun inner' rest' _ hle ↦ ?_⟩
  simpa using hle

/-- What has been read of a value does not end with a closing quote, so the first one is further on. -/
theorem ClosesFirstFrom.of_succ {value cs inner rest : List Char} (hends : endsQuoted value = false)
    (h : ClosesFirstFrom (value.length + 1) (value.reverse ++ cs) inner rest) :
    ClosesFirstFrom value.length (value.reverse ++ cs) inner rest := by
  refine ⟨h.toCloses, Nat.le_of_succ_le h.least_le, fun inner' rest' h' hle ↦ ?_⟩
  rcases Nat.lt_or_eq_of_le hle with hlt | heq
  · exact h.length_le inner' rest' h' hlt
  · exact absurd (endsQuoted_of_closes h' heq.symm) (ne_true_of_eq_false hends)

theorem reverse_append_cons (value cs : List Char) (c : Char) :
    value.reverse ++ c :: cs = (c :: value).reverse ++ cs := by
  rw [List.reverse_cons, List.append_assoc, List.singleton_append]

/-- A value is read up to the first closing quote that is not before the end of what has been read. -/
theorem closesFirstFrom_of_readSpanning {value cs s rest : List Char}
    (h : readSpanning value cs = some (s, rest)) :
    ∃ inner, ClosesFirstFrom value.length (value.reverse ++ cs) inner rest ∧ s = unescapeQuotes inner := by
  induction cs generalizing value with
  | nil =>
    rw [readSpanning] at h
    split at h
    · rename_i hends
      obtain ⟨rfl, rfl⟩ := Prod.mk.inj (Option.some.inj h)
      exact ⟨_, closesFirstFrom_of_endsQuoted hends [], rfl⟩
    · cases h
  | cons c cs ih =>
    rw [readSpanning] at h
    split at h
    · rename_i hends
      obtain ⟨rfl, rfl⟩ := Prod.mk.inj (Option.some.inj h)
      exact ⟨_, closesFirstFrom_of_endsQuoted hends (c :: cs), rfl⟩
    · rename_i hends
      obtain ⟨inner, hfirst, hs⟩ := ih h
      rw [← reverse_append_cons] at hfirst
      exact ⟨inner, hfirst.of_succ (eq_false_of_ne_true hends), hs⟩

/-- A value is open only if nothing closes it but what is before the end of what has been read. -/
theorem lt_of_readSpanning_eq_none {value cs inner rest : List Char} (h : readSpanning value cs = none)
    (hcloses : Closes (value.reverse ++ cs) inner rest) : inner.length + 1 < value.length := by
  induction cs generalizing value with
  | nil =>
    rw [readSpanning] at h
    split at h
    · cases h
    · rename_i hends
      have hlength := hcloses.length_eq
      rw [List.append_nil, List.length_reverse] at hlength
      have hne := mt (endsQuoted_of_closes hcloses) hends
      omega
  | cons c cs ih =>
    rw [readSpanning] at h
    split at h
    · cases h
    · rename_i hends
      have hlt := ih h (reverse_append_cons value cs c ▸ hcloses)
      have hne := mt (endsQuoted_of_closes hcloses) hends
      rw [List.length_cons] at hlt
      omega

/-! ## Fields -/

/-- Whether a text begins with a field whose value begins with a quote, with so much behind the quote. -/
structure OpensValue (cs key tail : List Char) : Prop where
  /-- The key, a colon and a quote come first. -/
  eq_append : cs = key ++ ':' :: '"' :: tail
  /-- There is a key. -/
  ne_nil : key ≠ []
  /-- The first colon stands behind it. -/
  notMem : ':' ∉ key
  /-- It is in one word with the value. -/
  inWord : ∀ c ∈ key, Scan.inWord c = true
  /-- It does not begin with a quote, as a phrase does. -/
  head?_ne : key.head? ≠ some '"'

namespace OpensValue

variable {cs key tail : List Char}

theorem takeWhile_inWord (h : OpensValue cs key tail) :
    cs.takeWhile Scan.inWord = key ++ ':' :: '"' :: tail.takeWhile Scan.inWord := by
  rw [h.eq_append, List.takeWhile_append_of_pos h.inWord, List.takeWhile_cons_of_pos (by decide),
    List.takeWhile_cons_of_pos (by decide)]

theorem dropWhile_inWord (h : OpensValue cs key tail) :
    cs.dropWhile Scan.inWord = tail.dropWhile Scan.inWord := by
  rw [h.eq_append, List.dropWhile_append_of_pos h.inWord, List.dropWhile_cons_of_pos (by decide),
    List.dropWhile_cons_of_pos (by decide)]

theorem readToken_eq_readWord (h : OpensValue cs key tail) (defaultKey : List Char) (neg : Bool) :
    readToken defaultKey neg cs = readWord defaultKey neg cs := by
  obtain ⟨c, key', rfl⟩ := List.exists_cons_of_ne_nil h.ne_nil
  have hc : c ∉ ['(', ')', '[', '"'] := by
    have hin := h.inWord c List.mem_cons_self
    rintro hmem
    fin_cases hmem
    · exact nomatch hin
    · exact nomatch hin
    · exact nomatch hin
    · exact h.head?_ne rfl
  rw [h.eq_append, List.cons_append, readToken_cons hc]

theorem lower_takeWhile_ne (h : OpensValue cs key tail) :
    Text.lower (cs.takeWhile Scan.inWord) ≠ ['o', 'r'] := by
  intro hlower
  have hlength := Text.length_le_length_lowerFrom [] (cs.takeWhile Scan.inWord)
  have hpos := List.length_pos_iff.mpr h.ne_nil
  rw [← Text.lower, hlower, h.takeWhile_inWord] at hlength
  simp only [List.length_append, List.length_cons, List.length_nil] at hlength
  omega

/-- The token at the front of such a text is the field, with its value read from the end of the word on. -/
theorem readToken_eq (h : OpensValue cs key tail) (defaultKey : List Char) (neg : Bool) :
    readToken defaultKey neg cs =
      match readSpanning (tail.takeWhile Scan.inWord).reverse (tail.dropWhile Scan.inWord) with
      | some (value, rest) => .read (some (termToken (Text.lower key) value neg)) rest
      | none => .open (.quote (tail.length + 1)) := by
  have hfield : splitField (cs.takeWhile Scan.inWord) = some (key, '"' :: tail.takeWhile Scan.inWord) :=
    splitField_eq_some_iff.mpr ⟨⟨h.ne_nil, h.notMem⟩, h.takeWhile_inWord⟩
  have hlength : tail.length
      = (tail.takeWhile Scan.inWord).length + (tail.dropWhile Scan.inWord).length := by
    rw [← List.length_append, List.takeWhile_append_dropWhile]
  have hne : cs.takeWhile Scan.inWord ≠ [] := by
    rw [h.takeWhile_inWord]
    exact List.append_ne_nil_of_left_ne_nil h.ne_nil _
  rw [h.readToken_eq_readWord, readWord, if_neg (mt List.isEmpty_iff.mp hne), if_neg, hfield]
  · rw [h.dropWhile_inWord]
    simp only [readValue]
    cases readSpanning (tail.takeWhile Scan.inWord).reverse (tail.dropWhile Scan.inWord) with
    | some found => rfl
    | none =>
      simp only [List.length_cons, hlength, Nat.add_right_comm]
  · rw [Bool.and_eq_true, beq_iff_eq]
    exact fun hor ↦ h.lower_takeWhile_ne hor.2

theorem suffix (h : OpensValue cs key tail) : '"' :: tail <:+ cs := by
  rw [h.eq_append]
  exact (List.suffix_cons ':' _).trans (List.suffix_append key _)

/-- A pass over such a text reads the field up to the first closing quote that is not inside the word, or
reports its value as open if there is none. -/
theorem pass_cases (h : OpensValue (front cs) key tail) (defaultKey : List Char) :
    (∃ inner rest neg, ClosesFirstFrom (tail.takeWhile Scan.inWord).length tail inner rest ∧
      pass defaultKey cs
        = .read (some (termToken (Text.lower key) (unescapeQuotes inner) neg)) rest) ∨
    pass defaultKey cs = .open (.quote (tail.length + 1)) ∧
      ∀ inner rest, Closes tail inner rest → inner.length + 1 < (tail.takeWhile Scan.inWord).length := by
  obtain ⟨neg, hneg⟩ := exists_pass_eq_readToken defaultKey cs
  rw [hneg, h.readToken_eq]
  have htail : (tail.takeWhile Scan.inWord).reverse.reverse ++ tail.dropWhile Scan.inWord = tail := by
    rw [List.reverse_reverse, List.takeWhile_append_dropWhile]
  rcases hspan : readSpanning (tail.takeWhile Scan.inWord).reverse (tail.dropWhile Scan.inWord)
    with _ | ⟨value, rest⟩
  · refine .inr ⟨rfl, fun inner rest hcloses ↦ ?_⟩
    have hlt := lt_of_readSpanning_eq_none hspan (htail.symm ▸ hcloses)
    rwa [List.length_reverse] at hlt
  · obtain ⟨inner, hfirst, rfl⟩ := closesFirstFrom_of_readSpanning hspan
    rw [htail, List.length_reverse] at hfirst
    exact .inl ⟨inner, rest, neg, hfirst, rfl⟩

end OpensValue

theorem exists_opensValue_of_readWord {defaultKey cs : List Char} {neg : Bool} {span : OpenSpan}
    (hhead : cs.head? ≠ some '"') (h : readWord defaultKey neg cs = .open span) :
    ∃ key tail, OpensValue cs key tail := by
  have hcs := List.takeWhile_append_dropWhile (p := inWord) (l := cs)
  rw [readWord] at h
  split at h
  · cases h
  · split at h
    · cases h
    · split at h
      · cases h
      · rename_i key value hfield
        split at h
        · cases h
        · rename_i hvalue
          obtain ⟨⟨hne, hcolon⟩, hword⟩ := splitField_eq_some_iff.mp hfield
          have hquote : value.head? = some '"' := by
            by_contra hquote
            rw [readValue_of_head?_ne hquote (head?_dropWhile_inWord cs)] at hvalue
            cases hvalue
          obtain ⟨body, rfl⟩ := List.head?_eq_some_iff.mp hquote
          rw [hword] at hcs
          have hinWord : ∀ c ∈ key, inWord c = true := fun c hc ↦ by
            have hmem : c ∈ cs.takeWhile inWord := hword ▸ List.mem_append_left _ hc
            exact List.mem_takeWhile_imp hmem
          refine ⟨key, body ++ cs.dropWhile inWord, ⟨?_, hne, hcolon, hinWord, ?_⟩⟩
          · exact hcs.symm.trans (List.append_assoc _ _ _)
          · rw [← hcs, List.append_assoc, List.head?_append_of_ne_nil _ hne] at hhead
            exact hhead

/-- A quote that is open is that of a field or of a phrase, and what is left is counted from it. -/
theorem exists_of_readToken_eq_open {defaultKey cs : List Char} {neg : Bool} {n : Nat}
    (h : readToken defaultKey neg cs = .open (.quote n)) :
    (∃ key tail, OpensValue cs key tail) ∨
      ∃ tail, '"' :: tail <:+ cs ∧ n = tail.length + 1 ∧ readQuoted tail = none := by
  unfold readToken at h
  split at h
  · cases h
  · cases h
  · cases h
  · split at h
    · cases h
    · rename_i hread
      obtain rfl := Pass.open.inj h
      obtain ⟨tail, hsuffix, htail⟩ := exists_suffix_of_readBracket hread
      exact .inr ⟨tail, hsuffix.trans (List.suffix_cons _ _), htail⟩
  · rename_i tail
    split at h
    · cases h
    · rename_i hread
      obtain rfl := OpenSpan.quote.inj (Pass.open.inj h)
      exact .inr ⟨tail, List.suffix_refl _, rfl, hread⟩
  · rename_i hquote
    refine .inl (exists_opensValue_of_readWord (fun hhead ↦ ?_) h)
    obtain ⟨tail, rfl⟩ := List.head?_eq_some_iff.mp hhead
    exact hquote tail rfl

/-! ## Passes -/

/-- Whether a pass of the reader over a text begins at the text `target`. -/
inductive Reaches (defaultKey : List Char) : List Char → List Char → Prop
  /-- The first pass begins at the text. -/
  | here (cs : List Char) : Reaches defaultKey cs cs
  /-- The others begin at what it leaves. -/
  | there {cs rest target : List Char} {token : Option (Token Term)}
    (hread : pass defaultKey cs = .read token rest) (hrest : Reaches defaultKey rest target) :
    Reaches defaultKey cs target

theorem Reaches.suffix {defaultKey cs target : List Char} (h : Reaches defaultKey cs target) :
    target <:+ cs := by
  induction h with
  | here cs => exact List.suffix_refl cs
  | there hread _ ih => exact ih.trans (suffix_of_pass hread)

theorem tokens_eq_error_iff {defaultKey cs : List Char} {span : OpenSpan} :
    tokens defaultKey cs = .error span ↔
      ∃ target, Reaches defaultKey cs target ∧ pass defaultKey target = .open span := by
  constructor
  · intro h
    induction cs using tokens.induct defaultKey with
    | case1 cs hdone => cases (tokens_of_done hdone).symm.trans h
    | case2 cs found hopen =>
      obtain rfl := Except.error.inj ((tokens_of_open hopen).symm.trans h)
      exact ⟨cs, .here cs, hopen⟩
    | case3 cs token rest hread ih =>
      rw [tokens_of_read hread] at h
      obtain ⟨target, hreaches, hopen⟩ := ih (eq_error_of_map_eq_error h)
      exact ⟨target, .there hread hreaches, hopen⟩
  · rintro ⟨target, hreaches, hopen⟩
    induction hreaches with
    | here cs => exact tokens_of_open hopen
    | there hread _ ih =>
      rw [tokens_of_read hread, ih hopen]
      rfl

/-- Every quote behind a certain one is escaped exactly if nothing closes what stands behind that one. -/
theorem forall_escapesNext_iff {cs tail : List Char} (hsuffix : '"' :: tail <:+ cs) :
    (∃ before after, cs = before ++ '"' :: after ∧ before.length = cs.length - (tail.length + 1) ∧
      ∀ inner rest, after = inner ++ '"' :: rest → EscapesNext (before ++ '"' :: inner)) ↔
      ∀ inner rest, ¬Closes tail inner rest := by
  obtain ⟨front, rfl⟩ := hsuffix
  have hfront : (front ++ '"' :: tail).length - (tail.length + 1) = front.length := by
    rw [List.length_append, List.length_cons, Nat.add_sub_cancel]
  rw [hfront]
  constructor
  · rintro ⟨before, after, heq, hlength, hescaped⟩ inner rest ⟨hinner, heven⟩
    obtain ⟨rfl, htail⟩ := List.append_inj heq hlength.symm
    obtain ⟨-, rfl⟩ := List.cons.inj htail
    exact heven ((escapesNext_append_cons (by decide) front inner).mp (hescaped inner rest hinner))
  · intro hopen
    refine ⟨front, tail, rfl, rfl, fun inner rest hinner ↦ ?_⟩
    rw [escapesNext_append_cons (by decide)]
    by_contra heven
    exact hopen inner rest ⟨hinner, heven⟩

end Scan

/-! ## Queries -/

open Scan

theorem tokenize_eq_error_openQuote_iff {text defaultKey : String} {position : Nat} :
    tokenize text defaultKey = .error (.openQuote position) ↔
      ∃ left, tokens (Text.lower defaultKey.toList) text.toList = .error (.quote left) ∧
        position = text.toList.length - left := by
  constructor
  · intro h
    obtain ⟨span, hspan, -, hfault⟩ := exists_span_of_tokenize_eq_error h
    cases span with
    | quote left => exact ⟨left, hspan, (QueryFault.openQuote.inj hfault).symm⟩
    | bracket left => cases hfault
  · rintro ⟨left, hspan, rfl⟩
    rw [tokenize, hspan]
    rfl

/-- Whether what stands behind the quote of a value has a quote that closes it and behind which the word
goes on. -/
def ClosesInWord (tail : List Char) : Prop :=
  ∃ inner rest, Closes tail inner rest ∧ inner.length + 1 < (tail.takeWhile inWord).length

/-- Whether the quoted spans of a query end at their first closing quotes. -/
structure EndsSpansFirst (text defaultKey : String) : Prop where
  /-- A value that is read is what stands before that quote, and the next pass begins behind it. -/
  value {cs key tail rest : List Char} {token : Option (Token Term)}
    (hreaches : Reaches (Text.lower defaultKey.toList) text.toList cs)
    (hopens : OpensValue (front cs) key tail)
    (hread : pass (Text.lower defaultKey.toList) cs = .read token rest) :
    ∃ inner neg, ClosesFirstFrom 0 tail inner rest ∧
      token = some (termToken (Text.lower key) (unescapeQuotes inner) neg)
  /-- A quote is reported as open only if every quote behind it is escaped. -/
  fault {position : Nat} (hfault : tokenize text defaultKey = .error (.openQuote position)) :
    ∃ before after, text.toList = before ++ '"' :: after ∧ before.length = position ∧
      ∀ inner rest, after = inner ++ '"' :: rest → EscapesNext (before ++ '"' :: inner)

/-- **First closing quotes.** The quoted spans of a query end at their first closing quotes exactly when no
pass comes to a field with a value that is closed inside the word it begins in. -/
theorem spans_end_first_iff (text defaultKey : String) :
    EndsSpansFirst text defaultKey ↔
      ∀ cs key tail, Reaches (Text.lower defaultKey.toList) text.toList cs →
        OpensValue (front cs) key tail → ¬ClosesInWord tail := by
  constructor
  · rintro hends cs key tail hreaches hopens ⟨inner, rest, hcloses, hlt⟩
    rcases hopens.pass_cases (Text.lower defaultKey.toList) with
      ⟨inner', rest', neg, hfirst, hread⟩ | ⟨hopen, -⟩
    · -- what is left tells where the value ends, which is behind a closing quote
      obtain ⟨inner₀, -, hfirst₀, -⟩ := hends.value hreaches hopens hread
      have hle := hfirst₀.length_le inner rest hcloses (Nat.zero_le _)
      have hlength := hfirst₀.length_eq.symm.trans hfirst.length_eq
      have hleast := hfirst.least_le
      omega
    · have hfault := tokenize_eq_error_openQuote_iff.mpr
        ⟨_, tokens_eq_error_iff.mpr ⟨cs, hreaches, hopen⟩, rfl⟩
      have hsuffix := hopens.suffix.trans ((front_suffix cs).trans hreaches.suffix)
      exact (forall_escapesNext_iff hsuffix).mp (hends.fault hfault) inner rest hcloses
  · intro hword
    refine ⟨fun {cs key tail rest token} hreaches hopens hread ↦ ?_, fun hfault ↦ ?_⟩
    · rcases hopens.pass_cases (Text.lower defaultKey.toList) with
        ⟨inner, rest', neg, hfirst, hread'⟩ | ⟨hopen, -⟩
      · obtain ⟨rfl, rfl⟩ := Pass.read.inj (hread.symm.trans hread')
        refine ⟨inner, neg, ⟨hfirst.toCloses, Nat.zero_le _, fun inner' rest' hcloses _ ↦ ?_⟩, rfl⟩
        refine hfirst.length_le inner' rest' hcloses (Nat.le_of_not_lt fun hlt ↦ ?_)
        exact hword cs key tail hreaches hopens ⟨inner', rest', hcloses, hlt⟩
      · cases hopen.symm.trans hread
    · obtain ⟨left, hspan, rfl⟩ := tokenize_eq_error_openQuote_iff.mp hfault
      obtain ⟨cs, hreaches, hopen⟩ := tokens_eq_error_iff.mp hspan
      have hsuffix := (front_suffix cs).trans hreaches.suffix
      obtain ⟨neg, hneg⟩ := exists_pass_eq_readToken (Text.lower defaultKey.toList) cs
      rcases exists_of_readToken_eq_open (hneg.symm.trans hopen) with
        ⟨key, tail, hopens⟩ | ⟨tail, htail, rfl, hread⟩
      · rcases hopens.pass_cases (Text.lower defaultKey.toList) with
          ⟨_, _, _, -, hread⟩ | ⟨hopen', hlt⟩
        · cases hopen.symm.trans hread
        · obtain rfl := OpenSpan.quote.inj (Pass.open.inj (hopen.symm.trans hopen'))
          refine (forall_escapesNext_iff (hopens.suffix.trans hsuffix)).mpr fun inner rest hcloses ↦ ?_
          exact hword cs key tail hreaches hopens ⟨inner, rest, hcloses, hlt inner rest hcloses⟩
      · exact (forall_escapesNext_iff (htail.trans hsuffix)).mpr (not_closes_of_readQuoted_eq_none hread)

/-- In `k:"a"b` the quote behind `a` closes the value, but the value is reported as open. -/
theorem not_forall_endsSpansFirst : ¬∀ text defaultKey : String, EndsSpansFirst text defaultKey := by
  intro h
  have hfault : tokenize "k:\"a\"b" "default" = .error (.openQuote 2) := by cbv
  obtain ⟨before, after, htext, hlength, hescaped⟩ := (h _ _).fault hfault
  have hsplit : ['k', ':'] ++ ['"', 'a', '"', 'b'] = before ++ '"' :: after := htext
  obtain ⟨rfl, hafter⟩ := List.append_inj hsplit hlength.symm
  exact absurd (hescaped ['a'] ['b'] (List.cons.inj hafter).2.symm) (by decide)

end NoteQuery
