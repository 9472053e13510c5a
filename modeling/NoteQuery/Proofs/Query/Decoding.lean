import NoteQuery.Proofs.Query.ClosingQuote

/-!
# The two decoders of quoted texts

What stands between quotes is decoded in one way in a phrase and in another in the value of a field: a
phrase loses every backslash that escapes something, a value only those that escape a quote. What can
stand between quotes is the same for both: no quote in it is bare, and it does not end by escaping the quote
behind it (`isQuotable_iff`).

The value therefore never gets shorter than the phrase, and it stays longer as soon as one backslash
escapes anything but a quote. So the two are alike exactly where every backslash stands right before a
quote (`phrase_and_value_alike_iff`).
-/

namespace NoteQuery

namespace Scan

/-! ## What can stand between quotes -/

/-- A text without the backslashes that escape its characters. -/
def unescapeAll : List Char → List Char
  | '\\' :: c :: rest => c :: unescapeAll rest
  | c :: rest => c :: unescapeAll rest
  | [] => []

/-- What can stand between quotes: characters, some of them behind a backslash, among them every quote and
every backslash. -/
inductive IsQuotable : List Char → Prop
  /-- Nothing. -/
  | nil : IsQuotable []
  /-- An escaped character comes first. -/
  | escaped {body : List Char} (c : Char) (hbody : IsQuotable body) : IsQuotable ('\\' :: c :: body)
  /-- A character that needs no escape comes first. -/
  | plain {c : Char} {body : List Char} (hquote : c ≠ '"') (hback : c ≠ '\\') (hbody : IsQuotable body) :
    IsQuotable (c :: body)

/-- Whether every quote of a text is escaped. -/
def EscapesQuotes (body : List Char) : Prop :=
  ∀ inner rest, body = inner ++ '"' :: rest → EscapesNext inner

theorem escapesQuotes_escaped_iff {c : Char} {body : List Char} :
    EscapesQuotes ('\\' :: c :: body) ↔ EscapesQuotes body := by
  constructor
  · intro h inner rest heq
    have hinner := h ('\\' :: c :: inner) rest (by rw [heq]; rfl)
    rwa [escapesNext_cons_cons_iff] at hinner
  · intro h inner rest heq
    rcases List.cons_eq_append_iff.mp heq with ⟨-, hhead⟩ | ⟨inner, rfl, htail⟩
    · cases hhead
    · rcases List.cons_eq_append_iff.mp htail with ⟨rfl, -⟩ | ⟨inner, rfl, hbody⟩
      · decide
      · rw [escapesNext_cons_cons_iff]
        exact h inner rest hbody

theorem escapesQuotes_plain_iff {c : Char} {body : List Char} (hquote : c ≠ '"') (hback : c ≠ '\\') :
    EscapesQuotes (c :: body) ↔ EscapesQuotes body := by
  constructor
  · intro h inner rest heq
    have hinner := h (c :: inner) rest (by rw [heq]; rfl)
    rwa [← List.nil_append (c :: inner), escapesNext_append_cons hback] at hinner
  · intro h inner rest heq
    rcases List.cons_eq_append_iff.mp heq with ⟨-, hhead⟩ | ⟨inner, rfl, htail⟩
    · exact absurd (List.cons.inj hhead).1.symm hquote
    · rw [← List.nil_append (c :: inner), escapesNext_append_cons hback]
      exact h inner rest htail

/-- What can stand between quotes is any text whose quotes are all escaped and which does not escape what
follows. -/
theorem isQuotable_iff {body : List Char} :
    IsQuotable body ↔ EscapesQuotes body ∧ ¬EscapesNext body := by
  constructor
  · intro h
    induction h with
    | nil => exact ⟨fun inner rest heq ↦ by simp at heq, by decide⟩
    | escaped c _ ih => rwa [escapesQuotes_escaped_iff, escapesNext_cons_cons_iff]
    | plain hquote hback _ ih =>
      rwa [escapesQuotes_plain_iff hquote hback, ← List.nil_append (_ :: _), escapesNext_append_cons hback]
  · rintro ⟨hquotes, hend⟩
    induction body using unescapeAll.induct with
    | case1 c rest ih =>
      rw [escapesQuotes_escaped_iff] at hquotes
      rw [escapesNext_cons_cons_iff] at hend
      exact .escaped c (ih hquotes hend)
    | case2 c rest hescape ih =>
      have hquote : c ≠ '"' := by
        rintro rfl
        exact absurd (hquotes [] rest rfl) (by decide)
      have hback : c ≠ '\\' := by
        rintro rfl
        cases rest with
        | nil => exact hend (by decide)
        | cons d rest => exact hescape d rest rfl rfl
      rw [escapesQuotes_plain_iff hquote hback] at hquotes
      rw [← List.nil_append (c :: rest), escapesNext_append_cons hback] at hend
      exact .plain hquote hback (ih hquotes hend)
    | case3 => exact .nil

namespace IsQuotable

variable {body : List Char}

theorem head?_ne (h : IsQuotable body) : body.head? ≠ some '"' := by
  cases h with
  | nil => simp
  | escaped c _ => simp
  | plain hquote => simpa using hquote

/-! ## Phrases -/

theorem unescapeAll_plain {c : Char} (hback : c ≠ '\\') (rest : List Char) :
    unescapeAll (c :: rest) = c :: unescapeAll rest := by
  rw [unescapeAll]
  exact fun _ _ h _ ↦ hback h

theorem readQuoted_append (h : IsQuotable body) (rest : List Char) :
    readQuoted (body ++ '"' :: rest) = some (unescapeAll body, rest) := by
  induction h with
  | nil => rw [List.nil_append, readQuoted, unescapeAll]
  | escaped c _ ih =>
    rw [List.cons_append, List.cons_append, readQuoted, ih, unescapeAll]
    rfl
  | plain hquote hback _ ih =>
    rw [List.cons_append, readQuoted_cons hquote hback, ih, unescapeAll_plain hback]
    rfl

/-- What stands before the quote that ends a phrase can stand between quotes. -/
theorem exists_of_readQuoted {cs s rest : List Char} (h : readQuoted cs = some (s, rest)) :
    ∃ body, cs = body ++ '"' :: rest ∧ IsQuotable body ∧ s = unescapeAll body := by
  fun_induction readQuoted cs generalizing s rest with
  | case1 => cases h
  | case2 tail =>
    obtain ⟨rfl, rfl⟩ := Prod.mk.inj (Option.some.inj h)
    exact ⟨[], rfl, .nil, by rw [unescapeAll]⟩
  | case3 c tail ih =>
    obtain ⟨⟨s', rest'⟩, hread, hfound⟩ := Option.map_eq_some_iff.mp h
    obtain ⟨rfl, rfl⟩ := Prod.mk.inj hfound
    obtain ⟨body, rfl, hbody, rfl⟩ := ih hread
    exact ⟨'\\' :: c :: body, rfl, .escaped c hbody, by rw [unescapeAll]⟩
  | case4 => cases h
  | case5 c tail hquote _ hback ih =>
    obtain ⟨⟨s', rest'⟩, hread, hfound⟩ := Option.map_eq_some_iff.mp h
    obtain ⟨rfl, rfl⟩ := Prod.mk.inj hfound
    obtain ⟨body, rfl, hbody, rfl⟩ := ih hread
    exact ⟨c :: body, rfl, .plain hquote hback hbody, by rw [unescapeAll_plain hback]⟩

/-! ## Values -/

/-- The only quote that closes the value is the one behind it. -/
theorem eq_of_closes (h : IsQuotable body) {inner rest : List Char}
    (hcloses : Closes (body ++ ['"']) inner rest) : inner = body ∧ rest = [] := by
  obtain ⟨hquotes, -⟩ := isQuotable_iff.mp h
  obtain ⟨heq, heven⟩ := hcloses
  rcases List.eq_nil_or_concat rest with rfl | ⟨rest, c, rfl⟩
  · exact ⟨(List.append_cancel_right heq).symm, rfl⟩
  · rw [List.concat_eq_append, ← List.cons_append, ← List.append_assoc] at heq
    exact absurd (hquotes inner rest (List.append_inj_left' heq rfl)) heven

/-- Wherever its word breaks off, a value is read to its end and loses the backslashes before quotes. -/
theorem readSpanning_append (h : IsQuotable body) {pre post : List Char}
    (hsplit : pre ++ post = body ++ ['"']) :
    readSpanning pre.reverse post = some (unescapeQuotes body, []) := by
  have hlength := congrArg List.length hsplit
  rw [List.length_append, List.length_append, List.length_singleton] at hlength
  rcases hread : readSpanning pre.reverse post with _ | ⟨value, rest⟩
  · have hcloses : Closes (pre.reverse.reverse ++ post) body [] := by
      rw [List.reverse_reverse, hsplit]
      exact ⟨rfl, (isQuotable_iff.mp h).2⟩
    have hlt := lt_of_readSpanning_eq_none hread hcloses
    rw [List.length_reverse] at hlt
    omega
  · obtain ⟨inner, hfirst, rfl⟩ := closesFirstFrom_of_readSpanning hread
    have hcloses := hfirst.toCloses
    rw [List.reverse_reverse, hsplit] at hcloses
    obtain ⟨rfl, rfl⟩ := h.eq_of_closes hcloses
    rfl

/-! ## The two decoders -/

theorem unescapeQuotes_cons {c : Char} {rest : List Char} (h : c ≠ '\\' ∨ rest.head? ≠ some '"') :
    unescapeQuotes (c :: rest) = c :: unescapeQuotes rest := by
  rw [unescapeQuotes]
  rintro tail rfl rfl
  simp at h

theorem unescapeQuotes_escaped {c : Char} (hquote : c ≠ '"') (h : IsQuotable body) :
    unescapeQuotes ('\\' :: c :: body) = '\\' :: c :: unescapeQuotes body := by
  rw [unescapeQuotes_cons (.inr (by simpa using hquote)), unescapeQuotes_cons (.inr h.head?_ne)]

theorem length_unescapeAll_le (h : IsQuotable body) :
    (unescapeAll body).length ≤ (unescapeQuotes body).length := by
  induction h with
  | nil => exact Nat.le_refl _
  | @escaped body c hbody ih =>
    by_cases hquote : c = '"'
    · subst hquote
      rw [unescapeAll, unescapeQuotes, List.length_cons, List.length_cons]
      omega
    · rw [unescapeAll, unescapeQuotes_escaped hquote hbody]
      simp only [List.length_cons]
      omega
  | plain hquote hback _ ih =>
    rw [unescapeAll_plain hback, unescapeQuotes_cons (.inl hback), List.length_cons, List.length_cons]
    omega

end IsQuotable

/-- Whether every backslash of a text stands right before a quote. -/
def EscapesOnlyQuotes (body : List Char) : Prop :=
  ∀ inner rest, body = inner ++ '\\' :: rest → rest.head? = some '"'

theorem escapesOnlyQuotes_cons_iff {c : Char} {body : List Char} :
    EscapesOnlyQuotes (c :: body) ↔ (c = '\\' → body.head? = some '"') ∧ EscapesOnlyQuotes body := by
  constructor
  · intro h
    refine ⟨fun hc ↦ h [] body (by rw [hc]; rfl), fun inner rest heq ↦ ?_⟩
    exact h (c :: inner) rest (by rw [heq]; rfl)
  · rintro ⟨hhead, htail⟩ inner rest heq
    rcases List.cons_eq_append_iff.mp heq with ⟨-, hsplit⟩ | ⟨inner, rfl, hsplit⟩
    · obtain ⟨hc, rfl⟩ := List.cons.inj hsplit
      exact hhead hc.symm
    · exact htail inner rest hsplit

/-- The decoders agree exactly on texts in which only quotes are escaped. -/
theorem IsQuotable.unescapeAll_eq_iff {body : List Char} (h : IsQuotable body) :
    unescapeAll body = unescapeQuotes body ↔ EscapesOnlyQuotes body := by
  induction h with
  | nil => exact iff_of_true rfl fun inner rest heq ↦ by simp at heq
  | @escaped body c hbody ih =>
    by_cases hquote : c = '"'
    · subst hquote
      simp [unescapeAll, unescapeQuotes, escapesOnlyQuotes_cons_iff, ih]
    · refine iff_of_false (fun heq ↦ ?_) fun hquotes ↦ ?_
      · -- the value keeps the backslash
        have hle := hbody.length_unescapeAll_le
        have hlength := congrArg List.length heq
        rw [unescapeAll, hbody.unescapeQuotes_escaped hquote] at hlength
        simp only [List.length_cons] at hlength
        omega
      · have hhead := (escapesOnlyQuotes_cons_iff.mp hquotes).1 rfl
        rw [List.head?_cons, Option.some.injEq] at hhead
        exact hquote hhead
  | plain hquote hback _ ih =>
    rw [IsQuotable.unescapeAll_plain hback, IsQuotable.unescapeQuotes_cons (.inl hback),
      List.cons.injEq, escapesOnlyQuotes_cons_iff, ih]
    simp [hback]

/-! ## Tokens -/

/-- What can stand bare before the colon of a field. -/
structure IsBareKey (key : List Char) : Prop where
  /-- There is something to read. -/
  ne_nil : key ≠ []
  /-- It is in one word with the colon. -/
  inWord : ∀ c ∈ key, Scan.inWord c = true
  /-- The colon behind it is the first one. -/
  colon_notMem : ':' ∉ key
  /-- It does not begin with a quote, as a phrase does. -/
  head_ne_quote : key.head? ≠ some '"'
  /-- It does not begin with the sign of a negation. -/
  head_ne_minus : key.head? ≠ some '-'

theorem IsBareKey.opensValue {key : List Char} (h : IsBareKey key) (tail : List Char) :
    OpensValue (key ++ ':' :: '"' :: tail) key tail :=
  ⟨rfl, h.ne_nil, h.colon_notMem, h.inWord, h.head_ne_quote⟩

theorem tokens_of_only_term {defaultKey cs : List Char} {t : Token Term}
    (h : pass defaultKey cs = .read (some t) []) : tokens defaultKey cs = .ok [t] := by
  rw [tokens_of_read h, tokens_nil]
  rfl

theorem tokens_phrase {body : List Char} (h : IsQuotable body) (defaultKey : List Char) :
    tokens defaultKey ('"' :: (body ++ ['"'])) = .ok [termToken defaultKey (unescapeAll body) false] := by
  apply tokens_of_only_term
  rw [pass_cons (by decide) (by decide), readToken, h.readQuoted_append]

theorem tokens_field {key body : List Char} (hkey : IsBareKey key) (h : IsQuotable body)
    (defaultKey : List Char) :
    tokens defaultKey (key ++ ':' :: '"' :: (body ++ ['"']))
      = .ok [termToken (Text.lower key) (unescapeQuotes body) false] := by
  apply tokens_of_only_term
  have hopens := hkey.opensValue (body ++ ['"'])
  have hpass : pass defaultKey (key ++ ':' :: '"' :: (body ++ ['"']))
      = readToken defaultKey false (key ++ ':' :: '"' :: (body ++ ['"'])) := by
    obtain ⟨c, rest, rfl⟩ := List.exists_cons_of_ne_nil hkey.ne_nil
    refine pass_cons (not_isBlank_of_inWord (hkey.inWord c List.mem_cons_self)) ?_ _ _
    simpa using hkey.head_ne_minus
  rw [hpass, hopens.readToken_eq, h.readSpanning_append List.takeWhile_append_dropWhile]

end Scan

open Scan

/-- **Two decoders.** What can stand between quotes is read as the operand of one term, as a phrase and as
the value of a field. The two operands are the same exactly if every backslash stands right before a
quote. -/
theorem phrase_and_value_alike_iff {key body : String} (hkey : IsBareKey key.toList)
    (hquotes : EscapesQuotes body.toList) (hend : ¬EscapesNext body.toList) (defaultKey : String) :
    ∃ phrase value : String,
      tokenize ("\"" ++ body ++ "\"") defaultKey
        = .ok [.term ⟨Text.lowercase defaultKey, phrase, false⟩] ∧
      tokenize (key ++ ":\"" ++ body ++ "\"") defaultKey
        = .ok [.term ⟨Text.lowercase key, value, false⟩] ∧
      (phrase = value ↔ EscapesOnlyQuotes body.toList) := by
  have hbody : IsQuotable body.toList := isQuotable_iff.mpr ⟨hquotes, hend⟩
  refine ⟨String.ofList (unescapeAll body.toList), String.ofList (unescapeQuotes body.toList), ?_, ?_, ?_⟩
  · have htext : ("\"" ++ body ++ "\"").toList = '"' :: (body.toList ++ ['"']) := by simp
    rw [tokenize_eq_ok_iff, htext, tokens_phrase hbody]
    rfl
  · have htext : (key ++ ":\"" ++ body ++ "\"").toList
        = key.toList ++ ':' :: '"' :: (body.toList ++ ['"']) := by simp
    rw [tokenize_eq_ok_iff, htext, tokens_field hkey hbody]
    rfl
  · rw [String.ofList_inj, hbody.unescapeAll_eq_iff]

/-- The escaped quotes and the parentheses of `TAG:"a \"(b)\""` are read as they are in the phrase. -/
theorem phrase_and_value_alike_of_escaped_quotes :
    (IsBareKey "TAG".toList ∧ EscapesQuotes "a \\\"(b)\\\"".toList ∧
      ¬EscapesNext "a \\\"(b)\\\"".toList) ∧
    ∃ operand : String,
      tokenize "\"a \\\"(b)\\\"\"" "default" = .ok [.term ⟨"default", operand, false⟩] ∧
      tokenize "TAG:\"a \\\"(b)\\\"\"" "default" = .ok [.term ⟨"tag", operand, false⟩] := by
  have hkey : IsBareKey "TAG".toList := by
    have hlist : "TAG".toList = ['T', 'A', 'G'] := by decide
    rw [hlist]
    exact ⟨by decide, List.all_eq_true.mp (by decide), by decide, by decide, by decide⟩
  have hbody : IsQuotable ['a', ' ', '\\', '"', '(', 'b', ')', '\\', '"'] :=
    .plain (by decide) (by decide) <| .plain (by decide) (by decide) <| .escaped '"' <|
      .plain (by decide) (by decide) <| .plain (by decide) (by decide) <|
      .plain (by decide) (by decide) <| .escaped '"' .nil
  have hlist : "a \\\"(b)\\\"".toList = ['a', ' ', '\\', '"', '(', 'b', ')', '\\', '"'] := by decide
  obtain ⟨hquotes, hend⟩ := isQuotable_iff.mp hbody
  rw [← hlist] at hquotes hend
  refine ⟨⟨hkey, hquotes, hend⟩, ?_⟩
  obtain ⟨phrase, value, hphrase, hvalue, halike⟩ := phrase_and_value_alike_iff hkey hquotes hend "default"
  have honly : EscapesOnlyQuotes "a \\\"(b)\\\"".toList := by
    rw [hlist]
    simp only [escapesOnlyQuotes_cons_iff]
    exact ⟨by decide, by decide, by decide, by decide, by decide, by decide, by decide, by decide, by decide,
      fun inner rest heq ↦ by simp at heq⟩
  have hdefault : Text.lowercase "default" = "default" := by decide +kernel
  have htag : Text.lowercase "TAG" = "tag" := by decide +kernel
  rw [hdefault] at hphrase
  rw [htag, ← halike.mpr honly] at hvalue
  exact ⟨phrase, hphrase, hvalue⟩

/-- In `"\d"` the backslash is dropped, in `k:"\d"` it is kept. -/
theorem not_forall_phrase_and_value_alike :
    ¬∀ (key body defaultKey phrase value : String), IsBareKey key.toList → EscapesQuotes body.toList →
      ¬EscapesNext body.toList →
      tokenize ("\"" ++ body ++ "\"") defaultKey
        = .ok [.term ⟨Text.lowercase defaultKey, phrase, false⟩] →
      tokenize (key ++ ":\"" ++ body ++ "\"") defaultKey
        = .ok [.term ⟨Text.lowercase key, value, false⟩] → phrase = value := by
  intro h
  have hbody : IsQuotable "\\d".toList := .escaped 'd' .nil
  have hkey : IsBareKey "k".toList := by
    have hlist : "k".toList = ['k'] := by decide
    rw [hlist]
    exact ⟨by decide, List.all_eq_true.mp (by decide), by decide, by decide, by decide⟩
  obtain ⟨hquotes, hend⟩ := isQuotable_iff.mp hbody
  have hphrase : tokenize ("\"" ++ "\\d" ++ "\"") "default"
      = .ok [.term ⟨Text.lowercase "default", "d", false⟩] := by cbv
  have hvalue : tokenize ("k" ++ ":\"" ++ "\\d" ++ "\"") "default"
      = .ok [.term ⟨Text.lowercase "k", "\\d", false⟩] := by cbv
  exact absurd (h _ _ _ _ _ hkey hquotes hend hphrase hvalue) (by decide)

end NoteQuery
