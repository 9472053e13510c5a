import NoteQuery.Proofs.Query.ClosingQuote

/-!
# Words taken as they stand

A word ends before a blank or a bracket, and it begins with no quote, since a quote begins a phrase. So nothing
is stripped from it, and nothing from the value of a field unless this begins with a quote. No quote stands behind
a field with an empty value either: it would belong to the word. The operand of a term that comes from a word is
therefore a part of the query, character for character, except where a field has its value in quotes
(`words_taken_verbatim`).
-/

namespace NoteQuery

namespace Scan

/-! ## Words and their values -/

/-- Whether a text that is left begins with a word, or with a stray bracket: not with a sign that begins a token of
another kind. -/
def BeginsWord (cs : List Char) : Prop := ∃ c ∈ cs.head?, c ∉ ['(', ')', '[', '"']

/-- What stands in a word for the value of its term: what is behind the first colon of a field, or else all of it. -/
def valuePart (word : List Char) : List Char :=
  match splitField word with
  | some (_, value) => value
  | none => word

/-- Whether a text that is left begins with a bare word, or with a field whose value begins with no quote. -/
def BeginsUnquoted (cs : List Char) : Prop :=
  BeginsWord cs ∧ ∀ key value, splitField (cs.takeWhile inWord) = some (key, value) → value.head? ≠ some '"'

/-- Whether a word, with so much behind it, is taken as it stands. -/
structure IsVerbatim (word behind : List Char) : Prop where
  /-- No phrase is read as the value of a field: where the value is empty, no quote comes next. -/
  head?_ne {key : List Char} (hfield : splitField word = some (key, [])) : behind.head? ≠ some '"'
  /-- Nothing is stripped from a bare word. -/
  strip_word (hbare : splitField word = none) : stripOuterQuotes word = word
  /-- Nothing is stripped from the value of a field, unless it begins with a quote. -/
  strip_value {key value : List Char} (hfield : splitField word = some (key, value))
    (hvalue : value.head? ≠ some '"') : stripOuterQuotes value = value

variable {defaultKey cs rest : List Char}

theorem BeginsWord.head?_takeWhile_ne (h : BeginsWord cs) : (cs.takeWhile inWord).head? ≠ some '"' := by
  obtain ⟨c, hc, hsign⟩ := h
  intro hquote
  rw [List.head?_takeWhile] at hquote
  obtain ⟨hhead, -⟩ := Option.filter_eq_some_iff.mp hquote
  obtain rfl := Option.mem_unique hc hhead
  exact hsign (by decide)

theorem BeginsWord.readToken_eq (h : BeginsWord cs) (defaultKey : List Char) (neg : Bool) :
    readToken defaultKey neg cs = readWord defaultKey neg cs := by
  obtain ⟨c, hc, hsign⟩ := h
  obtain ⟨tail, rfl⟩ := List.head?_eq_some_iff.mp hc
  exact readToken_cons hsign defaultKey neg tail

theorem valuePart_suffix (word : List Char) : valuePart word <:+ word := by
  unfold valuePart
  split
  · rename_i key value hfield
    obtain ⟨-, rfl⟩ := splitField_eq_some_iff.mp hfield
    exact (List.suffix_cons ':' value).trans (List.suffix_append key _)
  · exact List.suffix_refl word

theorem stripOuterQuotes_valuePart (cs : List Char) (hvalue : (valuePart (cs.takeWhile inWord)).head? ≠ some '"') :
    stripOuterQuotes (valuePart (cs.takeWhile inWord)) = valuePart (cs.takeWhile inWord) :=
  stripOuterQuotes_of_forall_inWord (fun _ hc ↦ List.mem_takeWhile_imp ((valuePart_suffix _).subset hc)) hvalue

theorem valuePart_of_bare {word : List Char} (h : splitField word = none) : valuePart word = word := by
  rw [valuePart, h]

theorem valuePart_of_field {word key value : List Char} (h : splitField word = some (key, value)) :
    valuePart word = value := by
  rw [valuePart, h]

theorem BeginsWord.isVerbatim (h : BeginsWord cs) : IsVerbatim (cs.takeWhile inWord) (cs.dropWhile inWord) where
  head?_ne _ hquote := nomatch head?_dropWhile_inWord cs '"' hquote
  strip_word hbare := by
    have hstrip := stripOuterQuotes_valuePart cs
    rw [valuePart_of_bare hbare] at hstrip
    exact hstrip h.head?_takeWhile_ne
  strip_value hfield hvalue := by
    have hstrip := stripOuterQuotes_valuePart cs
    rw [valuePart_of_field hfield] at hstrip
    exact hstrip hvalue

theorem BeginsUnquoted.head?_valuePart_ne (h : BeginsUnquoted cs) :
    (valuePart (cs.takeWhile inWord)).head? ≠ some '"' := by
  obtain ⟨hword, hvalue⟩ := h
  unfold valuePart
  split
  · rename_i key value hfield
    exact hvalue key value hfield
  · exact hword.head?_takeWhile_ne

/-- The operand that is read of such a word is its value, and ends where the word ends. -/
theorem value_of_readWord {neg : Bool} {t : Term}
    (hvalue : (valuePart (cs.takeWhile inWord)).head? ≠ some '"')
    (h : readWord defaultKey neg cs = .read (some (.term t)) rest) :
    t.value.toList = valuePart (cs.takeWhile inWord) ∧ rest = cs.dropWhile inWord := by
  have hstrip := stripOuterQuotes_valuePart cs hvalue
  rw [readWord] at h
  split at h
  · cases h
  · split at h
    · cases h
    · split at h
      · rename_i hfield
        rw [valuePart_of_bare hfield] at hstrip ⊢
        obtain ⟨hterm, rfl⟩ := Pass.read.inj h
        obtain rfl := Token.term.inj (Option.some.inj hterm)
        exact ⟨by rw [String.toList_ofList, hstrip], rfl⟩
      · rename_i key value hfield
        rw [valuePart_of_field hfield] at hstrip hvalue ⊢
        rw [readValue_of_head?_ne hvalue (head?_dropWhile_inWord cs), hstrip] at h
        obtain ⟨hterm, rfl⟩ := Pass.read.inj h
        obtain rfl := Token.term.inj (Option.some.inj hterm)
        exact ⟨String.toList_ofList, rfl⟩

/-! ## Passes -/

theorem exists_eq_append_of_pass {t : Term} (hbegins : BeginsUnquoted (front cs))
    (h : pass defaultKey cs = .read (some (.term t)) rest) :
    t.value.toList = valuePart ((front cs).takeWhile inWord) ∧ ∃ before, cs = before ++ t.value.toList ++ rest := by
  obtain ⟨neg, hneg⟩ := exists_pass_eq_readToken defaultKey cs
  rw [hneg, hbegins.1.readToken_eq] at h
  obtain ⟨hvalue, rfl⟩ := value_of_readWord hbegins.head?_valuePart_ne h
  refine ⟨hvalue, ?_⟩
  obtain ⟨lead, hlead⟩ := front_suffix cs
  obtain ⟨key, hkey⟩ := valuePart_suffix ((front cs).takeWhile inWord)
  refine ⟨lead ++ key, ?_⟩
  rw [hvalue, List.append_assoc lead, hkey, List.append_assoc, List.takeWhile_append_dropWhile, hlead]

theorem reaches_iff_of_read {token : Option (Token Term)} {target : List Char}
    (h : pass defaultKey cs = .read token rest) :
    Reaches defaultKey cs target ↔ target = cs ∨ Reaches defaultKey rest target := by
  constructor
  · rintro (_ | ⟨hread, hrest⟩)
    · exact .inl rfl
    · obtain ⟨-, rfl⟩ := Pass.read.inj (h.symm.trans hread)
      exact .inr hrest
  · rintro (rfl | hrest)
    · exact .here target
    · exact .there h hrest

theorem eq_of_reaches_of_done {target : List Char} (h : pass defaultKey cs = .done)
    (hreaches : Reaches defaultKey cs target) : target = cs := by
  obtain _ | ⟨hread, -⟩ := hreaches
  · rfl
  · cases h.symm.trans hread

theorem mem_terms_toList_iff (token : Option (Token Term)) (t : Term) :
    t ∈ Token.terms token.toList ↔ token = some (.term t) := by
  match token with
  | some (.term u) => simp [Token.terms, eq_comm]
  | none | some .or | some .opening | some .closing => simp [Token.terms]

theorem mem_terms_iff {ts : List (Token Term)} (h : tokens defaultKey cs = .ok ts) (t : Term) :
    t ∈ Token.terms ts ↔
      ∃ target rest, Reaches defaultKey cs target ∧ pass defaultKey target = .read (some (.term t)) rest := by
  induction cs using tokens.induct defaultKey generalizing ts with
  | case1 cs hdone =>
    obtain rfl := Except.ok.inj ((tokens_of_done hdone).symm.trans h)
    refine iff_of_false List.not_mem_nil ?_
    rintro ⟨target, rest, hreaches, hread⟩
    obtain rfl := eq_of_reaches_of_done hdone hreaches
    cases hdone.symm.trans hread
  | case2 cs span hopen => cases (tokens_of_open hopen).symm.trans h
  | case3 cs token rest hread ih =>
    rw [tokens_of_read hread] at h
    obtain ⟨ts', hrest, rfl⟩ := map_eq_ok h
    have hfirst : t ∈ Token.terms token.toList ↔ ∃ after, pass defaultKey cs = .read (some (.term t)) after := by
      rw [mem_terms_toList_iff, hread]
      constructor
      · rintro rfl
        exact ⟨rest, rfl⟩
      · rintro ⟨after, hafter⟩
        exact (Pass.read.inj hafter).1
    rw [Token.terms_append, List.mem_append, hfirst, ih hrest]
    simp only [reaches_iff_of_read hread, or_and_right, exists_or, exists_and_left, exists_eq_left]

end Scan

/-! ## Queries -/

open Scan

/-- **Words as they stand.** Where a pass over a query comes to a word, no phrase is read behind it as the value of
a field, and nothing is stripped from it or from a value that does not begin with a quote. So the operand of a
term that comes from a bare word, or from a field with such a value, stands in the query itself, right before what
the pass leaves. Each term of the query is read by such a pass or by one that begins with another sign. -/
theorem words_taken_verbatim (text defaultKey : String) :
    (∀ cs, Reaches (Text.lower defaultKey.toList) text.toList cs → BeginsWord (front cs) →
      IsVerbatim ((front cs).takeWhile inWord) ((front cs).dropWhile inWord)) ∧
    (∀ cs t rest, Reaches (Text.lower defaultKey.toList) text.toList cs → BeginsUnquoted (front cs) →
      pass (Text.lower defaultKey.toList) cs = .read (some (.term t)) rest →
      t.value.toList = valuePart ((front cs).takeWhile inWord) ∧
        ∃ before, text.toList = before ++ t.value.toList ++ rest) ∧
    ∀ ts, tokenize text defaultKey = .ok ts → ∀ t, t ∈ Token.terms ts ↔
      ∃ cs rest, Reaches (Text.lower defaultKey.toList) text.toList cs ∧
        pass (Text.lower defaultKey.toList) cs = .read (some (.term t)) rest := by
  refine ⟨fun cs _ hbegins ↦ hbegins.isVerbatim, fun cs t rest hreaches hbegins hread ↦ ?_, fun ts hts ↦ ?_⟩
  · obtain ⟨hvalue, before, hcs⟩ := exists_eq_append_of_pass hbegins hread
    obtain ⟨lead, htext⟩ := hreaches.suffix
    refine ⟨hvalue, lead ++ before, ?_⟩
    rw [← htext, hcs]
    simp only [List.append_assoc]
  · exact mem_terms_iff (tokenize_eq_ok_iff.mp hts)

/-- In `a"b k:v"` the quotes stand inside a bare word and at the end of a value, and stay there. -/
theorem words_taken_verbatim_of_inner_quotes :
    tokenize "a\"b k:v\"" "default" = .ok [.term ⟨"default", "a\"b", false⟩, .term ⟨"k", "v\"", false⟩] ∧
    Reaches (Text.lower "default".toList) "a\"b k:v\"".toList " k:v\"".toList ∧
    BeginsUnquoted (front " k:v\"".toList) ∧
    IsVerbatim "k:v\"".toList [] ∧
    ∃ before, "a\"b k:v\"".toList = before ++ "v\"".toList ++ [] := by
  have htokens : tokenize "a\"b k:v\"" "default"
      = .ok [.term ⟨"default", "a\"b", false⟩, .term ⟨"k", "v\"", false⟩] := by cbv
  have hfirst : pass (Text.lower "default".toList) "a\"b k:v\"".toList
      = .read (some (.term ⟨"default", "a\"b", false⟩)) " k:v\"".toList := by cbv
  have hsecond : pass (Text.lower "default".toList) " k:v\"".toList
      = .read (some (.term ⟨"k", "v\"", false⟩)) [] := by cbv
  have hreaches : Reaches (Text.lower "default".toList) "a\"b k:v\"".toList " k:v\"".toList :=
    .there hfirst (.here _)
  have hbegins : BeginsUnquoted (front " k:v\"".toList) := by
    have hfront : front " k:v\"".toList = "k:v\"".toList := by decide
    rw [hfront]
    refine ⟨⟨'k', by decide, by decide⟩, fun key value hfield ↦ ?_⟩
    obtain ⟨-, rfl⟩ := Prod.mk.inj (Option.some.inj hfield)
    decide
  obtain ⟨hwords, hoperands, -⟩ := words_taken_verbatim "a\"b k:v\"" "default"
  exact ⟨htokens, hreaches, hbegins, hwords _ hreaches hbegins.1, (hoperands _ _ _ hreaches hbegins hsecond).2⟩

end NoteQuery
