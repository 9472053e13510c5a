import NoteQuery.Proofs.Query.Joining
import NoteQuery.Proofs.Query.Remaining
import NoteQuery.Proofs.Text.Case

/-!
# The shape of terms

The key of a term is in lower case. Its operand has been taken out of its quotes, so where a text has no
backslashes one expects no operand that begins and ends with a quote. A phrase ends at the next quote, a
bare word does not begin with one, and the operand of a property is an object. The value of a field,
though, is read to a quote at the end of the word it begins in, past all quotes inside that word. So an
operand keeps quotes around it exactly when some word of the query is a field with a value in two pairs of
quotes, as in `key:""value""`.
-/

namespace NoteQuery

/-- Whether a text begins with a quote and ends with another one. -/
def InQuotes (cs : List Char) : Prop := ∃ inner, cs = '"' :: (inner ++ ['"'])

namespace InQuotes

variable {cs : List Char}

theorem head? (h : InQuotes cs) : cs.head? = some '"' := by
  obtain ⟨inner, rfl⟩ := h
  rfl

theorem getLast? (h : InQuotes cs) : cs.getLast? = some '"' := by
  obtain ⟨inner, rfl⟩ := h
  rw [← List.cons_append, List.getLast?_concat]

end InQuotes

/-- Whether a text in quotes is in quotes again without them. -/
def InTwoQuotes (cs : List Char) : Prop := ∃ inner, InQuotes inner ∧ cs = '"' :: (inner ++ ['"'])

theorem inTwoQuotes_iff {inner : List Char} : InTwoQuotes ('"' :: (inner ++ ['"'])) ↔ InQuotes inner := by
  constructor
  · rintro ⟨inner', h, heq⟩
    rwa [List.append_cancel_right (List.cons.inj heq).2]
  · exact fun h ↦ ⟨inner, h, rfl⟩

theorem Token.terms_append {α : Type} (ts us : List (Token α)) :
    terms (ts ++ us) = terms ts ++ terms us := by
  induction ts with
  | nil => rfl
  | cons t ts ih =>
    cases t with
    | term a => exact congrArg (a :: ·) ih
    | or | opening | closing => exact ih

namespace Scan

/-! ## Texts without backslashes -/

section

variable {cs s rest : List Char} (hback : '\\' ∉ cs)
include hback

theorem quote_notMem_of_readQuoted (h : readQuoted cs = some (s, rest)) : '"' ∉ s := by
  fun_induction readQuoted cs generalizing s rest with
  | case1 => cases h
  | case2 tail =>
    obtain ⟨rfl, -⟩ := Prod.mk.inj (Option.some.inj h)
    exact List.not_mem_nil
  | case3 c tail ih => exact absurd List.mem_cons_self hback
  | case4 => cases h
  | case5 c tail hquote _ _ ih =>
    obtain ⟨⟨s', after⟩, hread, hfound⟩ := Option.map_eq_some_iff.mp h
    obtain ⟨rfl, -⟩ := Prod.mk.inj hfound
    have htail := ih (fun hmem ↦ hback (List.mem_cons_of_mem c hmem)) hread
    exact fun hmem ↦ (List.mem_cons.mp hmem).elim (fun he ↦ hquote he.symm) htail

theorem unescapeQuotes_eq_self : unescapeQuotes cs = cs := by
  fun_induction unescapeQuotes cs with
  | case1 tail ih => exact absurd List.mem_cons_self hback
  | case2 c tail _ ih => rw [ih fun hmem ↦ hback (List.mem_cons_of_mem c hmem)]
  | case3 => rfl

theorem endsQuoted_iff : endsQuoted cs = true ↔ cs.head? = some '"' := by
  unfold endsQuoted
  split
  · rename_i before
    have hnone : before.takeWhile (· == '\\') = [] := by
      cases before with
      | nil => rfl
      | cons c before =>
        refine List.takeWhile_cons_of_neg fun hc ↦ hback ?_
        rw [← eq_of_beq hc]
        exact List.mem_cons_of_mem _ List.mem_cons_self
    rw [hnone]
    exact iff_of_true rfl rfl
  · rename_i hquote
    refine iff_of_false Bool.false_ne_true fun hhead ↦ ?_
    obtain ⟨before, rfl⟩ := List.head?_eq_some_iff.mp hhead
    exact hquote before rfl

end

/-! ## Values of fields -/

theorem readSpanning_quote {before : List Char} (hback : '\\' ∉ before) (cs : List Char) :
    readSpanning ('"' :: before) cs = some (before.reverse, cs) := by
  have hall : '\\' ∉ '"' :: before := fun hmem ↦ (List.mem_cons.mp hmem).elim nofun hback
  rw [readSpanning_of_endsQuoted ((endsQuoted_iff hall).mpr rfl), List.tail_cons,
    unescapeQuotes_eq_self fun hmem ↦ hback (List.mem_reverse.mp hmem)]

/-- A value that does not end with a quote yet is read up to the next one. -/
theorem exists_of_readSpanning {value cs s rest : List Char} (hvalue : '\\' ∉ value) (hcs : '\\' ∉ cs)
    (hhead : value.head? ≠ some '"') (h : readSpanning value cs = some (s, rest)) :
    ∃ taken, '"' ∉ taken ∧ cs = taken ++ '"' :: rest ∧ s = value.reverse ++ taken := by
  have hends : endsQuoted value = false := by
    rw [Bool.eq_false_iff]
    exact mt (endsQuoted_iff hvalue).mp hhead
  induction cs generalizing value with
  | nil =>
    rw [readSpanning, if_neg (ne_true_of_eq_false hends)] at h
    cases h
  | cons c cs ih =>
    obtain ⟨hc, hcs⟩ := not_or.mp (mt List.mem_cons.mpr hcs)
    have hmore : '\\' ∉ c :: value := fun hmem ↦ (List.mem_cons.mp hmem).elim hc hvalue
    rw [readSpanning_cons hends] at h
    by_cases hquote : c = '"'
    · rw [hquote, readSpanning_quote hvalue] at h
      obtain ⟨rfl, rfl⟩ := Prod.mk.inj (Option.some.inj h)
      exact ⟨[], List.not_mem_nil, by rw [hquote, List.nil_append], (List.append_nil _).symm⟩
    · have hhead' : (c :: value).head? ≠ some '"' := mt Option.some.inj hquote
      have hends' : endsQuoted (c :: value) = false := by
        rw [Bool.eq_false_iff]
        exact mt (endsQuoted_iff hmore).mp hhead'
      obtain ⟨taken, hfree, rfl, rfl⟩ := ih hmore hcs hhead' h hends'
      refine ⟨c :: taken, ?_, rfl, ?_⟩
      · exact fun hmem ↦ (List.mem_cons.mp hmem).elim (fun he ↦ hquote he.symm) hfree
      · rw [List.reverse_cons, List.append_assoc, List.singleton_append]

theorem not_isBlank_of_inWord {c : Char} (h : inWord c = true) : Text.isBlank c = false := by
  rw [inWord, Bool.not_eq_true'] at h
  simp only [Bool.or_eq_false_iff] at h
  exact h.1.1.1.1

theorem stripOuterQuotes_of_forall_inWord {word : List Char} (hword : ∀ c ∈ word, inWord c = true)
    (hquote : word.head? ≠ some '"') : stripOuterQuotes word = word :=
  stripOuterQuotes_eq_self (Text.trim_of_forall_not_blank fun c hc ↦ not_isBlank_of_inWord (hword c hc))
    hquote

theorem readValue_of_head?_ne {value cs : List Char} (hvalue : value.head? ≠ some '"')
    (hbehind : ∀ c ∈ cs.head?, inWord c = false) :
    readValue value cs = .ok (stripOuterQuotes value, cs) := by
  unfold readValue
  split
  · exact nomatch hbehind '"' rfl
  · exact absurd rfl hvalue
  · rfl

/-- A value in quotes keeps quotes around it exactly when these are two pairs and the outer one ends with
the word. If the word does not end with a quote, the value goes on behind it up to the next quote. -/
theorem inQuotes_iff_of_readSpanning {body cs s rest : List Char} (hbody : '\\' ∉ body) (hcs : '\\' ∉ cs)
    (hbehind : ∀ c ∈ cs.head?, inWord c = false) (h : readSpanning body.reverse cs = some (s, rest)) :
    InQuotes s ↔ InTwoQuotes ('"' :: body) := by
  by_cases hlast : body.getLast? = some '"'
  · obtain ⟨inner, rfl⟩ := List.getLast?_eq_some_iff.mp hlast
    have hinner : '\\' ∉ inner.reverse := fun hmem ↦
      hbody (List.mem_append_left _ (List.mem_reverse.mp hmem))
    rw [List.reverse_concat, readSpanning_quote hinner] at h
    rw [← (Prod.mk.inj (Option.some.inj h)).1, List.reverse_reverse, inTwoQuotes_iff]
  · have hlast' : body.reverse.head? ≠ some '"' := List.head?_reverse ▸ hlast
    obtain ⟨taken, hfree, rfl, rfl⟩ :=
      exists_of_readSpanning (mt List.mem_reverse.mp hbody) hcs hlast' h
    refine iff_of_false (fun hs ↦ ?_) ?_
    · -- the character behind the word is no quote, so at least that one is taken, and it is the last
      rcases List.eq_nil_or_concat taken with rfl | ⟨taken, c, rfl⟩
      · exact nomatch hbehind '"' rfl
      · have hquote := hs.getLast?
        rw [List.concat_eq_append] at hquote hfree
        rw [← List.append_assoc, List.getLast?_concat] at hquote
        rw [Option.some.inj hquote] at hfree
        exact hfree (List.mem_append_right _ (List.mem_singleton.mpr rfl))
    · rintro ⟨inner, -, heq⟩
      rw [(List.cons.inj heq).2, List.getLast?_concat] at hlast
      exact hlast rfl

/-- What is read of a value keeps quotes around it exactly when the value stands in two pairs of them. -/
theorem inQuotes_iff_of_readValue {value cs s rest : List Char} (hvalue : '\\' ∉ value)
    (hcs : '\\' ∉ cs) (hword : ∀ c ∈ value, inWord c = true)
    (hbehind : ∀ c ∈ cs.head?, inWord c = false)
    (h : readValue value cs = .ok (s, rest)) : InQuotes s ↔ InTwoQuotes value := by
  by_cases hhead : value.head? = some '"'
  · obtain ⟨body, rfl⟩ := List.head?_eq_some_iff.mp hhead
    cases hread : readSpanning body.reverse cs with
    | none =>
      rw [readValue, hread] at h
      cases h
    | some found =>
      obtain rfl := Except.ok.inj ((readValue_cons_quote hread).symm.trans h)
      exact inQuotes_iff_of_readSpanning (fun hmem ↦ hvalue (List.mem_cons_of_mem _ hmem)) hcs hbehind hread
  · rw [readValue_of_head?_ne hhead hbehind, stripOuterQuotes_of_forall_inWord hword hhead] at h
    obtain ⟨rfl, -⟩ := Prod.mk.inj (Except.ok.inj h)
    refine iff_of_false (fun hs ↦ hhead hs.head?) ?_
    rintro ⟨inner, -, rfl⟩
    exact hhead rfl

/-! ## Tokens -/

/-- Whether a word is a field with a value in two pairs of quotes. A word that begins with a quote is no
field but the start of a phrase. -/
def IsQuotedTwice (word : List Char) : Prop :=
  ∃ key value, splitField word = some (key, value) ∧ key.head? ≠ some '"' ∧ InTwoQuotes value

theorem not_isQuotedTwice_of_splitField {word : List Char} (h : splitField word = none) :
    ¬IsQuotedTwice word := by
  rintro ⟨key, value, hfield, -⟩
  cases h.symm.trans hfield

theorem not_isQuotedTwice_nil : ¬IsQuotedTwice [] := not_isQuotedTwice_of_splitField rfl

theorem isQuotedTwice_iff_of_splitField {word key value : List Char} (hhead : word.head? ≠ some '"')
    (h : splitField word = some (key, value)) : IsQuotedTwice word ↔ InTwoQuotes value := by
  constructor
  · rintro ⟨key', value', hfield, -, htwice⟩
    obtain ⟨-, rfl⟩ := Prod.mk.inj (Option.some.inj (h.symm.trans hfield))
    exact htwice
  · obtain ⟨⟨hkey, -⟩, rfl⟩ := splitField_eq_some_iff.mp h
    rw [List.head?_append_of_ne_nil _ hkey] at hhead
    exact fun htwice ↦ ⟨key, value, h, hhead, htwice⟩

theorem IsQuotedTwice.head?_ne {word : List Char} (h : IsQuotedTwice word) : word.head? ≠ some '"' := by
  obtain ⟨key, value, hfield, hkey, -⟩ := h
  obtain ⟨⟨hne, -⟩, rfl⟩ := splitField_eq_some_iff.mp hfield
  rwa [List.head?_append_of_ne_nil _ hne]

theorem IsQuotedTwice.lower_ne {word : List Char} (h : IsQuotedTwice word) :
    Text.lower word ≠ ['o', 'r'] := by
  obtain ⟨key, value, hfield, -, inner, ⟨inner', rfl⟩, rfl⟩ := h
  obtain ⟨-, rfl⟩ := splitField_eq_some_iff.mp hfield
  intro hlower
  have hlength := Text.length_le_length_lowerFrom [] (key ++ ':' :: '"' :: ('"' :: (inner' ++ ['"']) ++ ['"']))
  rw [← Text.lower, hlower] at hlength
  simp only [List.length_append, List.length_cons] at hlength
  omega

/-- The words at which the reader takes its tokens from a text. -/
def words (defaultKey : List Char) (cs : List Char) : List (List Char) :=
  match _h : pass defaultKey cs with
  | .read _ rest => (front cs).takeWhile inWord :: words defaultKey rest
  | _ => []
termination_by cs.length
decreasing_by exact length_lt_of_pass _h

theorem words_of_read {defaultKey cs rest : List Char} {token : Option (Token Term)}
    (h : pass defaultKey cs = .read token rest) :
    words defaultKey cs = (front cs).takeWhile inWord :: words defaultKey rest := by
  fun_cases words defaultKey cs with
  | case1 token' rest' hp =>
    cases h.symm.trans hp
    rfl
  | case2 hp => exact absurd h (hp token rest)

theorem words_of_done {defaultKey cs : List Char} (h : pass defaultKey cs = .done) :
    words defaultKey cs = [] := by
  fun_cases words defaultKey cs with
  | case1 token rest hp => cases h.symm.trans hp
  | case2 => rfl

section

variable {defaultKey cs rest : List Char} {neg : Bool} {token : Option (Token Term)}

theorem exists_mem_terms_termToken (key value : List Char) (neg : Bool) :
    (∃ t ∈ Token.terms (some (termToken key value neg)).toList, InQuotes t.value.toList) ↔
      InQuotes value := by
  constructor
  · rintro ⟨t, ht, hvalue⟩
    rwa [List.mem_singleton.mp ht, String.toList_ofList] at hvalue
  · exact fun hvalue ↦ ⟨_, List.mem_singleton_self _, by rwa [String.toList_ofList]⟩

theorem inQuotes_iff_of_readWord (hback : '\\' ∉ cs) (hquote : cs.head? ≠ some '"')
    (h : readWord defaultKey neg cs = .read token rest) :
    (∃ t ∈ Token.terms token.toList, InQuotes t.value.toList) ↔ IsQuotedTwice (cs.takeWhile inWord) := by
  have hsplit : cs.takeWhile inWord ++ cs.dropWhile inWord = cs := List.takeWhile_append_dropWhile
  have hword : ∀ c ∈ cs.takeWhile inWord, inWord c = true := fun c hc ↦ List.mem_takeWhile_imp hc
  have hbehind := head?_dropWhile_inWord cs
  rw [readWord] at h
  generalize cs.takeWhile inWord = word at h hsplit hword
  generalize cs.dropWhile inWord = behind at h hsplit hbehind
  rw [← hsplit, List.mem_append, not_or] at hback
  split at h
  · rename_i hempty
    obtain ⟨rfl, -⟩ := Pass.read.inj h
    rw [List.isEmpty_iff.mp hempty]
    refine iff_of_false ?_ not_isQuotedTwice_nil
    rintro ⟨_, ht, _⟩
    cases ht
  · rename_i hempty
    have hne : word ≠ [] := mt List.isEmpty_iff.mpr hempty
    have hhead : word.head? ≠ some '"' := by
      rwa [← hsplit, List.head?_append_of_ne_nil _ hne] at hquote
    split at h
    · rename_i hor
      obtain ⟨rfl, -⟩ := Pass.read.inj h
      rw [Bool.and_eq_true, beq_iff_eq] at hor
      refine iff_of_false ?_ fun htwice ↦ htwice.lower_ne hor.2
      rintro ⟨_, ht, _⟩
      cases ht
    · split at h
      · rename_i hfield
        obtain ⟨rfl, -⟩ := Pass.read.inj h
        rw [exists_mem_terms_termToken, stripOuterQuotes_of_forall_inWord hword hhead]
        exact iff_of_false (fun hquotes ↦ hhead hquotes.head?) (not_isQuotedTwice_of_splitField hfield)
      · rename_i key value hfield
        split at h
        · rename_i s behind' hvalue
          obtain ⟨rfl, -⟩ := Pass.read.inj h
          rw [exists_mem_terms_termToken, isQuotedTwice_iff_of_splitField hhead hfield]
          obtain ⟨-, rfl⟩ := splitField_eq_some_iff.mp hfield
          have hmem : ∀ c ∈ value, c ∈ key ++ ':' :: value := fun c hc ↦
            List.mem_append_right _ (List.mem_cons_of_mem _ hc)
          exact inQuotes_iff_of_readValue (fun hc ↦ hback.1 (hmem _ hc)) hback.2
            (fun c hc ↦ hword c (hmem c hc)) hbehind hvalue
        · cases h

theorem head?_ofBracket (inner : List Char) :
    (Property.ofBracket inner).toList.head? = some '\x7b' := by
  have hpayload (name : String) (expression : Option String) :
      (Property.payload name expression).toList.head? = some '\x7b' := by
    rw [Property.payload.eq_def, CodeText.mended, String.toList_ofList, Json.compact, Json.compactCodes]
    rfl
  rw [Property.ofBracket]
  split
  · exact hpayload _ _
  · exact hpayload _ _

theorem inQuotes_iff_of_readToken (hback : '\\' ∉ cs) (h : readToken defaultKey neg cs = .read token rest) :
    (∃ t ∈ Token.terms token.toList, InQuotes t.value.toList) ↔ IsQuotedTwice (cs.takeWhile inWord) := by
  unfold readToken at h
  split at h
  · cases h
  · obtain ⟨rfl, -⟩ := Pass.read.inj h
    refine iff_of_false ?_ not_isQuotedTwice_nil
    rintro ⟨_, ht, _⟩
    cases ht
  · obtain ⟨rfl, -⟩ := Pass.read.inj h
    refine iff_of_false ?_ not_isQuotedTwice_nil
    rintro ⟨_, ht, _⟩
    cases ht
  · split at h
    · obtain ⟨rfl, -⟩ := Pass.read.inj h
      refine iff_of_false (fun ⟨t, ht, hquotes⟩ ↦ ?_) not_isQuotedTwice_nil
      rw [List.mem_singleton.mp ht] at hquotes
      exact absurd (Option.some.inj ((head?_ofBracket _).symm.trans hquotes.head?)) (by decide)
    · cases h
  · rename_i tail
    split at h
    · rename_i value behind hread
      obtain ⟨rfl, -⟩ := Pass.read.inj h
      have hfree := quote_notMem_of_readQuoted (fun hc ↦ hback (List.mem_cons_of_mem _ hc)) hread
      rw [exists_mem_terms_termToken]
      refine iff_of_false (fun hquotes ↦ hfree (List.mem_of_mem_head? hquotes.head?)) fun htwice ↦ ?_
      exact htwice.head?_ne (by rw [List.takeWhile_cons_of_pos (by decide)]; rfl)
    · cases h
  · rename_i hquote
    refine inQuotes_iff_of_readWord hback (fun hhead ↦ ?_) h
    obtain ⟨tail, rfl⟩ := List.head?_eq_some_iff.mp hhead
    exact hquote tail rfl

theorem lowercase_key_of_readToken (hkey : Text.lower defaultKey = defaultKey)
    (h : readToken defaultKey neg cs = .read token rest) :
    ∀ t ∈ Token.terms token.toList, Text.lowercase t.key = t.key := by
  intro t ht
  unfold readToken at h
  split at h
  · cases h
  · obtain ⟨rfl, -⟩ := Pass.read.inj h
    cases ht
  · obtain ⟨rfl, -⟩ := Pass.read.inj h
    cases ht
  · split at h
    · obtain ⟨rfl, -⟩ := Pass.read.inj h
      rw [List.mem_singleton.mp ht]
      exact @Text.lowercase_ofList_of_lower ['p', 'r', 'o', 'p'] (by decide +kernel)
    · cases h
  · split at h
    · obtain ⟨rfl, -⟩ := Pass.read.inj h
      rw [List.mem_singleton.mp ht]
      exact Text.lowercase_ofList_of_lower hkey
    · cases h
  · rw [readWord] at h
    split at h
    · obtain ⟨rfl, -⟩ := Pass.read.inj h
      cases ht
    · split at h
      · obtain ⟨rfl, -⟩ := Pass.read.inj h
        cases ht
      · split at h
        · obtain ⟨rfl, -⟩ := Pass.read.inj h
          rw [List.mem_singleton.mp ht]
          exact Text.lowercase_ofList_of_lower hkey
        · split at h
          · obtain ⟨rfl, -⟩ := Pass.read.inj h
            rw [List.mem_singleton.mp ht]
            exact Text.lowercase_ofList_of_lower (Text.lower_lower _)
          · cases h

/-! ## Passes and texts -/

theorem lowercase_key_of_pass (hkey : Text.lower defaultKey = defaultKey)
    (h : pass defaultKey cs = .read token rest) :
    ∀ t ∈ Token.terms token.toList, Text.lowercase t.key = t.key := by
  obtain ⟨neg, hneg⟩ := exists_pass_eq_readToken defaultKey cs
  exact lowercase_key_of_readToken hkey (hneg.symm.trans h)

theorem inQuotes_iff_of_pass (hback : '\\' ∉ cs) (h : pass defaultKey cs = .read token rest) :
    (∃ t ∈ Token.terms token.toList, InQuotes t.value.toList) ↔
      IsQuotedTwice ((front cs).takeWhile inWord) := by
  obtain ⟨neg, hneg⟩ := exists_pass_eq_readToken defaultKey cs
  exact inQuotes_iff_of_readToken (fun hc ↦ hback ((front_suffix cs).subset hc)) (hneg.symm.trans h)

end

theorem lowercase_key_of_tokens {defaultKey cs : List Char} {ts : List (Token Term)}
    (hkey : Text.lower defaultKey = defaultKey) (h : tokens defaultKey cs = .ok ts) :
    ∀ t ∈ Token.terms ts, Text.lowercase t.key = t.key := by
  induction cs using tokens.induct defaultKey generalizing ts with
  | case1 cs hdone =>
    obtain rfl := Except.ok.inj ((tokens_of_done hdone).symm.trans h)
    exact List.forall_mem_nil _
  | case2 cs span hopen => cases (tokens_of_open hopen).symm.trans h
  | case3 cs token rest hread ih =>
    rw [tokens_of_read hread] at h
    obtain ⟨ts', hrest, rfl⟩ := map_eq_ok h
    intro t ht
    rw [Token.terms_append, List.mem_append] at ht
    exact ht.elim (lowercase_key_of_pass hkey hread t) (ih hrest t)

theorem inQuotes_iff_of_tokens {defaultKey cs : List Char} {ts : List (Token Term)} (hback : '\\' ∉ cs)
    (h : tokens defaultKey cs = .ok ts) :
    (∃ t ∈ Token.terms ts, InQuotes t.value.toList) ↔
      ∃ word ∈ words defaultKey cs, IsQuotedTwice word := by
  induction cs using tokens.induct defaultKey generalizing ts with
  | case1 cs hdone =>
    obtain rfl := Except.ok.inj ((tokens_of_done hdone).symm.trans h)
    rw [words_of_done hdone]
    constructor
    · rintro ⟨_, ht, _⟩
      cases ht
    · rintro ⟨_, hword, _⟩
      cases hword
  | case2 cs span hopen => cases (tokens_of_open hopen).symm.trans h
  | case3 cs token rest hread ih =>
    rw [tokens_of_read hread] at h
    obtain ⟨ts', hrest, rfl⟩ := map_eq_ok h
    simp only [words_of_read hread, Token.terms_append, List.mem_append, List.mem_cons, or_and_right, exists_or,
      exists_eq_left]
    exact or_congr (inQuotes_iff_of_pass hback hread)
      (ih (fun hc ↦ hback ((suffix_of_pass hread).subset hc)) hrest)

end Scan

/-- **Shape of terms.** The keys of a query's terms are in lower case. In a query without backslashes no
operand keeps quotes around it, unless at some word the reader meets a field with a value in two pairs
of quotes: there the operand is what stands in the outer pair. -/
theorem shape_of_terms {text defaultKey : String} {ts : List (Token Term)}
    (hback : '\\' ∉ text.toList) (h : tokenize text defaultKey = .ok ts) :
    (∀ t ∈ Token.terms ts, Text.lowercase t.key = t.key) ∧
    ((∀ t ∈ Token.terms ts, ¬InQuotes t.value.toList) ↔
      ∀ word ∈ Scan.words (Text.lower defaultKey.toList) text.toList, ¬Scan.IsQuotedTwice word) := by
  have htokens := tokenize_eq_ok_iff.mp h
  refine ⟨Scan.lowercase_key_of_tokens (Text.lower_lower _) htokens, ?_⟩
  have hiff := not_congr (Scan.inQuotes_iff_of_tokens hback htokens)
  simpa only [not_exists, not_and] using hiff

/-- In `K:"a b"` the key is put in lower case and the operand taken out of its quotes. -/
theorem shape_of_terms_of_quoted_value :
    '\\' ∉ "K:\"a b\"".toList ∧
    tokenize "K:\"a b\"" "default" = .ok [.term ⟨"k", "a b", false⟩] ∧
    ∀ word ∈ Scan.words (Text.lower "default".toList) "K:\"a b\"".toList, ¬Scan.IsQuotedTwice word := by
  have hback : '\\' ∉ "K:\"a b\"".toList := by decide
  have htokens : tokenize "K:\"a b\"" "default" = .ok [.term ⟨"k", "a b", false⟩] := by cbv
  refine ⟨hback, htokens, (shape_of_terms hback htokens).2.mp ?_⟩
  intro t ht hquotes
  rw [List.mem_singleton.mp ht] at hquotes
  exact absurd hquotes.head? (by decide)

/-- In `k:""a""` the operand that is read is `"a"`, in quotes. -/
theorem not_forall_not_inQuotes :
    ¬∀ (text defaultKey : String) (ts : List (Token Term)), '\\' ∉ text.toList →
      tokenize text defaultKey = .ok ts →
      ∀ t ∈ Token.terms ts, Text.lowercase t.key = t.key ∧ ¬InQuotes t.value.toList := by
  intro h
  have htokens : tokenize "k:\"\"a\"\"" "default" = .ok [.term ⟨"k", "\"a\"", false⟩] := by cbv
  exact (h _ _ _ (by decide) htokens _ (List.mem_singleton_self _)).2 ⟨['a'], by decide⟩

end NoteQuery
