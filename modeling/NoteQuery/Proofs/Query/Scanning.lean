import NoteQuery.Proofs.Text.Trim
import NoteQuery.Query.Scan

/-!
# Steps of the reader

One equation for each step the readers take: a pass and the passes after it, a character inside a
phrase, a bracket or a quoted value, and the word at the front of a text. Statements about whole
texts go through these and open no reader.
-/

namespace NoteQuery.Scan

/-! ## Passes -/

theorem tokens_of_read {defaultKey cs rest : List Char} {token : Option (Token Term)}
    (h : pass defaultKey cs = .read token rest) :
    tokens defaultKey cs = (tokens defaultKey rest).map (token.toList ++ ·) := by
  fun_cases tokens defaultKey cs with
  | case1 hp => cases h.symm.trans hp
  | case2 span hp => cases h.symm.trans hp
  | case3 token' rest' hp =>
    cases h.symm.trans hp
    rfl

theorem tokens_of_done {defaultKey cs : List Char} (h : pass defaultKey cs = .done) :
    tokens defaultKey cs = .ok [] := by
  fun_cases tokens defaultKey cs with
  | case1 hp => rfl
  | case2 span hp => cases h.symm.trans hp
  | case3 token rest hp => cases h.symm.trans hp

theorem tokens_of_open {defaultKey cs : List Char} {span : OpenSpan}
    (h : pass defaultKey cs = .open span) : tokens defaultKey cs = .error span := by
  fun_cases tokens defaultKey cs with
  | case1 hp => cases h.symm.trans hp
  | case2 span' hp =>
    cases h.symm.trans hp
    rfl
  | case3 token rest hp => cases h.symm.trans hp

/-- The first pass decides how a text is read. -/
theorem tokens_congr {defaultKey cs cs' : List Char}
    (h : pass defaultKey cs = pass defaultKey cs') : tokens defaultKey cs = tokens defaultKey cs' := by
  match hp : pass defaultKey cs' with
  | .done => rw [tokens_of_done hp, tokens_of_done (h.trans hp)]
  | .open span => rw [tokens_of_open hp, tokens_of_open (h.trans hp)]
  | .read token rest => rw [tokens_of_read hp, tokens_of_read (h.trans hp)]

theorem tokens_nil (defaultKey : List Char) : tokens defaultKey [] = .ok [] := by
  rw [tokens]
  rfl

theorem pass_congr {cs cs' : List Char} (h : Text.trimStart cs = Text.trimStart cs')
    (defaultKey : List Char) : pass defaultKey cs = pass defaultKey cs' := by
  rw [pass, h, pass]

theorem pass_cons_of_blank {c : Char} (h : Text.isBlank c = true) (defaultKey cs : List Char) :
    pass defaultKey (c :: cs) = pass defaultKey cs :=
  pass_congr (Text.trimStart_cons_of_blank h cs) defaultKey

theorem pass_of_minus {cs tail : List Char} (h : Text.trimStart cs = '-' :: tail)
    (defaultKey : List Char) :
    pass defaultKey cs = readToken defaultKey true (Text.trimStart tail) := by
  rw [pass, h]
  rfl

theorem pass_of_not_minus {cs : List Char} (h : ∀ tail, Text.trimStart cs ≠ '-' :: tail)
    (defaultKey : List Char) :
    pass defaultKey cs = readToken defaultKey false (Text.trimStart cs) := by
  rw [pass]
  split
  · rename_i tail htail
    exact absurd htail (h tail)
  · rfl

theorem pass_cons {c : Char} (hblank : Text.isBlank c = false) (hminus : c ≠ '-')
    (defaultKey cs : List Char) :
    pass defaultKey (c :: cs) = readToken defaultKey false (c :: cs) := by
  have htrim := Text.trimStart_cons_of_not_blank hblank cs
  rw [pass_of_not_minus, htrim]
  rw [htrim]
  exact fun tail h ↦ hminus (List.cons.inj h).1

theorem pass_minus_cons {c : Char} (hblank : Text.isBlank c = false) (defaultKey cs : List Char) :
    pass defaultKey ('-' :: c :: cs) = readToken defaultKey true (c :: cs) := by
  rw [pass_of_minus (Text.trimStart_cons_of_not_blank (by decide) _),
    Text.trimStart_cons_of_not_blank hblank]

/-- What begins with none of the signs that open a token is read as a word. -/
theorem readToken_cons {c : Char} (h : c ∉ ['(', ')', '[', '"']) (defaultKey : List Char)
    (neg : Bool) (cs : List Char) :
    readToken defaultKey neg (c :: cs) = readWord defaultKey neg (c :: cs) := by
  simp only [List.mem_cons, List.not_mem_nil, or_false, not_or] at h
  obtain ⟨hopening, hclosing, hbracket, hquote⟩ := h
  unfold readToken
  split
  · rename_i h
    cases h
  · rename_i h
    exact absurd (List.cons.inj h).1 hopening
  · rename_i h
    exact absurd (List.cons.inj h).1 hclosing
  · rename_i h
    exact absurd (List.cons.inj h).1 hbracket
  · rename_i h
    exact absurd (List.cons.inj h).1 hquote
  · rfl

/-! ## Spans -/

theorem readQuoted_cons {c : Char} (hquote : c ≠ '"') (hback : c ≠ '\\') (cs : List Char) :
    readQuoted (c :: cs) = (readQuoted cs).map fun (s, after) ↦ (c :: s, after) := by
  rw [readQuoted, if_neg hback]
  · exact hquote
  · exact fun _ _ h _ ↦ hback h

theorem readBracket_cons {c : Char} (h : c ∉ ['"', '[', ']']) (left depth : Nat) (cs : List Char) :
    readBracket left depth (c :: cs)
      = (readBracket left depth cs).map fun (out, after) ↦ (c :: out, after) := by
  simp only [List.mem_cons, List.not_mem_nil, or_false, not_or] at h
  obtain ⟨hquote, hopening, hclosing⟩ := h
  rw [readBracket.eq_def]
  simp only [if_neg hquote, if_neg hopening, if_neg hclosing]

theorem readBracket_quote {cs s after : List Char} (h : readQuoted cs = some (s, after))
    (left depth : Nat) :
    readBracket left depth ('"' :: cs)
      = (readBracket left depth after).map fun (out, after) ↦ ('"' :: s ++ '"' :: out, after) := by
  rw [readBracket.eq_def]
  simp only [if_true]
  split
  · rename_i hnone
    cases hnone.symm.trans h
  · rename_i hsome
    cases hsome.symm.trans h
    rfl

theorem readBracket_opening (left depth : Nat) (cs : List Char) :
    readBracket left depth ('[' :: cs)
      = (readBracket left (depth + 1) cs).map fun (out, after) ↦ ('[' :: out, after) := by
  rw [readBracket.eq_def]
  rfl

theorem readBracket_closing_zero (left : Nat) (cs : List Char) :
    readBracket left 0 (']' :: cs) = .ok ([], cs) := by
  rw [readBracket]
  rfl

theorem readBracket_closing_succ (left depth : Nat) (cs : List Char) :
    readBracket left (depth + 1) (']' :: cs)
      = (readBracket left depth cs).map fun (out, after) ↦ (']' :: out, after) := by
  rw [readBracket]
  rfl

/-- A bracket without quotes and brackets inside is read up to its end. -/
theorem readBracket_append {cs : List Char} (h : ∀ c ∈ cs, c ∉ ['"', '[', ']']) (left : Nat)
    (rest : List Char) : readBracket left 0 (cs ++ ']' :: rest) = .ok (cs, rest) := by
  induction cs with
  | nil => exact readBracket_closing_zero left rest
  | cons c cs ih =>
    rw [List.cons_append, readBracket_cons (h c List.mem_cons_self),
      ih fun d hd ↦ h d (List.mem_cons_of_mem c hd)]
    rfl

theorem readSpanning_of_endsQuoted {value : List Char} (h : endsQuoted value = true)
    (cs : List Char) : readSpanning value cs = some (unescapeQuotes value.tail.reverse, cs) := by
  cases cs with
  | nil => rw [readSpanning, if_pos h]
  | cons c cs => rw [readSpanning, if_pos h]

theorem readSpanning_cons {value : List Char} (h : endsQuoted value = false) (c : Char)
    (cs : List Char) : readSpanning value (c :: cs) = readSpanning (c :: value) cs := by
  rw [readSpanning, if_neg (ne_true_of_eq_false h)]

/-! ## Words -/

theorem takeWhile_inWord_append {rest : List Char} (hrest : ∀ c ∈ rest.head?, inWord c = false)
    (cs : List Char) : (cs ++ rest).takeWhile inWord = cs.takeWhile inWord := by
  induction cs with
  | nil =>
    cases rest with
    | nil => rfl
    | cons c rest => exact List.takeWhile_cons_of_neg (ne_true_of_eq_false (hrest c rfl))
  | cons c cs ih =>
    rw [List.cons_append]
    by_cases hc : inWord c = true
    · rw [List.takeWhile_cons_of_pos hc, List.takeWhile_cons_of_pos hc, ih]
    · rw [List.takeWhile_cons_of_neg hc, List.takeWhile_cons_of_neg hc]

theorem dropWhile_inWord_append {rest : List Char} (hrest : ∀ c ∈ rest.head?, inWord c = false)
    (cs : List Char) : (cs ++ rest).dropWhile inWord = cs.dropWhile inWord ++ rest := by
  have hsplit : (cs ++ rest).takeWhile inWord ++ (cs ++ rest).dropWhile inWord
      = cs.takeWhile inWord ++ (cs.dropWhile inWord ++ rest) := by
    rw [List.takeWhile_append_dropWhile, ← List.append_assoc, List.takeWhile_append_dropWhile]
  rw [takeWhile_inWord_append hrest] at hsplit
  exact List.append_cancel_left hsplit

theorem splitField_eq_none {word : List Char} (h : ':' ∉ word.tail) : splitField word = none := by
  cases word with
  | nil => rfl
  | cons c word =>
    rw [splitField]
    by_cases hc : c = ':'
    · rw [hc]
      rfl
    · have hword : ∀ d ∈ c :: word, (d != ':') = true := by
        intro d hd
        rcases List.mem_cons.mp hd with rfl | hd
        · exact bne_iff_ne.mpr hc
        · exact bne_iff_ne.mpr fun he ↦ h (he ▸ hd)
      rw [← List.append_nil (c :: word), List.takeWhile_append_of_pos hword,
        List.dropWhile_append_of_pos hword]
      rfl

theorem splitField_append {key : List Char} (hne : key ≠ []) (hcolon : ':' ∉ key)
    (value : List Char) : splitField (key ++ ':' :: value) = some (key, value) := by
  have hkey : ∀ c ∈ key, (c != ':') = true := fun c hc ↦ bne_iff_ne.mpr fun he ↦ hcolon (he ▸ hc)
  rw [splitField, List.takeWhile_append_of_pos hkey, List.dropWhile_append_of_pos hkey]
  obtain ⟨c, key, rfl⟩ := List.exists_cons_of_ne_nil hne
  rw [List.takeWhile_cons_of_neg (by decide), List.dropWhile_cons_of_neg (by decide),
    List.append_nil]

theorem splitField_eq_some_iff {word key value : List Char} :
    splitField word = some (key, value) ↔ (key ≠ [] ∧ ':' ∉ key) ∧ word = key ++ ':' :: value := by
  constructor
  · intro h
    have hword := (List.takeWhile_append_dropWhile (p := (· != ':')) (l := word)).symm
    rw [splitField] at h
    split at h
    · rename_i c key' d value' hkey hvalue
      obtain ⟨rfl, rfl⟩ := Prod.mk.inj (Option.some.inj h)
      have hcolon : ':' ∉ word.takeWhile (· != ':') := fun hmem ↦
        absurd (List.mem_takeWhile_imp hmem) (by decide)
      have hd : d = ':' := by
        have hhead := List.head?_dropWhile_not (· != ':') word
        rw [hvalue] at hhead
        simpa using hhead
      rw [hkey] at hcolon
      rw [hkey, hvalue, hd] at hword
      exact ⟨⟨List.cons_ne_nil _ _, hcolon⟩, hword⟩
    · cases h
  · rintro ⟨⟨hne, hcolon⟩, rfl⟩
    exact splitField_append hne hcolon value

theorem stripOuterQuotes_eq_self {cs : List Char} (htrim : Text.trim cs = cs)
    (hquote : cs.head? ≠ some '"') : stripOuterQuotes cs = cs := by
  rw [stripOuterQuotes, htrim]
  cases cs with
  | nil => rfl
  | cons c cs =>
    split
    · rename_i h
      exact absurd (congrArg some (List.cons.inj h).1) hquote
    · rfl

theorem readValue_cons_quote {body rest : List Char} {found : List Char × List Char}
    (h : readSpanning body.reverse rest = some found) :
    readValue ('"' :: body) rest = .ok found := by
  rw [readValue, h]

theorem readWord_of_bare {word cs : List Char} {neg : Bool} (hne : word ≠ [])
    (hword : cs.takeWhile inWord = word) (hor : neg = false → Text.lower word ≠ ['o', 'r'])
    (hfield : splitField word = none) (defaultKey : List Char) :
    readWord defaultKey neg cs
      = .read (some (termToken defaultKey (stripOuterQuotes word) neg)) (cs.dropWhile inWord) := by
  rw [readWord, hword, if_neg (mt List.isEmpty_iff.mp hne), if_neg, hfield]
  rw [Bool.and_eq_true, Bool.not_eq_true', beq_iff_eq]
  exact fun ⟨hneg, hlower⟩ ↦ hor hneg hlower

theorem readWord_of_field {word key value cs v after : List Char} {neg : Bool} (hne : word ≠ [])
    (hword : cs.takeWhile inWord = word) (hor : neg = false → Text.lower word ≠ ['o', 'r'])
    (hfield : splitField word = some (key, value))
    (hvalue : readValue value (cs.dropWhile inWord) = .ok (v, after)) (defaultKey : List Char) :
    readWord defaultKey neg cs = .read (some (termToken (Text.lower key) v neg)) after := by
  rw [readWord, hword, if_neg (mt List.isEmpty_iff.mp hne), if_neg, hfield]
  · simp only [hvalue]
  · rw [Bool.and_eq_true, Bool.not_eq_true', beq_iff_eq]
    exact fun ⟨hneg, hlower⟩ ↦ hor hneg hlower

end NoteQuery.Scan
