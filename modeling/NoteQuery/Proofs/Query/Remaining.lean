import NoteQuery.Proofs.Query.Scanning

/-!
# What a reader takes and leaves

A reader takes characters from the front of a text and leaves the rest as it stands. So what holds of all
characters of a text, such as being no backslash, holds of all characters that a later pass sees.

What a reader has taken it takes in the same way whatever it leaves. Spans end at a sign of their own, so any
text may stand behind them. A word ends where something follows that belongs to no word, so the text behind it
has to begin as what is left does, or with a blank, unless it is empty (`BeginsLike`). That is the case when a
text goes on behind a blank, and when it breaks off anywhere behind what has been read.
-/

namespace NoteQuery.Scan

/-! ## Spans -/

theorem exists_taken_of_readQuoted {cs s rest : List Char} (h : readQuoted cs = some (s, rest)) :
    ∃ taken, cs = taken ++ rest ∧ ∀ more, readQuoted (taken ++ more) = some (s, more) := by
  fun_induction readQuoted cs generalizing s rest with
  | case1 => cases h
  | case2 tail =>
    obtain ⟨rfl, rfl⟩ := Prod.mk.inj (Option.some.inj h)
    exact ⟨['"'], rfl, fun more ↦ by rw [List.singleton_append, readQuoted]⟩
  | case3 c tail ih =>
    obtain ⟨⟨out, after⟩, hread, hout⟩ := Option.map_eq_some_iff.mp h
    obtain ⟨rfl, rfl⟩ := Prod.mk.inj hout
    obtain ⟨taken, rfl, htaken⟩ := ih hread
    refine ⟨'\\' :: c :: taken, rfl, fun more ↦ ?_⟩
    rw [List.cons_append, List.cons_append, readQuoted, htaken]
    rfl
  | case4 => cases h
  | case5 c tail hquote _ hback ih =>
    obtain ⟨⟨out, after⟩, hread, hout⟩ := Option.map_eq_some_iff.mp h
    obtain ⟨rfl, rfl⟩ := Prod.mk.inj hout
    obtain ⟨taken, rfl, htaken⟩ := ih hread
    refine ⟨c :: taken, rfl, fun more ↦ ?_⟩
    rw [List.cons_append, readQuoted_cons hquote hback, htaken]
    rfl

theorem exists_taken_of_readBracket {left depth : Nat} {cs s rest : List Char}
    (h : readBracket left depth cs = .ok (s, rest)) :
    ∃ taken, cs = taken ++ rest ∧
      ∀ left' more, readBracket left' depth (taken ++ more) = .ok (s, more) := by
  fun_induction readBracket left depth cs generalizing s rest with
  | case1 => cases h
  | case2 => cases h
  | case3 depth tail value behind hquoted ih =>
    obtain ⟨⟨out, after⟩, hread, hout⟩ := map_eq_ok h
    obtain ⟨rfl, rfl⟩ := Prod.mk.inj hout
    obtain ⟨phrase, rfl, hphrase⟩ := exists_taken_of_readQuoted hquoted
    obtain ⟨taken, rfl, htaken⟩ := ih hread
    refine ⟨'"' :: (phrase ++ taken), by simp, fun left' more ↦ ?_⟩
    rw [List.cons_append, List.append_assoc, readBracket_quote (hphrase (taken ++ more)), htaken]
    rfl
  | case4 depth tail _ ih =>
    obtain ⟨⟨out, after⟩, hread, hout⟩ := map_eq_ok h
    obtain ⟨rfl, rfl⟩ := Prod.mk.inj hout
    obtain ⟨taken, rfl, htaken⟩ := ih hread
    refine ⟨'[' :: taken, rfl, fun left' more ↦ ?_⟩
    rw [List.cons_append, readBracket_opening, htaken]
    rfl
  | case5 tail =>
    obtain ⟨rfl, rfl⟩ := Prod.mk.inj (Except.ok.inj h)
    exact ⟨[']'], rfl, readBracket_closing_zero⟩
  | case6 tail depth _ _ ih =>
    obtain ⟨⟨out, after⟩, hread, hout⟩ := map_eq_ok h
    obtain ⟨rfl, rfl⟩ := Prod.mk.inj hout
    obtain ⟨taken, rfl, htaken⟩ := ih hread
    refine ⟨']' :: taken, rfl, fun left' more ↦ ?_⟩
    rw [List.cons_append, readBracket_closing_succ, htaken]
    rfl
  | case7 depth c tail hquote hopening hclosing ih =>
    obtain ⟨⟨out, after⟩, hread, hout⟩ := map_eq_ok h
    obtain ⟨rfl, rfl⟩ := Prod.mk.inj hout
    obtain ⟨taken, rfl, htaken⟩ := ih hread
    refine ⟨c :: taken, rfl, fun left' more ↦ ?_⟩
    rw [List.cons_append, readBracket_cons (by simp [hquote, hopening, hclosing]), htaken]
    rfl

theorem exists_taken_of_readSpanning {value cs s rest : List Char}
    (h : readSpanning value cs = some (s, rest)) :
    ∃ taken, cs = taken ++ rest ∧ ∀ more, readSpanning value (taken ++ more) = some (s, more) := by
  fun_induction readSpanning value cs with
  | case1 value hends =>
    obtain ⟨rfl, rfl⟩ := Prod.mk.inj (Option.some.inj h)
    exact ⟨[], rfl, readSpanning_of_endsQuoted hends⟩
  | case2 => cases h
  | case3 value c tail hends =>
    obtain ⟨rfl, rfl⟩ := Prod.mk.inj (Option.some.inj h)
    exact ⟨[], rfl, readSpanning_of_endsQuoted hends⟩
  | case4 value c tail hends ih =>
    obtain ⟨taken, rfl, htaken⟩ := ih h
    refine ⟨c :: taken, rfl, fun more ↦ ?_⟩
    rw [List.cons_append, readSpanning_cons (Bool.eq_false_iff.mpr hends), htaken]

/-! ## Words -/

/-- Whether a text begins as another one does, or with a blank, if it begins at all. -/
def BeginsLike (rest more : List Char) : Prop := ∀ c ∈ more.head?, c ∈ rest.head? ∨ Text.isBlank c = true

namespace BeginsLike

variable {rest more : List Char}

theorem of_beginning (h : more <+: rest) : BeginsLike rest more := by
  intro c hc
  obtain ⟨tail, rfl⟩ := List.head?_eq_some_iff.mp hc
  obtain ⟨behind, rfl⟩ := h
  exact .inl rfl

theorem append_left (h : BeginsLike rest more) (taken : List Char) :
    BeginsLike (taken ++ rest) (taken ++ more) := by
  cases taken with
  | nil => exact h
  | cons c taken => exact fun d hd ↦ .inl hd

/-- A text begins like itself with more behind it, if this begins with a blank. -/
theorem self_append (hmore : ∀ c ∈ more.head?, Text.isBlank c = true) (rest : List Char) :
    BeginsLike rest (rest ++ more) := by
  cases rest with
  | nil => exact fun c hc ↦ .inr (hmore c hc)
  | cons d rest => exact fun c hc ↦ .inl hc

theorem inWord_eq_false (h : BeginsLike rest more) (hrest : ∀ c ∈ rest.head?, inWord c = false) :
    ∀ c ∈ more.head?, inWord c = false := by
  intro c hc
  rcases h c hc with hhead | hblank
  · exact hrest c hhead
  · rw [inWord, hblank]
    rfl

end BeginsLike

theorem exists_taken_of_readValue {value cs s rest : List Char} (h : readValue value cs = .ok (s, rest)) :
    ∃ taken, cs = taken ++ rest ∧
      ∀ more, BeginsLike rest more → readValue value (taken ++ more) = .ok (s, more) := by
  unfold readValue at h
  split at h
  · split at h
    · rename_i hread
      rw [Except.ok.inj h] at hread
      obtain ⟨taken, rfl, htaken⟩ := exists_taken_of_readQuoted hread
      refine ⟨'"' :: taken, rfl, fun more _ ↦ ?_⟩
      rw [List.cons_append, readValue, htaken]
    · cases h
  · split at h
    · rename_i hread
      rw [Except.ok.inj h] at hread
      obtain ⟨taken, rfl, htaken⟩ := exists_taken_of_readSpanning hread
      exact ⟨taken, rfl, fun more _ ↦ readValue_cons_quote (htaken more)⟩
    · cases h
  · rename_i hphrase hquote
    obtain ⟨rfl, rfl⟩ := Prod.mk.inj (Except.ok.inj h)
    -- no quote stands behind an empty value
    refine ⟨[], rfl, fun more hmore ↦ readValue.eq_3 value more hphrase fun after hvalue hafter ↦ ?_⟩
    rcases hmore '"' (by rw [hafter]; rfl) with hhead | hblank
    · obtain ⟨tail, rfl⟩ := List.head?_eq_some_iff.mp hhead
      exact hquote tail hvalue rfl
    · exact absurd hblank (by decide)

theorem head?_dropWhile_inWord (cs : List Char) : ∀ c ∈ (cs.dropWhile inWord).head?, inWord c = false := by
  intro c hc
  have hhead := List.head?_dropWhile_not inWord cs
  rw [Option.mem_def.mp hc] at hhead
  exact hhead

variable {defaultKey cs rest : List Char} {neg : Bool} {token : Option (Token Term)}

theorem exists_taken_of_readWord (hne : cs ≠ []) (h : readWord defaultKey neg cs = .read token rest) :
    ∃ taken, cs = taken ++ rest ∧
      ∀ more, BeginsLike rest more → readWord defaultKey neg (taken ++ more) = .read token more := by
  have hsplit : cs.takeWhile inWord ++ cs.dropWhile inWord = cs := List.takeWhile_append_dropWhile
  have hword : ∀ c ∈ cs.takeWhile inWord, inWord c = true := fun c hc ↦ List.mem_takeWhile_imp hc
  have hbehind := head?_dropWhile_inWord cs
  rw [readWord] at h
  generalize cs.takeWhile inWord = word at h hsplit hword
  generalize cs.dropWhile inWord = behind at h hsplit hbehind
  -- the word is the same before anything that belongs to no word
  have hsame {more : List Char} (hmore : ∀ c ∈ more.head?, inWord c = false) :
      (word ++ more).takeWhile inWord = word ∧ (word ++ more).dropWhile inWord = more := by
    rw [takeWhile_inWord_append hmore, dropWhile_inWord_append hmore,
      List.takeWhile_eq_self_iff.mpr hword, List.dropWhile_eq_nil_iff.mpr hword]
    exact ⟨rfl, rfl⟩
  split at h
  · rename_i hempty
    obtain ⟨rfl, rfl⟩ := Pass.read.inj h
    obtain ⟨c, tail, rfl⟩ := List.exists_cons_of_ne_nil hne
    rw [List.isEmpty_iff.mp hempty, List.nil_append] at hsplit
    have hc : inWord c = false := hbehind c (by rw [hsplit]; rfl)
    refine ⟨[c], rfl, fun more _ ↦ ?_⟩
    rw [List.singleton_append, readWord, List.takeWhile_cons_of_neg (ne_true_of_eq_false hc)]
    rfl
  · rename_i hempty
    split at h
    · rename_i hor
      obtain ⟨rfl, rfl⟩ := Pass.read.inj h
      refine ⟨word, hsplit.symm, fun more hmore ↦ ?_⟩
      obtain ⟨htake, hdrop⟩ := hsame (hmore.inWord_eq_false hbehind)
      rw [readWord, htake, hdrop, if_neg hempty, if_pos hor]
    · rename_i hor
      split at h
      · rename_i hfield
        obtain ⟨rfl, rfl⟩ := Pass.read.inj h
        refine ⟨word, hsplit.symm, fun more hmore ↦ ?_⟩
        obtain ⟨htake, hdrop⟩ := hsame (hmore.inWord_eq_false hbehind)
        rw [readWord, htake, hdrop, if_neg hempty, if_neg hor, hfield]
      · rename_i hfield
        split at h
        · rename_i hvalue
          obtain ⟨rfl, rfl⟩ := Pass.read.inj h
          obtain ⟨taken, rfl, htaken⟩ := exists_taken_of_readValue hvalue
          refine ⟨word ++ taken, by rw [← hsplit, List.append_assoc], fun more hmore ↦ ?_⟩
          obtain ⟨htake, hdrop⟩ := hsame ((hmore.append_left taken).inWord_eq_false hbehind)
          rw [List.append_assoc, readWord, htake, hdrop, if_neg hempty, if_neg hor, hfield]
          simp only [htaken more hmore]
        · cases h

theorem exists_taken_of_readToken (h : readToken defaultKey neg cs = .read token rest) :
    ∃ taken, cs = taken ++ rest ∧
      ∀ more, BeginsLike rest more → readToken defaultKey neg (taken ++ more) = .read token more := by
  unfold readToken at h
  split at h
  · cases h
  · obtain ⟨rfl, rfl⟩ := Pass.read.inj h
    exact ⟨['('], rfl, fun more _ ↦ rfl⟩
  · obtain ⟨rfl, rfl⟩ := Pass.read.inj h
    exact ⟨[')'], rfl, fun more _ ↦ rfl⟩
  · split at h
    · rename_i hread
      obtain ⟨rfl, rfl⟩ := Pass.read.inj h
      obtain ⟨taken, rfl, htaken⟩ := exists_taken_of_readBracket hread
      exact ⟨'[' :: taken, rfl, fun more _ ↦ by rw [List.cons_append, readToken, htaken]⟩
    · cases h
  · split at h
    · rename_i hread
      obtain ⟨rfl, rfl⟩ := Pass.read.inj h
      obtain ⟨taken, rfl, htaken⟩ := exists_taken_of_readQuoted hread
      exact ⟨'"' :: taken, rfl, fun more _ ↦ by rw [List.cons_append, readToken, htaken]⟩
    · cases h
  · rename_i hnil hopening hclosing hbracket hquote
    have hlt := length_lt_of_readWord hnil h
    obtain ⟨taken, rfl, htaken⟩ := exists_taken_of_readWord hnil h
    cases taken with
    | nil => exact absurd hlt (Nat.lt_irrefl _)
    | cons c taken =>
      have hc : c ∉ ['(', ')', '[', '"'] := by
        simp only [List.mem_cons, List.not_mem_nil, or_false, not_or]
        exact ⟨fun hc ↦ hopening _ (by rw [hc]; rfl), fun hc ↦ hclosing _ (by rw [hc]; rfl),
          fun hc ↦ hbracket _ (by rw [hc]; rfl), fun hc ↦ hquote _ (by rw [hc]; rfl)⟩
      refine ⟨c :: taken, rfl, fun more hmore ↦ ?_⟩
      rw [List.cons_append, readToken_cons hc, ← List.cons_append]
      exact htaken more hmore

/-! ## Passes -/

/-- What a pass takes its token from: the text behind the blanks, and behind a minus sign and the blanks
after it. -/
def front (cs : List Char) : List Char :=
  match Text.trimStart cs with
  | '-' :: rest => Text.trimStart rest
  | cs => cs

/-- Whether a text can stand where a pass looks for a token, behind a minus sign or behind none. -/
def StandsInFront (neg : Bool) (cs : List Char) : Prop :=
  ∀ c ∈ cs.head?, Text.isBlank c = false ∧ (c = '-' → neg = true)

theorem StandsInFront.trimStart_eq (h : StandsInFront neg cs) : Text.trimStart cs = cs :=
  Text.trimStart_eq_self_iff.mpr fun c hc ↦ (h c hc).1

/-- What stands before its front in a text is skipped, whatever else stands there. -/
theorem exists_lead (cs : List Char) :
    ∃ lead neg, cs = lead ++ front cs ∧ StandsInFront neg (front cs) ∧
      ∀ defaultKey more, StandsInFront neg more →
        pass defaultKey (lead ++ more) = readToken defaultKey neg more := by
  have hblanks (cs : List Char) : ∀ c ∈ cs.takeWhile Text.isBlank, Text.isBlank c = true := fun c hc ↦
    List.mem_takeWhile_imp hc
  have hhead (cs : List Char) : ∀ c ∈ (Text.trimStart cs).head?, Text.isBlank c = false :=
    Text.trimStart_eq_self_iff.mp (Text.trimStart_trimStart cs)
  have hsplit (cs : List Char) : cs = cs.takeWhile Text.isBlank ++ Text.trimStart cs :=
    List.takeWhile_append_dropWhile.symm
  by_cases hminus : ∃ tail, Text.trimStart cs = '-' :: tail
  · obtain ⟨tail, htail⟩ := hminus
    have hfront : front cs = Text.trimStart tail := by
      rw [front, htail]
      rfl
    refine ⟨cs.takeWhile Text.isBlank ++ '-' :: tail.takeWhile Text.isBlank, true, ?_, ?_, ?_⟩
    · rw [hfront, List.append_assoc, List.cons_append, ← hsplit tail, ← htail]
      exact hsplit cs
    · rw [hfront]
      exact fun c hc ↦ ⟨hhead tail c hc, fun _ ↦ rfl⟩
    · intro defaultKey more hmore
      rw [List.append_assoc, List.cons_append, pass_of_minus, Text.trimStart_append_of_forall_blank (hblanks tail),
        hmore.trimStart_eq]
      rw [Text.trimStart_append_of_forall_blank (hblanks cs), Text.trimStart_cons_of_not_blank (by decide)]
  · have hfront : front cs = Text.trimStart cs := by
      rw [front]
      split
      · rename_i tail htail
        exact absurd ⟨tail, htail⟩ hminus
      · rfl
    refine ⟨cs.takeWhile Text.isBlank, false, ?_, ?_, ?_⟩
    · rw [hfront]
      exact hsplit cs
    · rw [hfront]
      refine fun c hc ↦ ⟨hhead cs c hc, ?_⟩
      rintro rfl
      exact absurd (List.head?_eq_some_iff.mp hc) hminus
    · intro defaultKey more hmore
      have htrim : Text.trimStart (cs.takeWhile Text.isBlank ++ more) = more := by
        rw [Text.trimStart_append_of_forall_blank (hblanks cs), hmore.trimStart_eq]
      rw [pass_of_not_minus, htrim]
      rintro tail htail
      rw [htrim] at htail
      exact absurd ((hmore '-' (by rw [htail]; rfl)).2 rfl) Bool.false_ne_true

theorem exists_pass_eq_readToken (defaultKey cs : List Char) :
    ∃ neg, pass defaultKey cs = readToken defaultKey neg (front cs) := by
  obtain ⟨lead, neg, hcs, hfront, hpass⟩ := exists_lead cs
  refine ⟨neg, ?_⟩
  rw [← hpass defaultKey (front cs) hfront, ← hcs]

theorem front_suffix (cs : List Char) : front cs <:+ cs := by
  obtain ⟨lead, -, hcs, -⟩ := exists_lead cs
  exact ⟨lead, hcs.symm⟩

/-- **Passes.** A pass takes the front of a text, and would take it from every text that goes on alike. -/
theorem exists_taken_of_pass (h : pass defaultKey cs = .read token rest) :
    ∃ taken, cs = taken ++ rest ∧
      ∀ more, BeginsLike rest more → pass defaultKey (taken ++ more) = .read token more := by
  obtain ⟨lead, neg, hcs, hfront, hpass⟩ := exists_lead cs
  have hread : readToken defaultKey neg (front cs) = .read token rest := by
    rw [← hpass defaultKey (front cs) hfront, ← hcs, h]
  have hlt := length_lt_of_readToken hread
  obtain ⟨taken, htext, htaken⟩ := exists_taken_of_readToken hread
  rw [htext] at hfront hlt
  refine ⟨lead ++ taken, by rw [List.append_assoc, ← htext]; exact hcs, fun more hmore ↦ ?_⟩
  -- something has been taken, and it is what the token begins with
  have hfront' : StandsInFront neg (taken ++ more) := by
    cases taken with
    | nil => exact absurd hlt (Nat.lt_irrefl _)
    | cons c taken => exact hfront
  rw [List.append_assoc, hpass defaultKey _ hfront', htaken more hmore]

theorem suffix_of_pass (h : pass defaultKey cs = .read token rest) : rest <:+ cs := by
  obtain ⟨taken, rfl, -⟩ := exists_taken_of_pass h
  exact List.suffix_append taken rest

end NoteQuery.Scan
