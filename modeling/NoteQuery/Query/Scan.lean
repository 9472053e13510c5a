import NoteQuery.Query.Property
import NoteQuery.Query.Term
import NoteQuery.Text.Case

/-!
# Reading a query into tokens

The text of a query is read once, from left to right. Each pass of the reader skips blanks and perhaps a
minus sign, looks at one character and takes a parenthesis, a property filter, a phrase or a word.

Readers take what is left of the text and give back what they read with what is left after it. A span
that never closes is reported by the number of characters from its opening to the end of the text, which
does not depend on what stands before; `tokenize` turns that into a position.
-/

namespace NoteQuery

/-- A quoted or bracketed span that never closes, with the number of characters from its opening to the
end of the text. -/
inductive OpenSpan
  /-- A quote. -/
  | quote (left : Nat)
  /-- A square bracket. -/
  | bracket (left : Nat)
deriving Repr, DecidableEq

/-- The fault that an open span is in a text of `total` characters. -/
def OpenSpan.toFault (total : Nat) : OpenSpan → QueryFault
  | quote left => .openQuote (total - left)
  | bracket left => .openBracket (total - left)

namespace Scan

/-! ## Spans -/

/-- A phrase after its opening quote, and what follows the closing one. A backslash takes the next
character as it is. -/
def readQuoted : List Char → Option (List Char × List Char)
  | [] => none
  | '"' :: rest => some ([], rest)
  | '\\' :: c :: rest => (readQuoted rest).map fun (s, after) ↦ (c :: s, after)
  | c :: rest => if c = '\\' then none else (readQuoted rest).map fun (s, after) ↦ (c :: s, after)

theorem length_lt_of_readQuoted {cs s rest : List Char} (h : readQuoted cs = some (s, rest)) :
    rest.length < cs.length := by
  fun_induction readQuoted cs generalizing s rest with
  | case1 => simp at h
  | case2 tail =>
    simp only [Option.some.injEq, Prod.mk.injEq] at h
    simp [h.2]
  | case3 c tail ih =>
    simp only [Option.map_eq_some_iff, Prod.mk.injEq, Prod.exists] at h
    obtain ⟨t, r, hr, _, rfl⟩ := h
    have := ih hr
    simp only [List.length_cons]
    omega
  | case4 => simp at h
  | case5 c tail _ _ _ ih =>
    simp only [Option.map_eq_some_iff, Prod.mk.injEq, Prod.exists] at h
    obtain ⟨t, r, hr, _, rfl⟩ := h
    have := ih hr
    simp only [List.length_cons]
    omega

/-- The text of a property filter after its opening bracket, `depth` further brackets being open inside
it, and what follows the closing one. Quoted spans are read as phrases and put back in quotes. `left`
counts the characters from the opening bracket to the end of the text. -/
def readBracket (left depth : Nat) (cs : List Char) : Except OpenSpan (List Char × List Char) :=
  match cs with
  | [] => .error (.bracket left)
  | c :: rest =>
    if c = '"' then
      match _h : readQuoted rest with
      | none => .error (.quote (rest.length + 1))
      | some (s, after) =>
        (readBracket left depth after).map fun (out, after) ↦ ('"' :: s ++ '"' :: out, after)
    else if c = '[' then (readBracket left (depth + 1) rest).map fun (out, after) ↦ (c :: out, after)
    else if c = ']' then
      match depth with
      | 0 => .ok ([], rest)
      | depth + 1 => (readBracket left depth rest).map fun (out, after) ↦ (c :: out, after)
    else (readBracket left depth rest).map fun (out, after) ↦ (c :: out, after)
termination_by cs.length
decreasing_by
  · have := length_lt_of_readQuoted _h
    simp only [List.length_cons]
    omega
  all_goals simp

theorem map_eq_ok {ε α β : Type} {f : α → β} {x : Except ε α} {b : β} (h : x.map f = .ok b) :
    ∃ a, x = .ok a ∧ f a = b := by
  cases x with
  | error e => simp [Except.map] at h
  | ok a => exact ⟨a, rfl, by simpa [Except.map] using h⟩

theorem length_lt_of_readBracket {left depth : Nat} {cs s rest : List Char}
    (h : readBracket left depth cs = .ok (s, rest)) : rest.length < cs.length := by
  fun_induction readBracket left depth cs generalizing s rest
  case case1 => simp at h
  case case2 => simp at h
  case case5 =>
    simp only [Except.ok.injEq, Prod.mk.injEq] at h
    simp [h.2]
  case case3 hq ih =>
    obtain ⟨⟨out, r⟩, hr, he⟩ := map_eq_ok h
    obtain ⟨_, rfl⟩ := Prod.mk.inj he
    have := ih hr
    have := length_lt_of_readQuoted hq
    simp only [List.length_cons]
    omega
  all_goals
    rename_i ih
    obtain ⟨⟨out, r⟩, hr, he⟩ := map_eq_ok h
    obtain ⟨_, rfl⟩ := Prod.mk.inj he
    have := ih hr
    simp only [List.length_cons]
    omega

/-! ## Words -/

/-- Whether a character belongs to a word: neither a blank nor a bracket of either kind. -/
def inWord (c : Char) : Bool := !(Text.isBlank c || c == '(' || c == ')' || c == '[' || c == ']')

/-- The text with every escaped quote as a quote. -/
def unescapeQuotes : List Char → List Char
  | '\\' :: '"' :: rest => '"' :: unescapeQuotes rest
  | c :: rest => c :: unescapeQuotes rest
  | [] => []

/-- A text without blanks around it and without the quotes that then enclose it. -/
def stripOuterQuotes (cs : List Char) : List Char :=
  match Text.trim cs with
  | '"' :: rest =>
    if rest.getLast?.getD '"' = '"' then unescapeQuotes rest.dropLast else '"' :: rest
  | value => value

/-- Whether a text, last character first, ends in a quote that no odd run of backslashes precedes. -/
def endsQuoted : List Char → Bool
  | '"' :: before => (before.takeWhile (· == '\\')).length % 2 == 0
  | _ => false

/-- Carries a quoted value on until it ends in a quote that is not escaped. `value` is what has been read
of it, last character first. -/
def readSpanning (value : List Char) : List Char → Option (List Char × List Char)
  | [] => if endsQuoted value then some (unescapeQuotes value.tail.reverse, []) else none
  | c :: rest =>
    if endsQuoted value then some (unescapeQuotes value.tail.reverse, c :: rest)
    else readSpanning (c :: value) rest

theorem length_le_of_readSpanning {value cs s rest : List Char}
    (h : readSpanning value cs = some (s, rest)) : rest.length ≤ cs.length := by
  fun_induction readSpanning value cs with
  | case1 =>
    simp only [Option.some.injEq, Prod.mk.injEq] at h
    simp [← h.2]
  | case2 => simp at h
  | case3 =>
    simp only [Option.some.injEq, Prod.mk.injEq] at h
    simp [← h.2]
  | case4 _ _ _ _ ih =>
    have := ih h
    simp only [List.length_cons]
    omega

/-- The part before the first colon and the part after it, if there is a colon after at least one
character. -/
def splitField (word : List Char) : Option (List Char × List Char) :=
  match word.takeWhile (· != ':'), word.dropWhile (· != ':') with
  | c :: key, _ :: value => some (c :: key, value)
  | _, _ => none

/-! ## Passes -/

/-- What one pass of the reader comes to. -/
inductive Pass
  /-- Nothing is left, or only a minus sign. -/
  | done
  /-- A span that never closes. -/
  | open (span : OpenSpan)
  /-- A token, or nothing for a stray closing bracket, with what is left after it. -/
  | read (token : Option (Token Term)) (rest : List Char)

/-- A term token. -/
def termToken (key value : List Char) (neg : Bool) : Token Term :=
  .term ⟨String.ofList key, String.ofList value, neg⟩

/-- The value of a field, of which `value` stands in the same word and `rest` follows the word. A value
that begins with a quote runs on to the closing one. -/
def readValue (value rest : List Char) : Except OpenSpan (List Char × List Char) :=
  match value, rest with
  | [], '"' :: after =>
    match readQuoted after with
    | some found => .ok found
    | none => .error (.quote rest.length)
  | '"' :: body, _ =>
    match readSpanning body.reverse rest with
    | some found => .ok found
    | none => .error (.quote (value.length + rest.length))
  | _, _ => .ok (stripOuterQuotes value, rest)

/-- A word at the front of a text: the word `OR`, a bare word or a field with its value. -/
def readWord (defaultKey : List Char) (neg : Bool) (cs : List Char) : Pass :=
  let word := cs.takeWhile inWord
  let rest := cs.dropWhile inWord
  if word.isEmpty then .read none cs.tail
  else if !neg && Text.lower word == ['o', 'r'] then .read (some .or) rest
  else
    match splitField word with
    | none => .read (some (termToken defaultKey (stripOuterQuotes word) neg)) rest
    | some (key, value) =>
      match readValue value rest with
      | .ok (value, rest) => .read (some (termToken (Text.lower key) value neg)) rest
      | .error span => .open span

/-- The token at the front of a text that begins with no blank. A negation before a parenthesis is
dropped. -/
def readToken (defaultKey : List Char) (neg : Bool) (cs : List Char) : Pass :=
  match cs with
  | [] => .done
  | '(' :: rest => .read (some .opening) rest
  | ')' :: rest => .read (some .closing) rest
  | '[' :: rest =>
    match readBracket (rest.length + 1) 0 rest with
    | .ok (inner, rest) =>
      .read (some (.term ⟨"prop", Property.ofBracket (Text.trim inner), neg⟩)) rest
    | .error span => .open span
  | '"' :: rest =>
    match readQuoted rest with
    | some (value, rest) => .read (some (termToken defaultKey value neg)) rest
    | none => .open (.quote (rest.length + 1))
  | cs => readWord defaultKey neg cs

/-- One pass: blanks, perhaps a minus sign and more blanks, then a token. -/
def pass (defaultKey : List Char) (cs : List Char) : Pass :=
  match Text.trimStart cs with
  | '-' :: rest => readToken defaultKey true (Text.trimStart rest)
  | cs => readToken defaultKey false cs

/-! ## Every pass moves on -/

theorem length_trimStart_le (cs : List Char) : (Text.trimStart cs).length ≤ cs.length :=
  (List.dropWhile_sublist _).length_le

theorem length_le_of_readValue {value cs s rest : List Char}
    (h : readValue value cs = .ok (s, rest)) : rest.length ≤ cs.length := by
  unfold readValue at h
  split at h
  · split at h
    · rename_i found hq
      obtain ⟨s', r'⟩ := found
      obtain ⟨_, rfl⟩ := Prod.mk.inj (Except.ok.inj h)
      have := length_lt_of_readQuoted hq
      simp only [List.length_cons]
      omega
    · simp at h
  · split at h
    · rename_i found hq
      obtain ⟨s', r'⟩ := found
      obtain ⟨_, rfl⟩ := Prod.mk.inj (Except.ok.inj h)
      exact length_le_of_readSpanning hq
    · simp at h
  · obtain ⟨_, rfl⟩ := Prod.mk.inj (Except.ok.inj h)
    exact Nat.le_refl _

theorem length_lt_of_readWord {defaultKey cs rest : List Char} {neg : Bool}
    {token : Option (Token Term)} (hcs : cs ≠ []) (h : readWord defaultKey neg cs = .read token rest) :
    rest.length < cs.length := by
  have hspan : (cs.takeWhile inWord).length + (cs.dropWhile inWord).length = cs.length := by
    rw [← List.length_append, List.takeWhile_append_dropWhile]
  have hpos : 0 < cs.length := List.length_pos_iff.2 hcs
  unfold readWord at h
  generalize cs.takeWhile inWord = word at h hspan
  generalize cs.dropWhile inWord = tail at h hspan
  simp only at h
  split at h
  · obtain ⟨_, rfl⟩ := Pass.read.inj h
    simp only [List.length_tail]
    omega
  · rename_i hne
    have hword : 0 < word.length := by
      rw [List.length_pos_iff]
      simpa using hne
    split at h
    · obtain ⟨_, rfl⟩ := Pass.read.inj h
      omega
    · split at h
      · obtain ⟨_, rfl⟩ := Pass.read.inj h
        omega
      · split at h
        · rename_i hv
          obtain ⟨_, rfl⟩ := Pass.read.inj h
          have := length_le_of_readValue hv
          omega
        · simp at h

theorem length_lt_of_readToken {defaultKey cs rest : List Char} {neg : Bool}
    {token : Option (Token Term)} (h : readToken defaultKey neg cs = .read token rest) :
    rest.length < cs.length := by
  unfold readToken at h
  split at h
  · simp at h
  · obtain ⟨_, rfl⟩ := Pass.read.inj h
    simp
  · obtain ⟨_, rfl⟩ := Pass.read.inj h
    simp
  · split at h
    · rename_i hb
      obtain ⟨_, rfl⟩ := Pass.read.inj h
      have := length_lt_of_readBracket hb
      simp only [List.length_cons]
      omega
    · simp at h
  · split at h
    · rename_i hq
      obtain ⟨_, rfl⟩ := Pass.read.inj h
      have := length_lt_of_readQuoted hq
      simp only [List.length_cons]
      omega
    · simp at h
  · rename_i hnil _ _ _ _
    exact length_lt_of_readWord hnil h

theorem length_lt_of_pass {defaultKey cs rest : List Char} {token : Option (Token Term)}
    (h : pass defaultKey cs = .read token rest) : rest.length < cs.length := by
  have hle := length_trimStart_le cs
  unfold pass at h
  split at h
  · rename_i tail ht
    have := length_lt_of_readToken h
    have := length_trimStart_le tail
    rw [ht, List.length_cons] at hle
    omega
  · have := length_lt_of_readToken h
    omega

/-! ## The whole text -/

/-- The tokens of a text, bare words and phrases being terms of the field `defaultKey`. -/
def tokens (defaultKey : List Char) (cs : List Char) : Except OpenSpan (List (Token Term)) :=
  match _h : pass defaultKey cs with
  | .done => .ok []
  | .open span => .error span
  | .read token rest => (tokens defaultKey rest).map (token.toList ++ ·)
termination_by cs.length
decreasing_by exact length_lt_of_pass _h

end Scan

/-- The tokens of a query, or the first span of it that never closes. Bare words and phrases are terms of
the field `defaultKey`, in lower case. -/
def tokenize (text defaultKey : String) : Except QueryFault (List (Token Term)) :=
  let cs := text.toList
  (Scan.tokens (Text.lower defaultKey.toList) cs).mapError (·.toFault cs.length)

end NoteQuery
