import Mathlib.Data.List.Basic
import Mathlib.Data.List.TakeWhile
import Mathlib.Tactic.MkIffOfInductiveProp
import NoteQuery.Proofs.Query.Quoting
import NoteQuery.Proofs.Text.Case

/-!
# Writing queries down

A spelling is one way to write a token down: a phrase or a bare word for a term of the default
field, a quoted value behind its key for any other field, a bracket for a property. Spellings that
keep to the rules of their kind, set apart by single spaces, are read back as the tokens they spell.

What is proved of each kind is that its reader stops exactly where the spelling ends
(`Spelling.readToken_body`), whether a space stands behind it or the end of the text.
-/

namespace NoteQuery

/-! ## Spellings -/

/-- A way to write down a token. -/
inductive Spelling
  /-- An opening parenthesis. -/
  | opening
  /-- A closing parenthesis. -/
  | closing
  /-- The word `OR`. -/
  | or
  /-- A term of the default field, in quotes. -/
  | phrase (neg : Bool) (value : List Char)
  /-- A term of the default field, as it is. -/
  | word (neg : Bool) (value : List Char)
  /-- A term of the field `key`, its value in quotes. -/
  | field (neg : Bool) (key value : List Char)
  /-- A property filter. -/
  | property (neg : Bool) (name : List Char) (expression : Option (List Char))

namespace Spelling

/-- Whether a minus sign stands in front. -/
def negated : Spelling → Bool
  | opening | closing | or => false
  | phrase neg _ | word neg _ | field neg _ _ | property neg _ _ => neg

/-- What is written behind the sign. -/
def body : Spelling → List Char
  | opening => ['(']
  | closing => [')']
  | or => ['O', 'R']
  | phrase _ value => '"' :: (Scan.escapePhrase value ++ ['"'])
  | word _ value => value
  | field _ key value => key ++ ':' :: '"' :: (Scan.escapeValue value ++ ['"'])
  | property _ name none => '[' :: (name ++ [']'])
  | property _ name (some expression) => '[' :: (name ++ ':' :: ' ' :: expression ++ [']'])

/-- What is written. -/
def text (s : Spelling) : List Char := if s.negated then '-' :: s.body else s.body

/-- The token that is spelled. -/
def token (defaultKey : String) : Spelling → Token Term
  | opening => .opening
  | closing => .closing
  | or => .or
  | phrase neg value | word neg value => .term ⟨defaultKey, String.ofList value, neg⟩
  | field neg key value => .term ⟨String.ofList key, String.ofList value, neg⟩
  | property neg name expression =>
    .term ⟨"prop", Property.payload (String.ofList name) (expression.map String.ofList), neg⟩

/-- Whether some signs are missing from a text. -/
def Avoids (signs cs : List Char) : Prop := ∀ c ∈ cs, c ∉ signs

instance (signs cs : List Char) : Decidable (Avoids signs cs) := List.decidableBAll (· ∉ signs) cs

theorem Avoids.mono {signs signs' cs : List Char} (h : Avoids signs cs) (hsub : signs' ⊆ signs) :
    Avoids signs' cs :=
  fun c hc hsign ↦ h c hc (hsub hsign)

/-- Whether nothing in a text ends a word. -/
def Unbroken (cs : List Char) : Prop :=
  ∀ c ∈ cs, Text.isBlank c = false ∧ c ∉ ['(', ')', '[', ']']

instance (cs : List Char) : Decidable (Unbroken cs) :=
  List.decidableBAll (fun c ↦ Text.isBlank c = false ∧ c ∉ ['(', ')', '[', ']']) cs

/-- What can stand as a bare word. -/
@[mk_iff]
structure IsWord (neg : Bool) (value : List Char) : Prop where
  /-- There is something to read. -/
  ne_nil : value ≠ []
  /-- The word goes on to its end. -/
  unbroken : Unbroken value
  /-- It is no phrase. -/
  head_ne_quote : value.head? ≠ some '"'
  /-- It has no sign of its own. -/
  head_ne_minus : value.head? ≠ some '-'
  /-- It is no field. -/
  colon_not_mem : ':' ∉ value.tail
  /-- It is not the word `OR`. -/
  lower_ne_or : neg = false → Text.lower value ≠ ['o', 'r']

/-- What can stand as the key of a field. -/
@[mk_iff]
structure IsKey (key : List Char) : Prop where
  /-- The colon is not the first character of its word. -/
  ne_nil : key ≠ []
  /-- Keys are read in lower case. -/
  lower_eq : Text.lower key = key
  /-- The key is in one word with its colon. -/
  unbroken : Unbroken key
  /-- The colon is the first of the word. -/
  colon_not_mem : ':' ∉ key
  /-- The word is no phrase. -/
  head_ne_quote : key.head? ≠ some '"'
  /-- The word has no sign of its own. -/
  head_ne_minus : key.head? ≠ some '-'

/-- What can stand as the name of a property. -/
@[mk_iff]
structure IsName (name : List Char) : Prop where
  /-- Names are read without blanks around them. -/
  trim_eq : Text.trim name = name
  /-- Nothing in the name ends it. -/
  avoids : Avoids ['"', '[', ']', '(', ')', ':'] name

namespace IsName

theorem avoids_brackets {name : List Char} (h : IsName name) : Avoids ['"', '[', ']'] name :=
  h.avoids.mono (by decide)

theorem avoids_colon {name : List Char} (h : IsName name) : Avoids ['"', '(', ')', ':'] name :=
  h.avoids.mono (by decide)

end IsName

/-- What can stand as the expression of a property. -/
@[mk_iff]
structure IsExpression (expression : List Char) : Prop where
  /-- Nothing is no expression. -/
  ne_nil : expression ≠ []
  /-- Expressions are read without blanks around them. -/
  trim_eq : Text.trim expression = expression
  /-- Nothing in the expression ends it. -/
  avoids : Avoids ['"', '[', ']'] expression

/-- Whether a spelling keeps to the rules of its kind. -/
def WellFormed : Spelling → Prop
  | opening | closing | or | phrase _ _ => True
  | word neg value => IsWord neg value
  | field _ key value => IsKey key ∧ '\\' ∉ value
  | property _ name expression => IsName name ∧ ∀ e ∈ expression, IsExpression e

instance (neg : Bool) (value : List Char) : Decidable (IsWord neg value) :=
  decidable_of_iff _ (isWord_iff neg value).symm

instance (key : List Char) : Decidable (IsKey key) := decidable_of_iff _ (isKey_iff key).symm

instance (name : List Char) : Decidable (IsName name) := decidable_of_iff _ (isName_iff name).symm

instance (expression : List Char) : Decidable (IsExpression expression) :=
  decidable_of_iff _ (isExpression_iff expression).symm

instance (s : Spelling) : Decidable s.WellFormed :=
  match s with
  | opening | closing | or | phrase _ _ => isTrue trivial
  | word neg value => inferInstanceAs (Decidable (IsWord neg value))
  | field _ key value => inferInstanceAs (Decidable (IsKey key ∧ '\\' ∉ value))
  | property _ name none => decidable_of_iff (IsName name) ⟨fun h ↦ ⟨h, nofun⟩, And.left⟩
  | property _ name (some e) =>
    decidable_of_iff (IsName name ∧ IsExpression e)
      ⟨fun ⟨h, he⟩ ↦ ⟨h, fun _ hd ↦ Option.mem_some.mp hd ▸ he⟩, fun ⟨h, he⟩ ↦ ⟨h, he e rfl⟩⟩

/-- Some spellings, set apart by single spaces. -/
def joined (ss : List Spelling) : List Char := [' '].intercalate (ss.map text)

end Spelling

/-! ## Names and expressions -/

namespace Property

theorem splitColonFrom_append {name : List Char} (h : Spelling.Avoids ['"', '(', ')', ':'] name)
    (before rest : List Char) :
    splitColonFrom before 0 false (name ++ rest)
      = splitColonFrom (name.reverse ++ before) 0 false rest := by
  induction name generalizing before with
  | nil => rfl
  | cons c name ih =>
    have hc := h c List.mem_cons_self
    simp only [List.mem_cons, List.not_mem_nil, or_false, not_or] at hc
    obtain ⟨hquote, hopening, hclosing, hcolon⟩ := hc
    rw [List.cons_append, splitColonFrom, if_neg hquote, if_neg Bool.false_ne_true,
      if_neg hopening, if_neg hclosing, if_neg (by simp [hcolon]),
      ih fun d hd ↦ h d (List.mem_cons_of_mem c hd), List.reverse_cons, List.append_assoc,
      List.singleton_append]

theorem splitColon_name {name : List Char} (h : Spelling.Avoids ['"', '(', ')', ':'] name) :
    splitColon name = (name, none) := by
  rw [splitColon, ← List.append_nil name, splitColonFrom_append h]
  simp [splitColonFrom]

theorem splitColon_append {name : List Char} (h : Spelling.Avoids ['"', '(', ')', ':'] name)
    (expression : List Char) :
    splitColon (name ++ ':' :: expression) = (name, some expression) := by
  rw [splitColon, splitColonFrom_append h]
  simp [splitColonFrom]

theorem trim_append_expression {name expression : List Char} (hname : Spelling.IsName name)
    (hexpression : Spelling.IsExpression expression) :
    Text.trim (name ++ ':' :: ' ' :: expression) = name ++ ':' :: ' ' :: expression := by
  refine Text.trim_eq_self_iff.mpr ⟨fun c hc ↦ ?_, fun c hc ↦ ?_⟩
  · cases name with
    | nil =>
      cases Option.mem_some.mp hc
      decide
    | cons d name => exact (Text.trim_eq_self_iff.mp hname.trim_eq).1 c hc
  · refine (Text.trim_eq_self_iff.mp hexpression.trim_eq).2 c ?_
    obtain ⟨d, expression, rfl⟩ := List.exists_cons_of_ne_nil hexpression.ne_nil
    rwa [List.getLast?_append_of_ne_nil _ (List.cons_ne_nil _ _), List.getLast?_cons_cons,
      List.getLast?_cons_cons] at hc

theorem ofBracket_name {name : List Char} (h : Spelling.IsName name) :
    ofBracket (Text.trim name) = payload (String.ofList name) none := by
  rw [h.trim_eq, ofBracket, splitColon_name h.avoids_colon]
  change payload (String.ofList (Text.trim name)) none = _
  rw [h.trim_eq]

theorem ofBracket_append {name expression : List Char} (hname : Spelling.IsName name)
    (hexpression : Spelling.IsExpression expression) :
    ofBracket (Text.trim (name ++ ':' :: ' ' :: expression))
      = payload (String.ofList name) (some (String.ofList expression)) := by
  rw [trim_append_expression hname hexpression, ofBracket,
    splitColon_append hname.avoids_colon]
  change payload (String.ofList (Text.trim name))
    (some (String.ofList (Text.trim (' ' :: expression)))) = _
  rw [hname.trim_eq, Text.trim_cons_of_blank (by decide), hexpression.trim_eq]

end Property

namespace Scan

/-! ## Words -/

theorem inWord_of_mem_head?_space {rest : List Char} (hrest : ∀ c ∈ rest.head?, c = ' ') :
    ∀ c ∈ rest.head?, inWord c = false := by
  intro c hc
  rw [hrest c hc]
  rfl

theorem inWord_of_unbroken {cs : List Char} (h : Spelling.Unbroken cs) :
    ∀ c ∈ cs, inWord c = true := by
  intro c hc
  obtain ⟨hblank, hbracket⟩ := h c hc
  simp only [List.mem_cons, List.not_mem_nil, or_false, not_or] at hbracket
  simp [inWord, hblank, hbracket]

theorem readToken_of_unbroken {word : List Char} (hne : word ≠ []) (h : Spelling.Unbroken word)
    (hquote : word.head? ≠ some '"') (defaultKey : List Char) (neg : Bool) (rest : List Char) :
    readToken defaultKey neg (word ++ rest) = readWord defaultKey neg (word ++ rest) := by
  obtain ⟨c, word, rfl⟩ := List.exists_cons_of_ne_nil hne
  refine readToken_cons (fun hc ↦ ?_) defaultKey neg (word ++ rest)
  have hbracket := (h c List.mem_cons_self).2
  simp only [List.mem_cons, List.not_mem_nil, or_false, not_or] at hc hbracket
  rcases hc with hc | hc | hc | hc
  · exact hbracket.1 hc
  · exact hbracket.2.1 hc
  · exact hbracket.2.2.1 hc
  · exact hquote (congrArg some hc)

/-! ## Reading one spelling -/

theorem readToken_word {neg : Bool} {value rest : List Char} (h : Spelling.IsWord neg value)
    (hrest : ∀ c ∈ rest.head?, c = ' ') (defaultKey : List Char) :
    readToken defaultKey neg (value ++ rest)
      = .read (some (termToken defaultKey value neg)) rest := by
  have hword := inWord_of_unbroken h.unbroken
  have hend := inWord_of_mem_head?_space hrest
  have htrim : Text.trim value = value :=
    Text.trim_of_forall_not_blank fun c hc ↦ (h.unbroken c hc).1
  have htake : (value ++ rest).takeWhile inWord = value := by
    rw [takeWhile_inWord_append hend, List.takeWhile_eq_self_iff.mpr hword]
  have hdrop : (value ++ rest).dropWhile inWord = rest := by
    rw [dropWhile_inWord_append hend, List.dropWhile_eq_nil_iff.mpr hword, List.nil_append]
  rw [readToken_of_unbroken h.ne_nil h.unbroken h.head_ne_quote,
    readWord_of_bare h.ne_nil htake h.lower_ne_or (splitField_eq_none h.colon_not_mem), hdrop,
    stripOuterQuotes_eq_self htrim h.head_ne_quote]

theorem readToken_field {key value rest : List Char} (hkey : Spelling.IsKey key)
    (hvalue : '\\' ∉ value) (hrest : ∀ c ∈ rest.head?, c = ' ') (defaultKey : List Char)
    (neg : Bool) :
    readToken defaultKey neg (key ++ ':' :: '"' :: (escapeValue value ++ ['"']) ++ rest)
      = .read (some (termToken key value neg)) rest := by
  have hword := inWord_of_unbroken hkey.unbroken
  have hend := inWord_of_mem_head?_space hrest
  -- the word ends with the first blank or bracket of the value, or with its closing quote
  set quoted := escapeValue value ++ ['"']
  have htake : (key ++ ':' :: '"' :: quoted ++ rest).takeWhile inWord
      = key ++ ':' :: '"' :: quoted.takeWhile inWord := by
    rw [takeWhile_inWord_append hend, List.takeWhile_append_of_pos hword,
      List.takeWhile_cons_of_pos (by decide), List.takeWhile_cons_of_pos (by decide)]
  have hdrop : (key ++ ':' :: '"' :: quoted ++ rest).dropWhile inWord
      = quoted.dropWhile inWord ++ rest := by
    rw [dropWhile_inWord_append hend, List.dropWhile_append_of_pos hword,
      List.dropWhile_cons_of_pos (by decide), List.dropWhile_cons_of_pos (by decide)]
  have hne : key ++ ':' :: '"' :: quoted.takeWhile inWord ≠ [] :=
    List.append_ne_nil_of_left_ne_nil hkey.ne_nil _
  have hor : neg = false →
      Text.lower (key ++ ':' :: '"' :: quoted.takeWhile inWord) ≠ ['o', 'r'] := by
    intro _ hlower
    have hle := Text.length_le_length_lowerFrom [] (key ++ ':' :: '"' :: quoted.takeWhile inWord)
    rw [← Text.lower, hlower] at hle
    have hkey := List.length_pos_iff.mpr hkey.ne_nil
    simp only [List.length_append, List.length_cons, List.length_nil] at hle
    omega
  have hread : readValue ('"' :: quoted.takeWhile inWord) (quoted.dropWhile inWord ++ rest)
      = .ok (value, rest) :=
    readValue_cons_quote (readSpanning_escapeValue hvalue List.takeWhile_append_dropWhile rest)
  rw [List.append_assoc, readToken_of_unbroken hkey.ne_nil hkey.unbroken hkey.head_ne_quote,
    ← List.append_assoc,
    readWord_of_field hne htake hor (splitField_append hkey.ne_nil hkey.colon_not_mem _)
      (by rw [hdrop, hread]), hkey.lower_eq]

theorem readToken_property {name rest : List Char} {expression : Option (List Char)}
    (hname : Spelling.IsName name) (hexpression : ∀ e ∈ expression, Spelling.IsExpression e)
    (defaultKey : List Char) (neg : Bool) :
    readToken defaultKey neg ((Spelling.property neg name expression).body ++ rest)
      = .read (some (.term ⟨"prop",
          Property.payload (String.ofList name) (expression.map String.ofList), neg⟩)) rest := by
  cases expression with
  | none =>
    have hbracket := readBracket_append hname.avoids_brackets
    rw [Spelling.body, List.cons_append, List.append_assoc, List.singleton_append, readToken,
      hbracket]
    change Pass.read (some (.term ⟨"prop", Property.ofBracket (Text.trim name), neg⟩)) rest = _
    rw [Property.ofBracket_name hname, Option.map_none]
  | some expression =>
    have hexpression := hexpression expression rfl
    have hinner : Spelling.Avoids ['"', '[', ']'] (name ++ ':' :: ' ' :: expression) := by
      intro c hc
      rcases List.mem_append.mp hc with hc | hc
      · exact hname.avoids_brackets c hc
      · rcases List.mem_cons.mp hc with rfl | hc
        · decide
        · rcases List.mem_cons.mp hc with rfl | hc
          · decide
          · exact hexpression.avoids c hc
    rw [Spelling.body, List.cons_append, List.append_assoc, List.singleton_append, readToken,
      readBracket_append hinner]
    change Pass.read (some (.term ⟨"prop",
      Property.ofBracket (Text.trim (name ++ ':' :: ' ' :: expression)), neg⟩)) rest = _
    rw [Property.ofBracket_append hname hexpression, Option.map_some]

end Scan

namespace Spelling

/-- Every spelling begins with a character that is neither a blank nor a sign. -/
theorem exists_body_eq_cons {s : Spelling} (h : s.WellFormed) :
    ∃ c cs, s.body = c :: cs ∧ Text.isBlank c = false ∧ c ≠ '-' := by
  cases s with
  | opening => exact ⟨_, _, rfl, by decide, by decide⟩
  | closing => exact ⟨_, _, rfl, by decide, by decide⟩
  | or => exact ⟨_, _, rfl, by decide, by decide⟩
  | phrase neg value => exact ⟨_, _, rfl, by decide, by decide⟩
  | word neg value =>
    obtain ⟨c, value, rfl⟩ := List.exists_cons_of_ne_nil h.ne_nil
    exact ⟨c, value, rfl, (h.unbroken c List.mem_cons_self).1,
      fun hc ↦ h.head_ne_minus (congrArg some hc)⟩
  | field neg key value =>
    obtain ⟨hkey, -⟩ := h
    obtain ⟨c, key, rfl⟩ := List.exists_cons_of_ne_nil hkey.ne_nil
    exact ⟨c, _, rfl, (hkey.unbroken c List.mem_cons_self).1,
      fun hc ↦ hkey.head_ne_minus (congrArg some hc)⟩
  | property neg name expression =>
    cases expression with
    | none => exact ⟨_, _, rfl, by decide, by decide⟩
    | some expression => exact ⟨_, _, rfl, by decide, by decide⟩

/-- **Every reader stops where its spelling ends.** What stands behind is left alone, if it is set
apart by a space. -/
theorem readToken_body {s : Spelling} (h : s.WellFormed) {rest : List Char}
    (hrest : ∀ c ∈ rest.head?, c = ' ') (defaultKey : List Char) :
    Scan.readToken defaultKey s.negated (s.body ++ rest)
      = .read (some (s.token (String.ofList defaultKey))) rest := by
  cases s with
  | opening => rfl
  | closing => rfl
  | or =>
    have hend := Scan.inWord_of_mem_head?_space hrest
    have htake : (body or ++ rest).takeWhile Scan.inWord = ['O', 'R'] := by
      rw [Scan.takeWhile_inWord_append hend]
      rfl
    have hdrop : (body or ++ rest).dropWhile Scan.inWord = rest := by
      rw [Scan.dropWhile_inWord_append hend]
      rfl
    rw [body, List.cons_append, Scan.readToken_cons (by decide), ← List.cons_append, ← body,
      Scan.readWord, htake, hdrop]
    rfl
  | phrase neg value =>
    rw [body, List.cons_append, List.append_assoc, List.singleton_append, Scan.readToken,
      Scan.readQuoted_escapePhrase]
    rfl
  | word neg value => exact Scan.readToken_word h hrest defaultKey
  | field neg key value => exact Scan.readToken_field h.1 h.2 hrest defaultKey neg
  | property neg name expression => exact Scan.readToken_property h.1 h.2 defaultKey neg

theorem pass_text {s : Spelling} (h : s.WellFormed) {rest : List Char}
    (hrest : ∀ c ∈ rest.head?, c = ' ') (defaultKey : List Char) :
    Scan.pass defaultKey (s.text ++ rest)
      = .read (some (s.token (String.ofList defaultKey))) rest := by
  rw [← readToken_body h hrest, text]
  obtain ⟨c, cs, hbody, hblank, hminus⟩ := exists_body_eq_cons h
  rw [hbody]
  cases s.negated with
  | false => exact Scan.pass_cons hblank hminus defaultKey (cs ++ rest)
  | true => exact Scan.pass_minus_cons hblank defaultKey (cs ++ rest)

theorem eq_space_of_mem_head? (ss : List Spelling) :
    ∀ c ∈ (ss.flatMap fun s ↦ ' ' :: s.text).head?, c = ' ' := by
  intro c hc
  cases ss with
  | nil => exact nomatch hc
  | cons s ss => exact (Option.mem_some.mp hc).symm

/-- The reader takes the spellings behind a first one in order, each with the space before it. -/
theorem tokens_flatMap {ss : List Spelling} (h : ∀ s ∈ ss, s.WellFormed) (defaultKey : List Char) :
    Scan.tokens defaultKey (ss.flatMap fun s ↦ ' ' :: s.text)
      = .ok (ss.map (token (String.ofList defaultKey))) := by
  induction ss with
  | nil => exact Scan.tokens_nil defaultKey
  | cons s ss ih =>
    have hpass := pass_text (h s List.mem_cons_self) (eq_space_of_mem_head? ss) defaultKey
    rw [List.flatMap_cons, List.cons_append, Scan.tokens_of_read
      ((Scan.pass_cons_of_blank (by decide) defaultKey _).trans hpass),
      ih fun t ht ↦ h t (List.mem_cons_of_mem s ht)]
    rfl

theorem joined_cons (s : Spelling) (ss : List Spelling) :
    joined (s :: ss) = s.text ++ ss.flatMap fun t ↦ ' ' :: t.text := by
  induction ss generalizing s with
  | nil =>
    rw [joined, List.map_singleton, List.intercalate_singleton, List.flatMap_nil, List.append_nil]
  | cons t ss ih =>
    rw [joined, List.map_cons, List.map_cons, List.intercalate_cons_cons, ← List.map_cons, ← joined,
      ih, List.flatMap_cons, List.append_assoc]
    rfl

end Spelling

/-- **Printing and reading back.** Spellings that keep to the rules of their kind, set apart by
single spaces, are read as the tokens they spell. -/
theorem tokenize_joined {ss : List Spelling} (h : ∀ s ∈ ss, s.WellFormed) (defaultKey : String) :
    tokenize (String.ofList (Spelling.joined ss)) defaultKey
      = .ok (ss.map (Spelling.token (Text.lowercase defaultKey))) := by
  have htokens : Scan.tokens (Text.lower defaultKey.toList) (Spelling.joined ss)
      = .ok (ss.map (Spelling.token (Text.lowercase defaultKey))) := by
    cases ss with
    | nil => exact Scan.tokens_nil _
    | cons s ss =>
      have hrest := Spelling.eq_space_of_mem_head? ss
      rw [Spelling.joined_cons,
        Scan.tokens_of_read (Spelling.pass_text (h s List.mem_cons_self) hrest _),
        Spelling.tokens_flatMap fun t ht ↦ h t (List.mem_cons_of_mem s ht)]
      rfl
  rw [tokenize, String.toList_ofList, htokens]
  rfl

/-- One spelling of each kind: `( -a.b OR "x\"\\" ) -k:"v\" (w)" [d: <3]`. -/
theorem tokenize_joined_each_kind :
    let ss : List Spelling := [.opening, .word true ['a', '.', 'b'], .or,
      .phrase false ['x', '"', '\\'], .closing, .field true ['k'] ['v', '"', ' ', '(', 'w', ')'],
      .property false ['d'] (some ['<', '3'])]
    (∀ s ∈ ss, s.WellFormed) ∧ tokenize (String.ofList (Spelling.joined ss)) "Title"
      = .ok [.opening, .term ⟨"title", "a.b", true⟩, .or, .term ⟨"title", "x\"\\", false⟩, .closing,
        .term ⟨"k", "v\" (w)", true⟩, .term ⟨"prop", Property.payload "d" (some "<3"), false⟩] := by
  intro ss
  have hss : ∀ s ∈ ss, s.WellFormed := by decide +kernel
  have hkey : Text.lowercase "Title" = "title" := by decide +kernel
  refine ⟨hss, ?_⟩
  rw [tokenize_joined hss, hkey]
  rfl

end NoteQuery
