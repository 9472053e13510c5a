import NoteQuery.Proofs.Matching.Property
import NoteQuery.Proofs.Query.Decoding
import NoteQuery.Proofs.Query.Sides

/-!
# What a property filter carries

The text between the brackets of a property filter is read twice before its operand is written: once to
find the closing bracket, which drops the backslashes of quoted spans, and once to find the colon, which
takes every quote for the beginning or the end of a span and only counts parentheses. So the operand has
the two sides as they stand in the query exactly if no quoted span has a backslash and it makes no
difference whether parentheses are matched or counted (`bracket_carries_text_iff`).
-/

namespace NoteQuery

namespace Scan

/-! ## Places in a text -/

/-- Where in a text a character stands, behind so many parentheses that are open. -/
inductive Place
  /-- Outside quoted spans. -/
  | plain (opened : Nat)
  /-- In a quoted span. -/
  | quoted (opened : Nat)
  /-- In a quoted span, behind a backslash that escapes it. -/
  | escaped (opened : Nat)
deriving Repr, DecidableEq

namespace Place

/-- The place behind a character. A closing parenthesis closes one that is open, if there is one. -/
def next : Place → Char → Place
  | plain opened, c =>
    if c = '"' then quoted opened
    else if c = '(' then plain (opened + 1)
    else if c = ')' then plain (opened - 1)
    else plain opened
  | quoted opened, c =>
    if c = '"' then plain opened else if c = '\\' then escaped opened else quoted opened
  | escaped opened, _ => quoted opened

/-- The place behind a text. -/
def after (cs : List Char) : Place := cs.foldl next (plain 0)

/-- Whether a place is that of an escaped character. -/
def isEscaped : Place → Bool
  | escaped _ => true
  | _ => false

theorem eq_backslash_of_isEscaped_next {p : Place} {c : Char} (h : (p.next c).isEscaped = true) :
    c = '\\' ∧ ∃ opened, p = quoted opened := by
  cases p with
  | plain opened =>
    rw [next] at h
    split_ifs at h <;> cases h
  | quoted opened =>
    rw [next] at h
    split_ifs at h with hquote hback
    · cases h
    · exact ⟨hback, opened, rfl⟩
    · cases h
  | escaped opened => cases h

end Place

/-- Whether no quoted span and no parenthesis is open behind a text. -/
def IsOutside (cs : List Char) : Prop := Place.after cs = .plain 0

instance (cs : List Char) : Decidable (IsOutside cs) :=
  inferInstanceAs (Decidable (Place.after cs = .plain 0))

/-! ## What the first reading drops -/

/-- The rest of a text from a place on, without the backslashes that escape something in quoted spans. -/
def unescapeSpans (p : Place) : List Char → List Char
  | [] => []
  | c :: cs =>
    if (p.next c).isEscaped then unescapeSpans (p.next c) cs else c :: unescapeSpans (p.next c) cs

theorem exists_unescapeSpans_plain {c : Char} (hquote : c ≠ '"') (opened : Nat) :
    ∃ opened', ∀ cs, unescapeSpans (.plain opened) (c :: cs) = c :: unescapeSpans (.plain opened') cs := by
  obtain ⟨opened', hnext⟩ : ∃ opened', (Place.plain opened).next c = .plain opened' := by
    rw [Place.next, if_neg hquote]
    split_ifs
    · exact ⟨opened + 1, rfl⟩
    · exact ⟨opened - 1, rfl⟩
    · exact ⟨opened, rfl⟩
  refine ⟨opened', fun cs ↦ ?_⟩
  rw [unescapeSpans, hnext]
  rfl

theorem unescapeSpans_quoted {body : List Char} (h : IsQuotable body) (opened : Nat) (more : List Char) :
    unescapeSpans (.quoted opened) (body ++ '"' :: more)
      = unescapeAll body ++ '"' :: unescapeSpans (.plain opened) more := by
  induction h with
  | nil => simp [unescapeSpans, unescapeAll, Place.next, Place.isEscaped]
  | escaped c _ ih =>
    rw [List.cons_append, List.cons_append, unescapeSpans, unescapeSpans, unescapeAll, List.cons_append,
      ← ih]
    simp [Place.next, Place.isEscaped]
  | plain hquote hback _ ih =>
    rw [List.cons_append, unescapeSpans, IsQuotable.unescapeAll_plain hback, List.cons_append, ← ih]
    simp [Place.next, Place.isEscaped, hquote, hback]

/-- What is read of a bracket is the text before the closing one, without the backslashes of its quoted
spans. -/
theorem exists_of_readBracket {left depth : Nat} {cs out rest : List Char}
    (h : readBracket left depth cs = .ok (out, rest)) (opened : Nat) :
    ∃ raw, cs = raw ++ ']' :: rest ∧ out = unescapeSpans (.plain opened) raw := by
  fun_induction readBracket left depth cs generalizing out rest opened with
  | case1 => cases h
  | case2 => cases h
  | case3 depth tail value behind hquoted ih =>
    obtain ⟨⟨out, rest⟩, hread, hfound⟩ := map_eq_ok h
    obtain ⟨rfl, rfl⟩ := Prod.mk.inj hfound
    obtain ⟨body, rfl, hbody, rfl⟩ := IsQuotable.exists_of_readQuoted hquoted
    obtain ⟨raw, rfl, rfl⟩ := ih hread opened
    refine ⟨'"' :: (body ++ '"' :: raw), by simp, ?_⟩
    rw [unescapeSpans, Place.next, if_pos rfl, unescapeSpans_quoted hbody]
    rfl
  | case5 tail =>
    -- the bracket that closes the first one
    obtain ⟨rfl, rfl⟩ := Prod.mk.inj (Except.ok.inj h)
    exact ⟨[], rfl, rfl⟩
  | case4 depth tail hne ih | case6 tail depth hne _ ih | case7 depth c tail hne _ _ ih =>
    obtain ⟨⟨out, rest⟩, hread, hfound⟩ := map_eq_ok h
    obtain ⟨rfl, rfl⟩ := Prod.mk.inj hfound
    obtain ⟨opened', hplain⟩ := exists_unescapeSpans_plain hne opened
    obtain ⟨raw, rfl, rfl⟩ := ih hread opened'
    exact ⟨_, rfl, (hplain raw).symm⟩

theorem unescapeSpans_eq_self_or_lt (p : Place) (cs : List Char) :
    unescapeSpans p cs = cs ∨ (unescapeSpans p cs).count '\\' < cs.count '\\' := by
  induction cs generalizing p with
  | nil => exact .inl rfl
  | cons c cs ih =>
    rw [unescapeSpans]
    split
    · rename_i hescaped
      obtain ⟨rfl, -⟩ := Place.eq_backslash_of_isEscaped_next hescaped
      rw [List.count_cons_self]
      rcases ih (p.next '\\') with heq | hlt
      · rw [heq]
        exact .inr (Nat.lt_succ_self _)
      · exact .inr (Nat.lt_succ_of_lt hlt)
    · rcases ih (p.next c) with heq | hlt
      · exact .inl (by rw [heq])
      · rw [List.count_cons, List.count_cons]
        exact .inr (Nat.add_lt_add_right hlt _)

theorem count_unescapeSpans_le (p : Place) (cs : List Char) :
    (unescapeSpans p cs).count '\\' ≤ cs.count '\\' := by
  rcases unescapeSpans_eq_self_or_lt p cs with heq | hlt
  · rw [heq]
  · exact hlt.le

/-- Whether the backslashes of a text that begins at a place stand outside quoted spans. -/
def EscapesNothing (p : Place) (cs : List Char) : Prop :=
  ∀ u v, cs = u ++ '\\' :: v → ∃ opened, u.foldl Place.next p = .plain opened

theorem escapesNothing_cons_iff {p : Place} {c : Char} {cs : List Char} :
    EscapesNothing p (c :: cs) ↔ (c = '\\' → ∃ opened, p = .plain opened) ∧ EscapesNothing (p.next c) cs := by
  constructor
  · intro h
    refine ⟨?_, fun u v heq ↦ ?_⟩
    · rintro rfl
      exact h [] cs rfl
    · exact h (c :: u) v (by rw [heq, List.cons_append])
  · rintro ⟨hhead, htail⟩ u v heq
    rcases List.cons_eq_append_iff.mp heq with ⟨rfl, hcons⟩ | ⟨u, rfl, hcs⟩
    · exact hhead (List.cons.inj hcons).1.symm
    · exact htail u v hcs

/-- Nothing is dropped from a text exactly if its backslashes stand outside quoted spans. -/
theorem unescapeSpans_eq_self_iff {p : Place} (hp : p.isEscaped = false) {cs : List Char} :
    unescapeSpans p cs = cs ↔ EscapesNothing p cs := by
  induction cs generalizing p with
  | nil => simp [unescapeSpans, EscapesNothing]
  | cons c cs ih =>
    rw [unescapeSpans, escapesNothing_cons_iff]
    by_cases hescaped : (p.next c).isEscaped = true
    · obtain ⟨rfl, opened, rfl⟩ := Place.eq_backslash_of_isEscaped_next hescaped
      rw [if_pos hescaped]
      refine iff_of_false (fun heq ↦ ?_) fun hplain ↦ ?_
      · have hle := count_unescapeSpans_le (Place.next (.quoted opened) '\\') cs
        rw [heq, List.count_cons_self] at hle
        omega
      · obtain ⟨opened', hopened⟩ := hplain.1 rfl
        cases hopened
    · have hhead : c = '\\' → ∃ opened, p = .plain opened := by
        rintro rfl
        cases p with
        | plain opened => exact ⟨opened, rfl⟩
        | quoted opened => exact absurd rfl hescaped
        | escaped opened => cases hp
      rw [if_neg hescaped, List.cons.injEq, ih (eq_false_of_ne_true hescaped)]
      exact and_congr_left fun _ ↦ iff_of_true rfl hhead

end Scan

open Scan Property

/-! ## What is carried -/

theorem Property.payload_inj {name name' : String} {expression expression' : Option String} :
    payload name expression = payload name' expression' ↔ name = name' ∧ expression = expression' := by
  constructor
  · intro h
    have hparse := Property.parse?_payload name expression
    rw [h, Property.parse?_payload name' expression'] at hparse
    cases expression <;> cases expression' <;> simp_all
  · rintro ⟨rfl, rfl⟩
    rfl

/-- What is counted of a text is found on its two sides, if neither blanks nor colons are counted. -/
theorem Property.Sides.countP_eq {P : List Char → Prop} {cs name : List Char}
    {expression : Option (List Char)} (h : Sides P cs name expression) {p : Char → Bool}
    (hblank : ∀ c, Text.isBlank c = true → p c = false) (hcolon : p ':' = false) :
    cs.countP p = (Text.trim name).countP p + ((kept expression).getD []).countP p := by
  rw [h.eq_append, List.countP_append, Text.countP_trim hblank, getD_kept, Text.countP_trim hblank]
  cases expression with
  | none => rfl
  | some e => rw [colonAnd, List.countP_cons_of_neg (ne_true_of_eq_false hcolon), Option.getD_some]

theorem Matching.request?_payload_kept (name : List Char) (expression : Option (List Char)) :
    request? (payload (String.ofList (Text.trim name)) ((kept expression).map String.ofList))
      = some ⟨Text.lowercase (String.ofList (Text.trim name)),
          String.ofList (Text.trim (expression.getD []))⟩ := by
  have hexpression : ((kept expression).map String.ofList).getD ""
      = String.ofList (Text.trim (expression.getD [])) := by
    rw [← getD_kept]
    exact Option.getD_map String.ofList [] (kept expression)
  rw [request?_payload, hexpression, Text.trimmed, Text.trimmed, String.toList_ofList, String.toList_ofList,
    Text.trim_trim, Text.trim_trim]

/-- Whether a text between brackets is kept as it stands: no backslash stands in a quoted span, and the text
has the same two sides whether parentheses are matched or counted. -/
structure KeepsText (raw : List Char) : Prop where
  /-- No quoted span has a backslash. -/
  escapesNothing : EscapesNothing (.plain 0) raw
  /-- The first colon outside spans and parentheses is the first one behind a level part. -/
  sides : ∃ name expression, Sides IsOutside raw name expression ∧ Sides IsLevel raw name expression

/-- Whether an operand has the two sides of a text between brackets, split at its first colon outside quoted
spans and parentheses and trimmed, and asks for what stands there. -/
def Carries (raw : List Char) (operand : String) : Prop :=
  ∃ name expression, Sides IsOutside raw name expression ∧
    operand = payload (String.ofList (Text.trim name)) ((kept expression).map String.ofList) ∧
    Matching.request? operand = some ⟨Text.lowercase (String.ofList (Text.trim name)),
      String.ofList (Text.trim (expression.getD []))⟩

theorem Property.Sides.name_eq_of_trim_eq {P Q : List Char → Prop} {cs name name' : List Char}
    {expression expression' : Option (List Char)} (h : Sides P cs name expression)
    (h' : Sides Q cs name' expression') (htrim : Text.trim name = Text.trim name') :
    name = name' ∧ expression = expression' := by
  have hcount : name.countP (!Text.isBlank ·) = name'.countP (!Text.isBlank ·) := by
    have hblank : ∀ c, Text.isBlank c = true → (!Text.isBlank c) = false := fun c hc ↦ by rw [hc]; rfl
    rw [← Text.countP_trim hblank, htrim, Text.countP_trim hblank]
  have hlonger : ∀ u v : List Char,
      u.countP (!Text.isBlank ·) ≠ (u ++ ':' :: v).countP (!Text.isBlank ·) := by
    intro u v
    rw [List.countP_append, List.countP_cons_of_pos (by decide)]
    omega
  rcases h.eq_or_exists h' with hsame | ⟨v, rfl, -⟩ | ⟨v, rfl, -⟩
  · exact hsame
  · exact absurd hcount (hlonger name v)
  · exact absurd hcount.symm (hlonger name' v)

/-- What the two readings make of a text carries it exactly if both keep it. -/
theorem carries_iff (raw : List Char) :
    Carries raw (ofBracket (Text.trim (unescapeSpans (.plain 0) raw))) ↔ KeepsText raw := by
  constructor
  · rintro ⟨name, expression, hsides, hoperand, -⟩
    have hlevel := sides_splitColon (unescapeSpans (.plain 0) raw)
    generalize (splitColon (unescapeSpans (.plain 0) raw)).1 = name' at hlevel
    generalize (splitColon (unescapeSpans (.plain 0) raw)).2 = expression' at hlevel
    rw [ofBracket_trim hlevel, payload_inj, String.ofList_inj] at hoperand
    obtain ⟨hname, hexpression⟩ := hoperand
    have hkept : kept expression' = kept expression :=
      Option.map_injective (fun _ _ h ↦ String.ofList_inj.mp h) hexpression
    -- the sides have as many backslashes as the text, so that none has been dropped
    have hself : unescapeSpans (.plain 0) raw = raw := by
      have hblank : ∀ c, Text.isBlank c = true → (c == '\\') = false := by
        intro c hc
        rw [beq_eq_false_iff_ne]
        rintro rfl
        exact absurd hc (by decide)
      have hcount := hlevel.countP_eq hblank (by decide)
      rw [hname, hkept, ← hsides.countP_eq hblank (by decide)] at hcount
      rcases unescapeSpans_eq_self_or_lt (.plain 0) raw with heq | hlt
      · exact heq
      · exact absurd hcount hlt.ne
    rw [hself] at hlevel
    obtain ⟨rfl, rfl⟩ := hlevel.name_eq_of_trim_eq hsides hname
    exact ⟨(unescapeSpans_eq_self_iff rfl).mp hself, name', expression', hsides, hlevel⟩
  · rintro ⟨hescapes, name, expression, hsides, hlevel⟩
    rw [(unescapeSpans_eq_self_iff rfl).mpr hescapes, ofBracket_trim hlevel]
    exact ⟨name, expression, hsides, rfl, Matching.request?_payload_kept name expression⟩

/-! ## Texts that are kept -/

/-- The state in which the splitter should be at a place. -/
def Scan.Place.tallied : Place → Int × Bool
  | plain opened => (opened, false)
  | quoted opened | escaped opened => (opened, true)

theorem Scan.Place.tallied_eq_iff {p : Place} : p.tallied = (0, false) ↔ p = plain 0 := by
  cases p <;> simp [tallied]

theorem Scan.Place.tally_tallied {p : Place} {c : Char} (hp : p.isEscaped = false)
    (hclosing : p = plain 0 → c ≠ ')') : tally p.tallied c = (p.next c).tallied := by
  cases p with
  | plain opened =>
    by_cases hquote : c = '"'
    · simp [tallied, tally, next, hquote]
    · by_cases hopen : c = '('
      · simp [tallied, tally, next, hopen]
      · by_cases hclose : c = ')'
        · have hpos : 0 < opened := Nat.pos_of_ne_zero fun hzero ↦ hclosing (by rw [hzero]) hclose
          simp only [tallied, tally, next, hclose]
          simp
          omega
        · simp [tallied, tally, next, hquote, hopen, hclose]
  | quoted opened =>
    by_cases hquote : c = '"'
    · simp [tallied, tally, next, hquote]
    · by_cases hback : c = '\\'
      · simp [tallied, tally, next, hback]
      · simp [tallied, tally, next, hquote, hback]
  | escaped opened => cases hp

/-- A text is kept if no quoted span has a backslash and every parenthesis that is closed has been opened. -/
theorem KeepsText.of_matched {raw : List Char} (hescapes : EscapesNothing (.plain 0) raw)
    (hclosing : ∀ u v, raw = u ++ ')' :: v → ¬IsOutside u) : KeepsText raw := by
  -- behind every part the splitter is in the state of the place, by induction on the part from its end
  have hstate : ∀ u v, raw = u ++ v →
      (Place.after u).isEscaped = false ∧ u.foldl tally (0, false) = (Place.after u).tallied := by
    intro u
    induction u using List.reverseRecOn with
    | nil => exact fun _ _ ↦ ⟨rfl, rfl⟩
    | append_singleton u c ih =>
      intro v hraw
      rw [List.append_assoc, List.singleton_append] at hraw
      obtain ⟨hescaped, htally⟩ := ih _ hraw
      have hnext : Place.after (u ++ [c]) = (Place.after u).next c := by
        rw [Place.after, List.foldl_append]
        rfl
      rw [hnext, List.foldl_append, htally]
      refine ⟨?_, Place.tally_tallied hescaped fun hplain hc ↦ ?_⟩
      · by_contra hne
        obtain ⟨rfl, opened, hquoted⟩ := Place.eq_backslash_of_isEscaped_next (eq_true_of_ne_false hne)
        obtain ⟨opened', hplain⟩ := hescapes u v hraw
        cases hplain.symm.trans hquoted
      · exact hclosing u v (hc ▸ hraw) hplain
  have hiff : ∀ u v, raw = u ++ v → (IsLevel u ↔ IsOutside u) := by
    intro u v hraw
    obtain ⟨hescaped, htally⟩ := hstate u v hraw
    rw [IsLevel, htally, Place.tallied_eq_iff, IsOutside]
  exact ⟨hescapes, _, _, (sides_splitColon raw).congr hiff, sides_splitColon raw⟩

/-! ## Queries -/

/-- Whether a pass over a query reads a token from an opening bracket with `tail` behind it, and leaves
`rest`. -/
def ReadsBracket (text defaultKey : String) (tail rest : List Char) (token : Option (Token Term)) : Prop :=
  ∃ cs, Reaches (Text.lower defaultKey.toList) text.toList cs ∧ front cs = '[' :: tail ∧
    pass (Text.lower defaultKey.toList) cs = .read token rest

/-- Whether the token is a property filter that carries the text up to the closing bracket. -/
def CarriesBracket (tail rest : List Char) (token : Option (Token Term)) : Prop :=
  ∃ raw operand neg, tail = raw ++ ']' :: rest ∧ token = some (.term ⟨"prop", operand, neg⟩) ∧
    Carries raw operand

/-- **Property filters.** The operand of a property filter in a query is made of the sides of the text
between its brackets, character for character, exactly if this text is kept as it stands. -/
theorem bracket_carries_text_iff {text defaultKey : String} {tail rest : List Char}
    {token : Option (Token Term)} (h : ReadsBracket text defaultKey tail rest token) :
    CarriesBracket tail rest token ↔ ∃ raw, tail = raw ++ ']' :: rest ∧ KeepsText raw := by
  obtain ⟨cs, -, hfront, hread⟩ := h
  obtain ⟨neg, hneg⟩ := exists_pass_eq_readToken (Text.lower defaultKey.toList) cs
  rw [hneg, hfront, readToken] at hread
  split at hread
  · rename_i inner rest' hbracket
    obtain ⟨rfl, rfl⟩ := Pass.read.inj hread
    obtain ⟨raw, rfl, rfl⟩ := exists_of_readBracket hbracket 0
    constructor
    · rintro ⟨raw', operand, neg', hraw, htoken, hcarries⟩
      obtain rfl := List.append_cancel_right hraw
      rw [Option.some_inj, Token.term.injEq, Term.mk.injEq] at htoken
      rw [← htoken.2.1] at hcarries
      exact ⟨raw, rfl, (carries_iff raw).mp hcarries⟩
    · rintro ⟨raw', hraw, hkeeps⟩
      obtain rfl := List.append_cancel_right hraw
      exact ⟨raw, _, neg, rfl, rfl, (carries_iff raw).mpr hkeeps⟩
  · cases hread

/-- In `["a: (": b]` the first colon and the parenthesis stand in a quoted span, which is kept. -/
theorem bracket_carries_text_of_quoted_colon :
    ∃ token, ReadsBracket "[\"a: (\": b]" "default" "\"a: (\": b]".toList [] token ∧
      CarriesBracket "\"a: (\": b]".toList [] token := by
  have htext : "[\"a: (\": b]".toList = '[' :: "\"a: (\": b]".toList := by decide
  have hread : pass (Text.lower "default".toList) "[\"a: (\": b]".toList
      = .read (some (.term
          ⟨"prop", "\x7b\"name\":\"\\\"a: (\\\"\",\"expr\":\"b\"\x7d", false⟩)) [] := by
    cbv
  have hreads : ReadsBracket "[\"a: (\": b]" "default" "\"a: (\": b]".toList [] _ :=
    ⟨_, .here _, by rw [htext]; decide, hread⟩
  have hkeeps : KeepsText "\"a: (\": b".toList := by
    refine .of_matched ((unescapeSpans_eq_self_iff rfl).mp (by decide)) fun u v heq ↦ ?_
    have hclosing : ')' ∈ "\"a: (\": b".toList := by
      rw [heq]
      exact List.mem_append_right u List.mem_cons_self
    exact absurd hclosing (by decide)
  exact ⟨_, hreads, (bracket_carries_text_iff hreads).mpr ⟨_, by decide, hkeeps⟩⟩

/-- In `[a: "x\"y"]` the backslash of the quoted span is dropped. -/
theorem not_forall_carriesBracket :
    ¬∀ (text defaultKey : String) (tail rest : List Char) (token : Option (Token Term)),
      ReadsBracket text defaultKey tail rest token → CarriesBracket tail rest token := by
  intro h
  have htext : "[a: \"x\\\"y\"]".toList
      = '[' :: ['a', ':', ' ', '"', 'x', '\\', '"', 'y', '"', ']'] := by decide
  have hread : pass (Text.lower "default".toList) "[a: \"x\\\"y\"]".toList
      = .read (some (.term ⟨"prop", "\x7b\"name\":\"a\",\"expr\":\"\\\"x\\\"y\\\"\"\x7d", false⟩)) [] := by
    cbv
  have hreads : ReadsBracket "[a: \"x\\\"y\"]" "default" ['a', ':', ' ', '"', 'x', '\\', '"', 'y', '"', ']'] []
      (some (.term ⟨"prop", "\x7b\"name\":\"a\",\"expr\":\"\\\"x\\\"y\\\"\"\x7d", false⟩)) :=
    ⟨_, .here _, by rw [htext]; decide, hread⟩
  obtain ⟨raw, operand, neg, hraw, htoken, hcarries⟩ := h _ _ _ _ _ hreads
  obtain rfl : ['a', ':', ' ', '"', 'x', '\\', '"', 'y', '"'] = raw := List.append_cancel_right hraw
  rw [Option.some_inj, Token.term.injEq, Term.mk.injEq] at htoken
  have hbracket : ofBracket (Text.trim (unescapeSpans (.plain 0)
      ['a', ':', ' ', '"', 'x', '\\', '"', 'y', '"'])) = operand := by
    rw [← htoken.2.1]
    cbv
  have hkeeps := (carries_iff _).mp (hbracket ▸ hcarries)
  obtain ⟨opened, hplain⟩ := hkeeps.escapesNothing ['a', ':', ' ', '"', 'x'] ['"', 'y', '"'] rfl
  cases hplain

end NoteQuery
