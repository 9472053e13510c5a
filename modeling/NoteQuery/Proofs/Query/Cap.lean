import Mathlib
import NoteQuery.Proofs.Matching.Trace
import NoteQuery.Proofs.Query.NormalForm
import NoteQuery.Proofs.Query.Spelling
import NoteQuery.Search

/-!
# The cap on clauses

The walk that brings a query into normal form makes one list of clauses for every part of its tree.
Under a cap no list it makes is longer than the cap, whether the query is refused in the end or not,
and a query is refused exactly when a list that the walk without a cap makes is too long.

Applying a query makes lists of its own, since the expression of a property term is read as a query
once the term is tested, and there no cap is set. So these lists stay within the cap of a search
exactly where the search would have accepted the expression as a query.
-/

namespace NoteQuery

variable {α : Type}

namespace Clauses

/-! ## The lists that the walk makes -/

/-- The lists of clauses that a walk puts on its results, in order. -/
def made (cap : Cap) : List (Work α) → List (List (Clause α)) → List (List (Clause α))
  | [], _ => []
  | .visit (.leaf a) :: work, results => [[a]] :: made cap work ([[a]] :: results)
  | .visit (.node op l r) :: work, results =>
    made cap (.visit l :: .visit r :: .join op :: work) results
  | .join op :: work, right :: left :: results =>
    match joinWithin cap op left right with
    | .ok joined => joined :: made cap work (joined :: results)
    | .error _ => []
  | .join _ :: work, results => made cap work results
termination_by work => Work.total work
decreasing_by
  all_goals simp only [Work.total, Work.weight, Tree.size]
  all_goals omega

theorem mem_made_of_walk {cap : Cap} {work : List (Work α)} {results out : List (List (Clause α))}
    (h : walk cap work results = .ok out) {clauses : List (Clause α)} (hmem : clauses ∈ out) :
    clauses ∈ results ∨ clauses ∈ made cap work results := by
  induction work, results using walk.induct with
  | case1 results =>
    rw [walk] at h
    rw [Except.ok.inj h]
    exact .inl hmem
  | case2 results a work ih =>
    rw [walk] at h
    rw [made, List.mem_cons]
    rcases ih h with hmem | hmem
    · exact (List.mem_cons.mp hmem).symm.imp_right .inl
    · exact .inr (.inr hmem)
  | case3 results op l r work ih =>
    rw [walk] at h
    rw [made]
    exact ih h
  | case4 op work right left results ih =>
    rw [walk] at h
    obtain ⟨joined, hjoin, h⟩ := exists_of_bind_eq_ok h
    rw [made, hjoin, List.mem_cons, List.mem_cons, List.mem_cons]
    rcases ih joined h with hmem | hmem
    · exact (List.mem_cons.mp hmem).symm.imp (.inr ∘ .inr) .inl
    · exact .inr (.inr hmem)
  | case5 results op work hfew ih =>
    rw [walk.eq_5 _ _ _ _ hfew] at h
    rw [made.eq_5 _ _ _ _ hfew]
    exact ih h

/-! ## Within a cap -/

theorem length_join (op : Connective) (left right : List (Clause α)) :
    (join op left right).length = joinCount op left.length right.length := by
  cases op with
  | and =>
    have hrow : ∀ l : Clause α, (right.map fun r ↦ l ++ r).length = right.length :=
      fun l ↦ List.length_map _
    rw [join, product, List.length_flatMap, List.map_congr_left fun l _ ↦ hrow l, List.map_const',
      List.sum_replicate_nat, joinCount]
  | or => exact List.length_append

/-- Under a cap two lists are joined exactly when the joint is within it. -/
theorem joinWithin_eq_ok_iff {m : Nat} (hm : 1 ≤ m) {op : Connective}
    {left right joined : List (Clause α)} :
    joinWithin (some m) op left right = .ok joined
      ↔ join op left right = joined ∧ joined.length ≤ m := by
  have hlimit : Cap.limit? (some (m : Int)) = some (m : Int) := by
    rw [Cap.limit?, Option.filter_some, if_pos (by simpa using Nat.ne_of_gt hm)]
  rw [joinWithin, hlimit]
  change (if (m : Int) < joinCount op left.length right.length then _ else _) = _ ↔ _
  rw [← length_join]
  by_cases hlong : (m : Int) < (join op left right).length
  · rw [if_pos hlong]
    constructor
    · intro h
      cases h
    · rintro ⟨rfl, hle⟩
      omega
  · rw [if_neg hlong]
    constructor
    · intro h
      obtain rfl := Except.ok.inj h
      exact ⟨rfl, by omega⟩
    · rintro ⟨rfl, -⟩
      rfl

theorem length_le_of_mem_made {m : Nat} (hm : 1 ≤ m) {work : List (Work α)}
    {results : List (List (Clause α))} {clauses : List (Clause α)}
    (hmem : clauses ∈ made (some m) work results) : clauses.length ≤ m := by
  induction work, results using walk.induct with
  | case1 results =>
    rw [made] at hmem
    exact nomatch hmem
  | case2 results a work ih =>
    rw [made, List.mem_cons] at hmem
    rcases hmem with rfl | hmem
    · exact hm
    · exact ih hmem
  | case3 results op l r work ih =>
    rw [made] at hmem
    exact ih hmem
  | case4 op work right left results ih =>
    rw [made] at hmem
    split at hmem
    · rename_i joined hjoin
      rcases List.mem_cons.mp hmem with rfl | hmem
      · exact ((joinWithin_eq_ok_iff hm).mp hjoin).2
      · exact ih joined hmem
    · exact nomatch hmem
  | case5 results op work hfew ih =>
    rw [made.eq_5 _ _ _ _ hfew] at hmem
    exact ih hmem

/-- **What a cap refuses.** The walk comes to its end under a cap exactly when no list that it makes
without one is longer than the cap. -/
theorem exists_walk_iff {m : Nat} (hm : 1 ≤ m) (work : List (Work α))
    (results : List (List (Clause α))) :
    (∃ out, walk (some m) work results = .ok out) ↔
      ∀ clauses ∈ made none work results, clauses.length ≤ m := by
  induction work, results using walk.induct with
  | case1 results =>
    rw [walk, made]
    exact ⟨fun _ _ hmem ↦ absurd hmem List.not_mem_nil, fun _ ↦ ⟨results, rfl⟩⟩
  | case2 results a work ih =>
    rw [walk, made, List.forall_mem_cons, ih]
    exact (and_iff_right hm).symm
  | case3 results op l r work ih =>
    rw [walk, made, ih]
  | case4 op work right left results ih =>
    rw [walk, made]
    change _ ↔ ∀ clauses ∈ join op left right :: made none work (join op left right :: results), _
    rw [List.forall_mem_cons, ← ih]
    constructor
    · rintro ⟨out, h⟩
      obtain ⟨joined, hjoin, h⟩ := exists_of_bind_eq_ok h
      obtain ⟨rfl, hle⟩ := (joinWithin_eq_ok_iff hm).mp hjoin
      exact ⟨hle, out, h⟩
    · rintro ⟨hle, out, h⟩
      rw [(joinWithin_eq_ok_iff hm).mpr ⟨rfl, hle⟩]
      exact ⟨out, h⟩
  | case5 results op work hfew ih =>
    rw [walk.eq_5 _ _ _ _ hfew, made.eq_5 _ _ _ _ hfew, ih]

end Clauses

/-! ## The lists that reading a query makes -/

namespace Query

/-- The lists of clauses that are made when a text is read as a query. -/
def made (text key : String) (cap : Clauses.Cap) : List (List (Clause Term)) :=
  match tokenize text key with
  | .ok ts => (Tree.ofTokens ts).elim [[[]]] fun t ↦ Clauses.made cap [.visit t] []
  | .error _ => []

variable {text key : String} {q : Query}

theorem clauses_mem_made {cap : Clauses.Cap} (h : parse text key cap = .ok q) :
    q.clauses ∈ made text key cap := by
  obtain ⟨ts, hts, h⟩ := exists_of_bind_eq_ok h
  obtain ⟨clauses, hclauses, h⟩ := exists_of_bind_eq_ok h
  obtain rfl : Query.mk clauses = q := Except.ok.inj h
  rw [made, hts]
  change clauses ∈ (Tree.ofTokens ts).elim _ _
  cases htree : Tree.ofTokens ts with
  | none =>
    rw [htree] at hclauses
    rw [← Except.ok.inj hclauses]
    exact List.mem_cons_self
  | some t =>
    rw [htree, Clauses.ofTree?, Clauses.ofTree_eq_clausesWithin] at hclauses
    have hwalk : Clauses.walk cap [.visit t] [] = .ok [clauses] := by
      rw [Clauses.walk_visit, hclauses]
      change Clauses.walk cap [] [clauses] = _
      rw [Clauses.walk]
    rcases Clauses.mem_made_of_walk hwalk List.mem_cons_self with hmem | hmem
    · exact absurd hmem List.not_mem_nil
    · exact hmem

theorem length_le_of_mem_made {m : Nat} (hm : 1 ≤ m) {clauses : List (Clause Term)}
    (hmem : clauses ∈ made text key (some m)) : clauses.length ≤ m := by
  rw [made] at hmem
  split at hmem
  · rename_i ts _
    cases htree : Tree.ofTokens ts with
    | none =>
      rw [htree] at hmem
      rw [List.mem_singleton.mp hmem]
      exact hm
    | some t =>
      rw [htree] at hmem
      exact Clauses.length_le_of_mem_made hm hmem
  · exact nomatch hmem

/-- A text that is a query without a cap is one under a cap exactly when no list made without the cap
is longer than it. -/
theorem exists_parse_iff {m : Nat} (hm : 1 ≤ m) (h : parse text key none = .ok q) :
    (∃ q', parse text key (some m) = .ok q') ↔
      ∀ clauses ∈ made text key none, clauses.length ≤ m := by
  obtain ⟨ts, hts, -⟩ := exists_of_bind_eq_ok h
  have hparse : parse text key (some m)
      = (Clauses.ofTree? (some (m : Int)) (Tree.ofTokens ts)).map Query.mk := by
    rw [parse, hts]
    rfl
  rw [hparse, made, hts]
  change _ ↔ ∀ clauses ∈ (Tree.ofTokens ts).elim _ _, _
  cases Tree.ofTokens ts with
  | none => exact ⟨fun _ ↦ List.forall_mem_singleton.mpr hm, fun _ ↦ ⟨_, rfl⟩⟩
  | some t =>
    rw [Option.elim_some, ← Clauses.exists_walk_iff hm, Clauses.ofTree?, Clauses.ofTree]
    constructor
    · rintro ⟨q', hq'⟩
      obtain ⟨out, hout⟩ | ⟨fault, hfault⟩ :=
        exists_ok_or_exists_error (Clauses.walk (some (m : Int)) [.visit t] [])
      · exact ⟨out, hout⟩
      · rw [hfault] at hq'
        cases hq'
    · rintro ⟨out, hout⟩
      rw [hout]
      exact ⟨_, rfl⟩

end Query

/-! ## The lists that applying a query makes -/

namespace Matching.Trace

variable {text : String} {n : Nat}

/-- Whether a text is a query of so many clauses where no cap is set. -/
def IsParsed (text : String) (n : Nat) : Prop :=
  ∃ q, Query.parse text Query.anyField none = .ok q ∧ q.clauses.length = n

theorem isParsed_of_mem_ofProperty {value : Value} {expression : String}
    (h : .parsed text n ∈ ofProperty value expression) : IsParsed text n := by
  rw [ofProperty, List.mem_append] at h
  rcases h with h | h
  · cases hq : Query.parse expression Query.anyField none with
    | ok q =>
      rw [hq] at h
      cases List.mem_singleton.mp h
      exact ⟨q, hq, rfl⟩
    | error fault =>
      rw [hq] at h
      exact nomatch List.mem_singleton.mp h
  · split at h
    · exact nomatch isRejection_of_mem_ofClauses h
    · exact nomatch h

theorem isParsed_of_mem_ofRequest {frontmatter : Value} {r : Request}
    (h : .parsed text n ∈ ofRequest frontmatter r) : IsParsed text n := by
  unfold ofRequest at h
  by_cases hempty : (r.name.isEmpty || r.expression.isEmpty) = true
  · rw [if_pos hempty] at h
    exact nomatch h
  · rw [if_neg hempty] at h
    split at h
    · split at h
      · exact nomatch h
      · exact nomatch h
      · exact isParsed_of_mem_ofProperty h
    · exact nomatch h

theorem isParsed_of_mem_ofField {s : Subject} {key operand : String}
    (h : .parsed text n ∈ ofField s key operand) : IsParsed text n := by
  rw [ofField] at h
  split at h
  · exact nomatch isRejection_of_mem_ofParts h
  · split at h
    · rw [ofReferences] at h
      split at h
      · exact nomatch isRejection_of_mem_ofParts h
      · exact nomatch h
    · split at h
      · rw [ofPayload] at h
        split at h
        · exact isParsed_of_mem_ofRequest h
        · exact nomatch List.mem_singleton.mp h
      · exact nomatch isRejection_of_mem_ofOperand h

theorem isParsed_of_mem_ofSubject {clauses : List (Clause Term)} {defaultKey : String} {s : Subject}
    (h : .parsed text n ∈ ofSubject clauses defaultKey s) : IsParsed text n := by
  obtain ⟨clause, -, h⟩ := mem_walk h
  obtain ⟨t, -, h⟩ := mem_walk h
  rw [ofTerm] at h
  split at h
  · exact nomatch h
  · exact isParsed_of_mem_ofField h

end Matching.Trace

/-! ## The lists that a search makes -/

/-- The lists of clauses that are made where an event tells that a text has been read as a query. -/
def Event.made : Event → List (List (Clause Term))
  | parsed text _ => Query.made text Query.anyField none
  | _ => []

namespace Search

/-- The lists of clauses that are made while a query is read and applied. -/
def made (s : Search) (text : String) (q : Query) (subject : Subject) : List (List (Clause Term)) :=
  Query.made text Query.anyField s.cap
    ++ (Matching.Trace.ofSubject q.clauses s.defaultKey subject).flatMap Event.made

/-- **How far a cap reaches.** No list that is made while a query is read is longer than the cap. The
expressions that are read while the query is applied make lists of their own, and these stay within
the cap exactly where the search accepts the expression as a query. -/
theorem length_made_le_cap_iff (s : Search) {m : Nat} (hm : 1 ≤ m) (hcap : s.cap = some (m : Int))
    {text : String} {q : Query} (hq : s.parse text = .ok q) (subject : Subject) :
    q.clauses ∈ Query.made text Query.anyField s.cap ∧
    (∀ clauses ∈ Query.made text Query.anyField s.cap, clauses.length ≤ m) ∧
    ∀ expression n,
      .parsed expression n ∈ Matching.Trace.ofSubject q.clauses s.defaultKey subject →
        (∃ clauses ∈ (Event.parsed expression n).made, clauses.length = n) ∧
        ((∀ clauses ∈ (Event.parsed expression n).made, clauses.length ≤ m) ↔
          ∃ nested, s.parse expression = .ok nested) := by
  refine ⟨Query.clauses_mem_made hq, fun clauses hmem ↦ ?_, fun expression n hparsed ↦ ?_⟩
  · rw [hcap] at hmem
    exact Query.length_le_of_mem_made hm hmem
  · obtain ⟨nested, hnested, hlen⟩ := Matching.Trace.isParsed_of_mem_ofSubject hparsed
    refine ⟨⟨nested.clauses, Query.clauses_mem_made hnested, hlen⟩, ?_⟩
    rw [parse, hcap]
    exact (Query.exists_parse_iff hm hnested).symm

/-! ### A property term with two alternatives -/

theorem parse_two_alternatives :
    (Search.mk "default" (some 1)).parse "[s: a OR b]"
      = .ok ⟨[[⟨"prop", Property.payload "s" (some "a OR b"), false⟩]]⟩ := by
  have hend : ∀ c ∈ ([] : List Char).head?, c = ' ' := fun c hc ↦ nomatch hc
  have hpass : Scan.pass (Text.lower "default".toList) "[s: a OR b]".toList
      = .read (some (.term ⟨"prop", Property.payload "s" (some "a OR b"), false⟩)) [] :=
    Spelling.pass_text (s := .property false ['s'] (some "a OR b".toList)) (by decide +kernel) hend _
  rw [parse, Query.parse, tokenize, Query.anyField, Scan.tokens_of_read hpass, Scan.tokens_nil]
  change (Clauses.ofTree _ (.leaf _)).map Query.mk = _
  rw [Clauses.ofTree_eq_clausesWithin]
  rfl

theorem parsed_two_alternatives :
    .parsed "a OR b" 2 ∈ Matching.Trace.ofSubject
      [[⟨"prop", Property.payload "s" (some "a OR b"), false⟩]] "default"
      (.ofRecord ⟨"n.md", "", none, [(.str "s", .str "a")], [], []⟩) := by
  have htrace : Matching.Trace.ofSubject
      [[⟨"prop", Property.payload "s" (some "a OR b"), false⟩]] "default"
      (.ofRecord ⟨"n.md", "", none, [(.str "s", .str "a")], [], []⟩) = [.parsed "a OR b" 2] := by cbv
  rw [htrace]
  exact List.mem_cons_self

/-- Under the cap of one clause `a OR b` is refused, yet it is read as the expression of a property. -/
theorem length_made_le_cap_iff_two_alternatives :
    (Search.mk "default" (some 1)).parse "[s: a OR b]"
      = .ok ⟨[[⟨"prop", Property.payload "s" (some "a OR b"), false⟩]]⟩ ∧
    ¬∃ nested, (Search.mk "default" (some 1)).parse "a OR b" = .ok nested := by
  refine ⟨parse_two_alternatives, fun hnested ↦ ?_⟩
  obtain ⟨⟨clauses, hmem, hlen⟩, hiff⟩ := (length_made_le_cap_iff ⟨"default", some 1⟩ (le_refl 1) rfl
    parse_two_alternatives _).2.2 _ _ parsed_two_alternatives
  have hle := hiff.mpr hnested clauses hmem
  omega

/-- A list that is longer than the cap is made while a query is applied. -/
theorem not_forall_length_made_le_cap :
    ¬∀ (s : Search) (m : Nat) (text : String) (q : Query) (r : Record), 1 ≤ m → s.cap = some (m : Int) →
      s.parse text = .ok q → ∀ clauses ∈ s.made text q (.ofRecord r), clauses.length ≤ m := by
  intro h
  obtain ⟨nested, hnested, hlen⟩ := Matching.Trace.isParsed_of_mem_ofSubject parsed_two_alternatives
  have hle := h ⟨"default", some 1⟩ 1 _ _ _ (le_refl 1) rfl parse_two_alternatives nested.clauses
    (List.mem_append_right _ (List.mem_flatMap.mpr
      ⟨_, parsed_two_alternatives, Query.clauses_mem_made hnested⟩))
  omega

end Search

end NoteQuery
