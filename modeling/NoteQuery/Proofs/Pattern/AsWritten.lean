import Mathlib
import NoteQuery.Proofs.Pattern.Openings

/-!
# Patterns that are read as they are written

A pattern that can be read as it is written has no named group in the second spelling, for such an opening
is refused. What is respelled in it all the same is in a comment, in a set, or behind a backslash. In
comments that makes no difference: the respelled pattern reads as the same pattern, under the same
options, and the literal is found exactly where the pattern is (`test_as_written`).
-/

namespace NoteQuery

namespace Pattern

open Reader

variable {s : Reading}

/-! ## Sequences and alternatives -/

/-- Whether the readers of sequences, alternatives and groups with so much fuel are followed by those with
as much or more. -/
structure FollowedWith (n : Nat) : Prop where
  /-- Alternatives. -/
  alternatives {n' : Nat} {s : Reading} (hn : n ≤ n') (h : OpensOutsideSets s.rest)
    (verbose top first : Bool) :
    Follows OpensOutsideSets s (readAlternatives verbose top first n) (readAlternatives verbose top first n')
  /-- Sequences. -/
  sequence {n' : Nat} {s : Reading} (hn : n ≤ n') (h : OpensOutsideSets s.rest) (verbose first : Bool)
    (parts : List Part) :
    Follows OpensOutsideSets s (readSequence verbose first parts n) (readSequence verbose first parts n')
  /-- Groups. -/
  group {n' : Nat} {s : Reading} (hn : n ≤ n') (h : OpensOutsideSets s.rest) (verbose : Bool)
    (found : Opening) :
    Follows OpensOutsideSets s (readGroup verbose found n) (readGroup verbose found n')

namespace FollowedWith

variable {n m : Nat}

theorem readAlternatives (ih : FollowedWith n) (hn : n ≤ m) (h : OpensOutsideSets s.rest)
    (verbose top first : Bool) :
    Follows OpensOutsideSets s (Pattern.readAlternatives verbose top first (n + 1))
      (Pattern.readAlternatives verbose top first (m + 1)) := by
  rw [Pattern.readAlternatives, Pattern.readAlternatives]
  refine .bind (ih.sequence hn h verbose _ []) fun p _ _ h ↦ ?_
  refine .bind (follows_accept staysBehind_opensOutsideSets (by decide) (by decide) h) fun bar t _ h ↦ ?_
  refine .ite (fun _ ↦ .get_bind ?_) fun _ ↦ .pure h p
  exact .bind (ih.alternatives hn h _ top false) fun q _ _ h ↦ .pure h _

theorem readGroup (ih : FollowedWith n) (hn : n ≤ m) (h : OpensOutsideSets s.rest) (verbose : Bool)
    (found : Opening) :
    Follows OpensOutsideSets s (Pattern.readGroup verbose found (n + 1))
      (Pattern.readGroup verbose found (m + 1)) := by
  have hclose : ∀ {t : Reading}, OpensOutsideSets t.rest →
      Follows OpensOutsideSets t (expect ')') (expect ')') :=
    follows_expect staysBehind_opensOutsideSets (by decide) (by decide)
  cases found with
  | nothing => exact .pure h _
  | complete p => exact .pure h _
  | capture name =>
    rw [Pattern.readGroup, Pattern.readGroup]
    refine .bind (follows_openGroup h name) fun number _ _ h ↦ ?_
    refine .bind (ih.alternatives hn h _ _ _) fun p _ _ h ↦ .bind (hclose h) fun _ _ _ h ↦ ?_
    exact .bind (follows_closeGroup h number p) fun _ _ _ h ↦ .pure h _
  | plain | atomic | flags | ahead =>
    rw [Pattern.readGroup, Pattern.readGroup]
    exact .bind (ih.alternatives hn h _ _ _) fun p _ _ h ↦ .bind (hclose h) fun _ _ _ h ↦ .pure h _
  | behind negated =>
    rw [Pattern.readGroup, Pattern.readGroup]
    refine .get_bind (.ite (fun _ ↦ .bind (.modify h rfl) fun _ _ _ h ↦ ?_) fun _ ↦ ?_)
    all_goals
      refine .bind (ih.alternatives hn h _ _ _) fun p _ _ h ↦ .bind (.modify h rfl) fun _ _ _ h ↦ ?_
      exact .bind (hclose h) fun _ _ _ h ↦ .get_bind (.pure h _)
  | conditional number =>
    rw [Pattern.readGroup, Pattern.readGroup]
    refine .bind (ih.sequence hn h _ _ _) fun yes _ _ h ↦ ?_
    refine .bind (follows_accept staysBehind_opensOutsideSets (by decide) (by decide) h) fun bar _ _ h ↦ ?_
    refine .ite (fun _ ↦ .bind (ih.sequence hn h _ _ _) fun no _ _ h ↦ ?_)
      fun _ ↦ .bind (.pure h _) fun no _ _ h ↦ ?_
    all_goals exact .bind (hclose h) fun _ _ _ h ↦ .pure h _

theorem readSequence (ih : FollowedWith n) (hn : n ≤ m) (h : OpensOutsideSets s.rest) (verbose first : Bool)
    (parts : List Part) :
    Follows OpensOutsideSets s (Pattern.readSequence verbose first parts (n + 1))
      (Pattern.readSequence verbose first parts (m + 1)) := by
  have hstays := staysBehind_opensOutsideSets
  rw [Pattern.readSequence, Pattern.readSequence]
  refine .bind (follows_peek h) fun this s hpeek h ↦ ?_
  obtain ⟨hthis, rfl⟩ := eq_of_run_peek hpeek
  rcases this with _ | c | c | _
  · exact .pure h _
  · refine .ite (fun _ ↦ .pure h _) fun _ ↦ ?_
    refine follows_next_bind h (fun hhead hnames ↦ ?_) fun this t hnext hrest ↦ ?_
    · -- the parenthesis is neither layout nor a comment
      obtain rfl := Piece.plain.inj (Option.some.inj (hthis.trans hhead))
      have hlayout : ¬(verbose && isLayout '(') = true := by cases verbose <;> decide
      have hcomment : ¬(verbose && decide ('(' = '#')) = true := by cases verbose <;> decide
      dsimp only
      rw [if_neg hlayout, if_neg hcomment]
      exact run_bind_of_error (run_opening_of_namesGroup hnames _) _
    · refine .ite (fun _ ↦ ih.sequence hn hrest _ _ _) fun _ ↦ .ite (fun _ ↦ ?_) fun _ ↦ ?_
      · refine .get_bind (.bind ?_ fun _ _ _ h ↦ ih.sequence hn h _ _ _)
        rw [Reading.rest_respelled, skipComment_respell]
        exact follows_goTo (hrest.of_suffix (skipComment_suffix t.rest))
      · split
        · have hbracket : s.rest = .plain '[' :: t.rest := by
            obtain ⟨rfl, rfl⟩ := eq_of_run_next hnext
            exact List.eq_cons_of_mem_head? hthis.symm
          rw [hbracket] at h
          exact .bind (follows_bracketed h) fun p _ _ h ↦ ih.sequence hn h _ _ _
        · exact ih.sequence hn hrest _ _ _
        · exact ih.sequence hn hrest _ _ _
        · exact ih.sequence hn hrest _ _ _
        · refine .bind (follows_opening hrest _) fun found _ _ h ↦ ?_
          refine .bind (ih.group hn h _ _) fun p t _ h ↦ ?_
          cases p with
          | some p => exact ih.sequence hn h _ _ _
          | none => exact .get_bind (ih.sequence hn h _ _ _)
        · refine .ite (fun _ ↦ ?_) fun _ ↦ ih.sequence hn hrest _ _ _
          refine .bind (follows_repetition? hstays hrest _) fun bounds _ _ h ↦ ?_
          cases bounds with
          | none => exact ih.sequence hn h _ _ _
          | some bounds =>
            dsimp only
            split
            · exact .bind (follows_greed hstays h) fun g _ _ h ↦ ih.sequence hn h _ _ _
            · exact .malformed _
  · refine .bind (follows_next (fun hhead ↦ ?_) h.tail) fun _ _ _ h ↦ ?_
    · cases hthis.trans hhead
    · exact .bind (follows_escape hstays h c) fun p _ _ h ↦ ih.sequence hn h _ _ _
  · exact .malformed _

end FollowedWith

theorem followedWith (n : Nat) : FollowedWith n := by
  induction n with
  | zero =>
    refine ⟨fun _ _ _ _ _ ↦ ?_, fun _ _ _ _ _ ↦ ?_, fun _ _ _ _ ↦ ?_⟩
    · rw [readAlternatives]
      exact .malformed _
    · rw [readSequence]
      exact .malformed _
    · rw [readGroup]
      exact .malformed _
  | succ n ih =>
    refine ⟨fun {n'} _ hn h ↦ ?_, fun {n'} _ hn h ↦ ?_, fun {n'} _ hn h ↦ ?_⟩
    -- the readers that follow have fuel left for one more step too
    all_goals
      obtain ⟨m, rfl⟩ := Nat.exists_eq_add_one.mpr (Nat.zero_lt_of_lt hn)
      have hn := Nat.le_of_succ_le_succ hn
    · exact ih.readAlternatives hn h
    · exact ih.readSequence hn h
    · exact ih.readGroup hn h

/-! ## Whole patterns -/

theorem isEmpty_respell (ps : List Piece) : (respell ps).isEmpty = ps.isEmpty := by
  cases ps with
  | nil => rfl
  | cons p rest =>
    rw [respell]
    split <;> rfl

theorem follows_readWhole {size size' : Nat} (hsize : size ≤ size') (h : OpensOutsideSets s.rest)
    (flags : PatternFlags) :
    Follows OpensOutsideSets s (readWhole flags size) (readWhole flags size') := by
  have hfuel : 4 * size + 8 ≤ 4 * size' + 8 := by omega
  rw [readWhole, readWhole]
  refine .get_bind (.bind (follows_goTo h) fun _ _ _ h ↦ ?_)
  refine .bind ((followedWith _).alternatives hfuel h _ _ _) fun p t _ h ↦ .get_bind ?_
  rw [Reading.rest_respelled, isEmpty_respell]
  refine .ite_throw fun _ ↦ .ite_not_malformed fun _ ↦ .ite_not_malformed fun _ ↦ ?_
  exact .ite_not_malformed fun _ ↦ .pure h p

end Pattern

namespace PatternLiteral

open Pattern

theorem length_le_length_openNamedGroups (cs : List Char) : cs.length ≤ (openNamedGroups cs).length := by
  induction cs with
  | nil => exact Nat.le_refl _
  | cons c cs ih =>
    rw [openNamedGroups_cons]
    split
    · simp only [List.length_cons, List.length_tail]
      omega
    · simpa using ih

/-- Whether the respelling of a body leaves the characters alone that the pattern asks for. -/
structure KeepsCharacters (body : List Char) : Prop where
  /-- No escaped parenthesis is taken for that of an opening. -/
  not_escaped : ∀ before after, pieces body = before ++ .escaped '(' :: after → namesGroup after = false
  /-- No opening stands in a set. -/
  outsideSets : OpensOutsideSets (pieces body)

theorem keepsCharacters_iff {body : List Char} :
    KeepsCharacters body ↔
      (∀ before after, pieces body = before ++ .escaped '(' :: after → namesGroup after = false) ∧
        OpensOutsideSets (pieces body) :=
  ⟨fun h ↦ ⟨h.not_escaped, h.outsideSets⟩, fun h ↦ ⟨h.1, h.2⟩⟩

instance : DecidablePred KeepsCharacters := fun _ ↦
  decidable_of_iff _ (keepsCharacters_iff.trans (and_congr_left fun _ ↦ forall_eq_append_cons_iff)).symm

theorem compile_openNamedGroups {body : List Char} (hbody : KeepsCharacters body) {flags : PatternFlags}
    {p : Compiled} (h : Pattern.compile flags body = .ok p) :
    Pattern.compile flags (openNamedGroups body) = .ok p := by
  obtain ⟨⟨found, s⟩, hrun, hp⟩ := exists_of_bind_eq_ok h
  have hfollows := follows_readWhole (length_le_length_openNamedGroups body)
    (s := ⟨pieces body, [], [], flags, none, []⟩) hbody.outsideSets flags
  obtain ⟨-, hrun'⟩ := hfollows found s hrun
  rw [Pattern.compile, pieces_openNamedGroups hbody.not_escaped]
  exact (congrArg (· >>= _) hrun').trans hp

/-! ## Literals -/

theorem eraseDups_eq_self {l : List Char} (h : l.Nodup) : l.eraseDups = l := by
  induction l with
  | nil => rfl
  | cons c l ih =>
    obtain ⟨hmem, hl⟩ := List.nodup_cons.mp h
    have hfilter : l.filter (fun d ↦ !d == c) = l := by
      rw [List.filter_eq_self]
      rintro d hd
      simp only [Bool.not_eq_true', beq_eq_false_iff_ne]
      rintro rfl
      exact hmem hd
    rw [List.eraseDups_cons, hfilter, ih hl]

/-- **Patterns as written.** A literal without repeated flags whose body is a pattern as it stands, and in
which no parenthesis that is a character is taken for the opening of a named group, is found in a text
exactly where this pattern is; with the flag `y`, exactly if it is found at the start. -/
theorem test_as_written {l : PatternLiteral} {p : Compiled} (hflags : l.flags.Nodup)
    (hbody : KeepsCharacters l.body) (h : Pattern.compile (options l.flags) l.body = .ok p)
    (text : List Char) :
    l.test text = .ok (if l.flags.contains 'y' then matchesAt p.flags p.pattern text.toArray 0
      else matchesIn p.flags p.pattern text.toArray) := by
  have hcompile : l.compile = .ok p := by
    rw [compile, eraseDups_eq_self hflags, if_pos rfl, compile_openNamedGroups hbody h]
  rw [test, hcompile]

/-- In `[a-f](?#(?<n>)g` the opening of a named group stands in a comment, behind a set. -/
theorem test_as_written_of_comment :
    ['y', 'm'].Nodup ∧ KeepsCharacters "[a-f](?#(?<n>)g".toList ∧
      (PatternLiteral.mk "[a-f](?#(?<n>)g".toList ['y', 'm']).test "bg".toList = .ok true ∧
      (PatternLiteral.mk "[a-f](?#(?<n>)g".toList ['y', 'm']).test "gbg".toList = .ok false := by
  have hbody : KeepsCharacters "[a-f](?#(?<n>)g".toList := by decide +kernel
  have hcompile : Pattern.compile (options ['y', 'm']) "[a-f](?#(?<n>)g".toList
      = .ok ⟨.seq (.set false [.range 97 102]) (.char false 103),
          { PatternFlags.none with multiline := true, unicode := true }⟩ := by
    cbv
  have hflags : ['y', 'm'].Nodup := by decide
  have htest := test_as_written (l := ⟨"[a-f](?#(?<n>)g".toList, ['y', 'm']⟩) hflags hbody hcompile
  refine ⟨hflags, hbody, (htest _).trans ?_, (htest _).trans ?_⟩
  · cbv
  · cbv

/-- In `[(?<]` the parenthesis is a member of a set, to which the respelling adds a letter. -/
theorem not_forall_test_as_written :
    ¬∀ (l : PatternLiteral) (p : Compiled), l.flags.Nodup →
      Pattern.compile (options l.flags) l.body = .ok p → ∀ text : List Char,
        l.test text = .ok (if l.flags.contains 'y' then matchesAt p.flags p.pattern text.toArray 0
          else matchesIn p.flags p.pattern text.toArray) := by
  intro h
  have hcompile : Pattern.compile (options []) ['[', '(', '?', '<', ']']
      = .ok ⟨.set false [.single 40, .single 63, .single 60],
          { PatternFlags.none with unicode := true }⟩ := by
    cbv
  have htest : test ⟨['[', '(', '?', '<', ']'], []⟩ ['P'] = .ok true := by cbv
  have hwritten := h ⟨['[', '(', '?', '<', ']'], []⟩ _ List.nodup_nil hcompile ['P']
  rw [htest] at hwritten
  exact absurd hwritten (by decide)

end PatternLiteral

end NoteQuery
