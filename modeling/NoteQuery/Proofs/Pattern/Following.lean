import NoteQuery.Proofs.Outcome
import NoteQuery.Proofs.Pattern.Respelling

/-!
# Reading a respelled pattern

A reader of the respelled pieces follows a reader of the pieces: where the one comes to a result, so does
the other, to the same and with the respelled pieces left. What readers do one after the other is followed
step by step, so each reader needs one lemma. A condition on the pieces that are left goes along, because
no piece may be taken that begins an opening of a named group.
-/

namespace NoteQuery.Pattern

variable {α β : Type} {I J : List Piece → Prop} {s : Reading}

open Reader

/-! ## Following a reader -/

/-- The state in which the respelled pattern is read. -/
def Reading.respelled (s : Reading) : Reading := { s with rest := respell s.rest }

namespace Reading

@[simp] theorem rest_respelled (s : Reading) : s.respelled.rest = respell s.rest := rfl

@[simp] theorem names_respelled (s : Reading) : s.respelled.names = s.names := rfl

@[simp] theorem behindFrom_respelled (s : Reading) : s.respelled.behindFrom = s.behindFrom := rfl

@[simp] theorem nextGroup_respelled (s : Reading) : s.respelled.nextGroup = s.nextGroup := rfl

@[simp] theorem closedWidth?_respelled (s : Reading) : s.respelled.closedWidth? = s.closedWidth? := rfl

end Reading

theorem run_bind_of_ok {r : Reader α} {a : α} {s' : Reading} (h : r.run s = .ok (a, s')) (f : α → Reader β) :
    (r >>= f).run s = (f a).run s' := by
  rw [StateT.run_bind, h]
  rfl

theorem run_bind_of_error {r : Reader α} {fault : PatternFault} (h : r.run s = .error fault)
    (f : α → Reader β) : (r >>= f).run s = .error fault := by
  rw [StateT.run_bind, h]
  rfl

/-- Whether `r'` follows `r` from a state on, and what is left then meets `I`. -/
def Follows (I : List Piece → Prop) (s : Reading) (r r' : Reader α) : Prop :=
  ∀ a s', r.run s = .ok (a, s') → I s'.rest ∧ r'.run s.respelled = .ok (a, s'.respelled)

namespace Follows

protected theorem pure (h : I s.rest) (a : α) : Follows I s (pure a) (pure a) := by
  intro b s' hrun
  obtain ⟨rfl, rfl⟩ := Prod.mk.inj (Except.ok.inj hrun)
  exact ⟨h, rfl⟩

protected theorem bind {r r' : Reader α} {f f' : α → Reader β} (h : Follows J s r r')
    (hf : ∀ a s', r.run s = .ok (a, s') → J s'.rest → Follows I s' (f a) (f' a)) :
    Follows I s (r >>= f) (r' >>= f') := by
  intro b s'' hrun
  rw [StateT.run_bind] at hrun
  obtain ⟨⟨a, s'⟩, hr, hfa⟩ := exists_of_bind_eq_ok hrun
  obtain ⟨hJ, hr'⟩ := h a s' hr
  obtain ⟨hI, hfa'⟩ := hf a s' hr hJ b s'' hfa
  exact ⟨hI, (run_bind_of_ok hr' f').trans hfa'⟩

theorem of_run_eq_error {r : Reader α} {fault : PatternFault} (h : r.run s = .error fault) (r' : Reader α) :
    Follows I s r r' := by
  intro a s' hrun
  rw [h] at hrun
  cases hrun

protected theorem malformed (r' : Reader α) : Follows I s malformed r' := of_run_eq_error rfl r'

theorem malformed_bind (f : β → Reader α) (r' : Reader α) : Follows I s (malformed >>= f) r' :=
  of_run_eq_error rfl r'

theorem get_bind {f f' : Reading → Reader α} (h : Follows I s (f s) (f' s.respelled)) :
    Follows I s (get >>= f) (get >>= f') := h

protected theorem modify {f : Reading → Reading} (h : I (f s).rest)
    (hf : f s.respelled = (f s).respelled) : Follows I s (modify f) (modify f) := by
  intro a s' hrun
  obtain ⟨-, rfl⟩ := Prod.mk.inj (Except.ok.inj hrun)
  exact ⟨h, congrArg (fun t ↦ Except.ok ((), t)) hf⟩

protected theorem ite {c : Prop} [Decidable c] {r r' t t' : Reader α} (hpos : c → Follows I s r r')
    (hneg : ¬c → Follows I s t t') : Follows I s (if c then r else t) (if c then r' else t') := by
  by_cases hc : c
  · rw [if_pos hc, if_pos hc]
    exact hpos hc
  · rw [if_neg hc, if_neg hc]
    exact hneg hc

theorem ite_malformed {c : Prop} [Decidable c] {f f' : Unit → Reader α} (h : ¬c → Follows I s (f ()) (f' ())) :
    Follows I s (if c then malformed >>= f else f ()) (if c then malformed >>= f' else f' ()) :=
  .ite (fun _ ↦ malformed_bind f _) h

theorem ite_throw {c : Prop} [Decidable c] {fault : PatternFault} {f f' : Unit → Reader α}
    (h : ¬c → Follows I s (f ()) (f' ())) :
    Follows I s (if c then throw fault >>= f else f ()) (if c then throw fault >>= f' else f' ()) :=
  .ite (fun _ ↦ of_run_eq_error rfl _) h

theorem ite_not_malformed {c : Prop} [Decidable c] {f f' : Unit → Reader α}
    (h : c → Follows I s (f ()) (f' ())) :
    Follows I s (if c then f () else malformed >>= f) (if c then f' () else malformed >>= f') :=
  .ite h fun _ ↦ malformed_bind f _

end Follows

/-! ## Pieces -/

theorem run_goTo (rest : List Piece) (s : Reading) :
    (goTo rest).run s
      = if rest.head? = some .broken then .error .malformed else .ok ((), { s with rest }) := by
  rw [goTo]
  split <;> rfl

theorem run_next (s : Reading) :
    next.run s
      = if s.rest.tail.head? = some .broken then .error .malformed
        else .ok (s.rest.head?, { s with rest := s.rest.tail }) := by
  change (goTo s.rest.tail >>= fun _ ↦ pure s.rest.head?).run s = _
  rw [StateT.run_bind, run_goTo]
  split <;> rfl

theorem run_accept (c : Char) (s : Reading) :
    (accept c).run s
      = if s.rest.head? = some (.plain c) then
          if s.rest.tail.head? = some .broken then .error .malformed
          else .ok (true, { s with rest := s.rest.tail })
        else .ok (false, s) := by
  change (if s.rest.head? = some (.plain c) then next >>= fun _ ↦ pure true else pure false : Reader Bool).run s
    = _
  split
  · rw [StateT.run_bind, run_next]
    split <;> rfl
  · rfl

theorem eq_of_run_next {a : Option Piece} {s' : Reading} (h : next.run s = .ok (a, s')) :
    a = s.rest.head? ∧ s' = { s with rest := s.rest.tail } := by
  rw [run_next] at h
  split at h
  · cases h
  · obtain ⟨rfl, rfl⟩ := Prod.mk.inj (Except.ok.inj h)
    exact ⟨rfl, rfl⟩

theorem rest_eq_of_run_next {p : Piece} {s' : Reading} (h : next.run s = .ok (some p, s')) :
    s.rest = p :: s'.rest := by
  obtain ⟨hp, rfl⟩ := eq_of_run_next h
  exact List.eq_cons_of_mem_head? hp.symm

theorem eq_of_run_accept {c : Char} {found : Bool} {s' : Reading} (h : (accept c).run s = .ok (found, s')) :
    if found then s.rest = .plain c :: s'.rest else s.rest.head? ≠ some (.plain c) ∧ s' = s := by
  rw [run_accept] at h
  split at h
  · rename_i hhead
    split at h
    · cases h
    · obtain ⟨rfl, rfl⟩ := Prod.mk.inj (Except.ok.inj h)
      exact List.eq_cons_of_mem_head? hhead
  · rename_i hhead
    obtain ⟨rfl, rfl⟩ := Prod.mk.inj (Except.ok.inj h)
    exact ⟨hhead, rfl⟩

/-- The readers of the respelled pieces go on where those of the pieces do. -/
theorem follows_goTo {rest : List Piece} (h : I rest) : Follows I s (goTo rest) (goTo (respell rest)) := by
  intro a s' hrun
  rw [run_goTo] at hrun
  split at hrun
  · cases hrun
  · rename_i hbroken
    obtain ⟨-, rfl⟩ := Prod.mk.inj (Except.ok.inj hrun)
    refine ⟨h, ?_⟩
    rw [run_goTo, head?_respell, if_neg hbroken]
    rfl

theorem follows_peek (h : I s.rest) : Follows I s peek peek := by
  intro a s' hrun
  obtain ⟨rfl, rfl⟩ := Prod.mk.inj (Except.ok.inj hrun)
  refine ⟨h, ?_⟩
  change Except.ok ((respell s.rest).head?, s.respelled) = _
  rw [head?_respell]

/-- A piece may be taken if no opening of a named group begins with it. -/
theorem follows_next (hopening : s.rest.head? = some (.plain '(') → namesGroup s.rest.tail = false)
    (h : I s.rest.tail) : Follows I s next next := by
  intro a s' hrun
  rw [run_next] at hrun
  split at hrun
  · cases hrun
  · rename_i hbroken
    obtain ⟨rfl, rfl⟩ := Prod.mk.inj (Except.ok.inj hrun)
    refine ⟨h, ?_⟩
    rw [run_next, Reading.rest_respelled, tail_respell hopening, head?_respell, head?_respell, if_neg hbroken]
    rfl

/-! ## Characters of a class

The readers below take characters, but neither an opening parenthesis nor a closing bracket. -/

/-- Whether a condition on what is left stays when a piece is taken that closes no set. -/
def StaysBehind (I : List Piece → Prop) : Prop := ∀ p ps, I (p :: ps) → p ≠ .plain ']' → I ps

theorem staysBehind_opensOutsideSets : StaysBehind OpensOutsideSets := fun _ _ h _ ↦ h.of_cons

theorem StaysBehind.tail (hI : StaysBehind I) {c : Char} (hc : c ≠ ']') (h : I s.rest)
    (hhead : s.rest.head? = some (.plain c)) : I s.rest.tail := by
  obtain ⟨tail, htail⟩ := List.head?_eq_some_iff.mp hhead
  rw [htail] at h ⊢
  exact hI _ _ h fun hp ↦ hc (Piece.plain.inj hp)

theorem follows_next_of_head (hI : StaysBehind I) {c : Char} (hopening : c ≠ '(') (hclosing : c ≠ ']')
    (h : I s.rest) (hhead : s.rest.head? = some (.plain c)) : Follows I s next next := by
  refine follows_next (fun hpar ↦ ?_) (hI.tail hclosing h hhead)
  rw [hhead, Option.some_inj, Piece.plain.injEq] at hpar
  exact absurd hpar hopening

theorem follows_accept (hI : StaysBehind I) {c : Char} (hopening : c ≠ '(') (hclosing : c ≠ ']')
    (h : I s.rest) : Follows I s (accept c) (accept c) := by
  rw [accept]
  refine .get_bind ?_
  rw [Reading.rest_respelled, head?_respell]
  refine .ite (fun hhead ↦ ?_) fun _ ↦ .pure h false
  exact .bind (follows_next_of_head hI hopening hclosing h hhead) fun _ _ _ hrest ↦ .pure hrest true

theorem follows_expect (hI : StaysBehind I) {c : Char} (hopening : c ≠ '(') (hclosing : c ≠ ']')
    (h : I s.rest) : Follows I s (expect c) (expect c) := by
  rw [expect]
  refine .bind (follows_accept hI hopening hclosing h) fun found s' _ hrest ↦ ?_
  cases found with
  | true => exact .pure hrest ()
  | false => exact .malformed _

theorem eq_of_run_peek {a : Option Piece} {s' : Reading} (h : peek.run s = .ok (a, s')) :
    a = s.rest.head? ∧ s' = s := by
  obtain ⟨rfl, rfl⟩ := Prod.mk.inj (Except.ok.inj h)
  exact ⟨rfl, rfl⟩

theorem run_upTo_of_eq_nil (hrest : s.rest = []) (n : Nat) (cls : Char → Bool) :
    (upTo n cls).run s = .ok ([], s) := by
  cases n with
  | zero => rfl
  | succ n =>
    have hpeek : peek.run s = .ok (none, s) := by
      change Except.ok (s.rest.head?, s) = _
      rw [hrest, List.head?_nil]
    rw [upTo, StateT.run_bind, hpeek]
    rfl

theorem follows_upTo_of_eq_nil (hrest : s.rest = []) (h : I s.rest) (n n' : Nat) (cls : Char → Bool) :
    Follows I s (upTo n cls) (upTo n' cls) := by
  intro a s' hrun
  obtain ⟨rfl, rfl⟩ := Prod.mk.inj (Except.ok.inj ((run_upTo_of_eq_nil hrest n cls).symm.trans hrun))
  exact ⟨h, run_upTo_of_eq_nil (by rw [Reading.rest_respelled, hrest, respell]) n' cls⟩

/-- Up to so many characters, or as many as there are pieces left, are read alike. -/
theorem follows_upTo (hI : StaysBehind I) {cls : Char → Bool} (hopening : cls '(' = false)
    (hclosing : cls ']' = false) {n n' : Nat} (hn : n = n' ∨ s.rest.length ≤ n ∧ s.rest.length ≤ n')
    (h : I s.rest) : Follows I s (upTo n cls) (upTo n' cls) := by
  induction n generalizing n' s with
  | zero =>
    rcases hn with rfl | ⟨hle, -⟩
    · exact .pure h []
    · exact follows_upTo_of_eq_nil (List.length_eq_zero_iff.mp (Nat.le_zero.mp hle)) h 0 n' cls
  | succ n ih =>
    -- if one of the two bounds is reached, both are or nothing is left
    cases n' with
    | zero =>
      obtain ⟨-, hle⟩ := hn.resolve_left (Nat.succ_ne_zero n)
      exact follows_upTo_of_eq_nil (List.length_eq_zero_iff.mp (Nat.le_zero.mp hle)) h _ 0 cls
    | succ n' =>
      rw [upTo, upTo]
      refine .bind (follows_peek h) fun a s' hpeek h ↦ ?_
      obtain ⟨rfl, rfl⟩ := eq_of_run_peek hpeek
      rcases hhead : s'.rest.head? with _ | c | c | _
      · exact .pure h []
      · refine .ite (fun hc ↦ ?_) fun _ ↦ .pure h []
        have hpar : c ≠ '(' := by
          rintro rfl
          exact absurd hc (ne_true_of_eq_false hopening)
        have hbracket : c ≠ ']' := by
          rintro rfl
          exact absurd hc (ne_true_of_eq_false hclosing)
        refine .bind (follows_next_of_head hI hpar hbracket h hhead) fun a s'' hnext h ↦ ?_
        obtain ⟨-, rfl⟩ := eq_of_run_next hnext
        refine .bind (ih ?_ h) fun cs _ _ h ↦ .pure h (c :: cs)
        simp only [List.length_tail]
        omega
      · exact .pure h []
      · exact .pure h []

theorem follows_span (hI : StaysBehind I) {cls : Char → Bool} (hopening : cls '(' = false)
    (hclosing : cls ']' = false) (h : I s.rest) : Follows I s (span cls) (span cls) := by
  rw [span]
  exact .get_bind (follows_upTo hI hopening hclosing
    (.inr ⟨Nat.le_refl _, length_le_length_respell s.rest⟩) h)

/-! ## Groups -/

theorem follows_checkReference (h : I s.rest) (number : Nat) :
    Follows I s (checkReference number) (checkReference number) := by
  rw [checkReference]
  refine .get_bind ?_
  rw [Reading.behindFrom_respelled, Reading.closedWidth?_respelled]
  cases s.behindFrom with
  | none => exact .pure h ()
  | some first => exact .ite (fun _ ↦ .malformed _) fun _ ↦ .pure h ()

theorem follows_groupNamed (h : I s.rest) (name : List Char) :
    Follows I s (groupNamed name) (groupNamed name) := by
  rw [groupNamed]
  refine .get_bind ?_
  rw [Reading.names_respelled]
  cases s.names.lookup name with
  | none => exact .malformed _
  | some n => exact .pure h n

theorem follows_openGroup (h : I s.rest) (name : Option (List Char)) :
    Follows I s (openGroup name) (openGroup name) := by
  rw [openGroup]
  refine .get_bind ?_
  dsimp only
  rw [Reading.nextGroup_respelled]
  cases name with
  | none => exact .bind (.modify h rfl) fun _ _ _ h ↦ .pure h _
  | some n =>
    rw [Reading.names_respelled]
    refine .ite_malformed fun _ ↦ ?_
    exact .bind (.modify h rfl) fun _ _ _ h ↦ .pure h _

theorem follows_closeGroup (h : I s.rest) (number : Nat) (p : Pattern) :
    Follows I s (closeGroup number p) (closeGroup number p) := .modify h rfl

/-! ## Escapes -/

theorem follows_hexCode (hI : StaysBehind I) (h : I s.rest) (n : Nat) :
    Follows I s (hexCode n) (hexCode n) := by
  rw [hexCode]
  refine .bind (follows_upTo hI (by decide) (by decide) (.inl rfl) h) fun digits _ _ h ↦ ?_
  refine .ite_malformed fun _ ↦ .ite_malformed fun _ ↦ ?_
  exact .pure h _

theorem follows_codeEscape (hI : StaysBehind I) (h : I s.rest) (c : Char) :
    Follows I s (codeEscape c) (codeEscape c) := by
  rw [codeEscape]
  refine .ite (fun _ ↦ follows_hexCode hI h 2) fun _ ↦ ?_
  refine .ite (fun _ ↦ follows_hexCode hI h 4) fun _ ↦ ?_
  refine .ite (fun _ ↦ follows_hexCode hI h 8) fun _ ↦ ?_
  exact .ite (fun _ ↦ .malformed _) fun _ ↦ .pure h _

theorem follows_octalCode (h : I s.rest) (digits : List Char) :
    Follows I s (octalCode digits) (octalCode digits) := by
  rw [octalCode]
  exact .ite_malformed fun _ ↦ .pure h _

theorem follows_setEscape (hI : StaysBehind I) (h : I s.rest) (c : Char) :
    Follows I s (setEscape c) (setEscape c) := by
  rw [setEscape]
  cases control? c with
  | some code => exact .pure h _
  | none =>
    cases class? c with
    | some item => exact .pure h _
    | none =>
      refine .ite (fun _ ↦ ?_) fun _ ↦ .ite (fun _ ↦ .malformed _) fun _ ↦ ?_
      · refine .bind (follows_upTo hI (by decide) (by decide) (.inl rfl) h) fun digits _ _ h ↦ ?_
        exact .bind (follows_octalCode h _) fun _ _ _ h ↦ .pure h _
      · exact .bind (follows_codeEscape hI h c) fun _ _ _ h ↦ .pure h _

theorem follows_reference (h : I s.rest) (number : Nat) :
    Follows I s (reference number) (reference number) := by
  rw [reference]
  refine .get_bind ?_
  rw [Reading.nextGroup_respelled, Reading.closedWidth?_respelled]
  refine .ite_malformed fun _ ↦ ?_
  exact .bind (follows_checkReference h number) fun _ _ _ h ↦ .pure h _

theorem follows_digitEscape (hI : StaysBehind I) (h : I s.rest) (c : Char) :
    Follows I s (digitEscape c) (digitEscape c) := by
  rw [digitEscape]
  refine .bind (follows_upTo hI (by decide) (by decide) (.inl rfl) h) fun digits _ _ h ↦ ?_
  cases digits with
  | nil => exact follows_reference h _
  | cons d digits =>
    refine .ite (fun _ ↦ ?_) fun _ ↦ follows_reference h _
    refine .bind (follows_upTo hI (by decide) (by decide) (.inl rfl) h) fun digits _ _ h ↦ ?_
    cases digits with
    | nil => exact follows_reference h _
    | cons e digits => exact .bind (follows_octalCode h _) fun _ _ _ h ↦ .pure h _

theorem follows_escape (hI : StaysBehind I) (h : I s.rest) (c : Char) :
    Follows I s (escape c) (escape c) := by
  rw [escape]
  cases anchor? c with
  | some place => exact .pure h _
  | none =>
    cases class? c with
    | some item => exact .pure h _
    | none =>
      cases control? c with
      | some code => exact .pure h _
      | none =>
        refine .ite (fun _ ↦ ?_) fun _ ↦ .ite (fun _ ↦ follows_digitEscape hI h c) fun _ ↦ ?_
        · refine .bind (follows_upTo hI (by decide) (by decide) (.inl rfl) h) fun digits _ _ h ↦ ?_
          exact .pure h _
        · exact .bind (follows_codeEscape hI h c) fun _ _ _ h ↦ .pure h _

/-! ## Repetitions -/

theorem follows_count (h : I s.rest) (digits : List Char) :
    Follows I s (count digits) (count digits) := by
  rw [count]
  exact .ite_throw fun _ ↦ .ite_throw fun _ ↦ .pure h _

theorem follows_bounds? (hI : StaysBehind I) (hstart : I s.rest) : Follows I s bounds? bounds? := by
  rw [bounds?]
  refine .get_bind ?_
  dsimp only
  rw [Reading.rest_respelled, head?_respell]
  refine .ite (fun _ ↦ .pure hstart none) fun _ ↦ ?_
  refine .bind (follows_span hI (by decide) (by decide) hstart) fun low _ _ h ↦ ?_
  refine .bind (follows_accept hI (by decide) (by decide) h) fun comma _ _ h ↦ ?_
  refine .ite (fun _ ↦ .bind (follows_span hI (by decide) (by decide) h) fun high _ _ h ↦ ?_)
    fun _ ↦ .bind (.pure h low) fun high _ _ h ↦ ?_
  -- with and without a comma the bounds are read alike
  all_goals
    refine .bind (follows_accept hI (by decide) (by decide) h) fun brace _ _ h ↦ .ite (fun _ ↦ ?_)
      fun _ ↦ .bind (follows_goTo hstart) fun _ _ _ h ↦ .pure h none
    refine .ite (fun _ ↦ .bind (.pure h 0) fun least _ _ h ↦ ?_)
      fun _ ↦ .bind (follows_count h low) fun least _ _ h ↦ ?_
    all_goals
      refine .ite (fun _ ↦ .pure h _) fun _ ↦ .bind (follows_count h high) fun most _ _ h ↦ ?_
      exact .ite_malformed fun _ ↦ .pure h _

theorem follows_repetition? (hI : StaysBehind I) (h : I s.rest) (sign : Char) :
    Follows I s (repetition? sign) (repetition? sign) := by
  rw [repetition?]
  refine .ite (fun _ ↦ .pure h _) fun _ ↦ .ite (fun _ ↦ .pure h _) fun _ ↦ ?_
  exact .ite (fun _ ↦ .pure h _) fun _ ↦ follows_bounds? hI h

theorem follows_greed (hI : StaysBehind I) (h : I s.rest) : Follows I s greed greed := by
  rw [greed]
  refine .bind (follows_accept hI (by decide) (by decide) h) fun found _ _ h ↦ ?_
  refine .ite (fun _ ↦ .pure h _) fun _ ↦ ?_
  refine .bind (follows_accept hI (by decide) (by decide) h) fun found _ _ h ↦ ?_
  exact .ite (fun _ ↦ .pure h _) fun _ ↦ .pure h _

/-! ## Options -/

theorem OpensOutsideSets.tail {ps : List Piece} (h : OpensOutsideSets ps) : OpensOutsideSets ps.tail :=
  h.of_suffix (List.tail_suffix ps)

/-- Any piece may be taken if what follows fails at an opening of a named group. -/
theorem follows_next_bind (h : OpensOutsideSets s.rest) {f f' : Option Piece → Reader α}
    (hfail : s.rest.head? = some (.plain '(') → namesGroup s.rest.tail = true →
      (f (some (.plain '('))).run { s with rest := s.rest.tail } = .error .malformed)
    (hf : ∀ a t, next.run s = .ok (a, t) → OpensOutsideSets t.rest → Follows I t (f a) (f' a)) :
    Follows I s (next >>= f) (next >>= f') := by
  by_cases hopening : s.rest.head? = some (.plain '(') ∧ namesGroup s.rest.tail = true
  · obtain ⟨hhead, hnames⟩ := hopening
    have hfails : (next >>= f).run s = .error .malformed := by
      have hnext := run_next s
      split at hnext
      · exact run_bind_of_error hnext f
      · rw [run_bind_of_ok hnext, hhead]
        exact hfail hhead hnames
    exact .of_run_eq_error hfails _
  · exact .bind (follows_next (fun hhead ↦ eq_false_of_ne_true fun hnames ↦ hopening ⟨hhead, hnames⟩) h.tail) hf

theorem run_flagsOn_paren (on : PatternFlags) (n : Nat) (s : Reading) :
    (flagsOn on (some (.plain '(')) n).run s = .error .malformed := by
  cases n <;> rfl

theorem run_flagsOff_paren (off : PatternFlags) (n : Nat) (s : Reading) :
    (flagsOff off (some (.plain '(')) n).run s = .error .malformed := by
  cases n <;> rfl

theorem follows_flagsOn {n n' : Nat} (hn : n ≤ n') (h : OpensOutsideSets s.rest) (on : PatternFlags)
    (this : Option Piece) :
    Follows OpensOutsideSets s (flagsOn on this n) (flagsOn on this n') := by
  induction n generalizing n' s on this with
  | zero => exact .malformed _
  | succ n ih =>
    obtain ⟨m, rfl⟩ := Nat.exists_eq_add_one.mpr (Nat.zero_lt_of_lt hn)
    rcases this with _ | c | c | _
    · exact .malformed _
    · rw [flagsOn, flagsOn]
      cases flag? c with
      | none => exact .ite (fun _ ↦ .pure h _) fun _ ↦ .malformed _
      | some f =>
        refine .ite_malformed fun _ ↦ follows_next_bind h (fun _ _ ↦ run_flagsOn_paren _ n _) ?_
        exact fun this _ _ h ↦ ih (Nat.le_of_succ_le_succ hn) h _ this
    · exact .malformed _
    · exact .malformed _

theorem follows_flagsOff {n n' : Nat} (hn : n ≤ n') (h : OpensOutsideSets s.rest) (off : PatternFlags)
    (this : Option Piece) :
    Follows OpensOutsideSets s (flagsOff off this n) (flagsOff off this n') := by
  induction n generalizing n' s off this with
  | zero => exact .malformed _
  | succ n ih =>
    obtain ⟨m, rfl⟩ := Nat.exists_eq_add_one.mpr (Nat.zero_lt_of_lt hn)
    rcases this with _ | c | c | _
    · exact .malformed _
    · rw [flagsOff, flagsOff]
      cases flag? c with
      | none => exact .ite (fun _ ↦ .pure h _) fun _ ↦ .malformed _
      | some f =>
        refine .ite_malformed fun _ ↦ follows_next_bind h (fun _ _ ↦ run_flagsOff_paren _ n _) ?_
        exact fun this _ _ h ↦ ih (Nat.le_of_succ_le_succ hn) h _ this
    · exact .malformed _
    · exact .malformed _

theorem follows_groupFlags (h : OpensOutsideSets s.rest) (first : Char) :
    Follows OpensOutsideSets s (groupFlags first) (groupFlags first) := by
  have hfuel : s.rest.length + 2 ≤ s.respelled.rest.length + 2 :=
    Nat.add_le_add_right (length_le_length_respell s.rest) 2
  rw [groupFlags]
  refine .get_bind ?_
  dsimp only
  refine .ite (fun _ ↦ .bind (.pure h _) fun found _ _ h ↦ ?_)
    fun _ ↦ .bind (follows_flagsOn hfuel h _ _) fun found _ _ h ↦ ?_
  -- the options that are turned on are followed by the same in both cases
  all_goals
    refine .ite (fun _ ↦ .bind (.modify h rfl) fun _ _ _ h ↦ .pure h none) fun _ ↦ .ite_malformed fun _ ↦ ?_
    refine .ite (fun _ ↦ ?_) fun _ ↦ .bind (.pure h _) fun off _ _ h ↦ .ite_malformed fun _ ↦ .pure h _
    refine follows_next_bind h (fun _ _ ↦ run_bind_of_error (run_flagsOff_paren _ _ _) _)
      fun this _ _ h ↦ ?_
    exact .bind (follows_flagsOff hfuel h _ _) fun off _ _ h ↦ .ite_malformed fun _ ↦ .pure h _

end NoteQuery.Pattern
