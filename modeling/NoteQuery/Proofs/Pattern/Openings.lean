import NoteQuery.Proofs.Pattern.Following
import NoteQuery.Proofs.Text.Trim

/-!
# Openings of groups, comments and sets

What stands behind an opening parenthesis is followed in the respelled pattern unless the parenthesis is
the opening of a named group in its second spelling: that one is refused, wherever a group may open. A name
that runs over such an opening is no name. Comments are passed over with what they contain, and in sets
no opening is met before they are closed.
-/

namespace NoteQuery

/-! ## Names and numbers -/

theorem Text.notMem_of_isIdentifier {cs : List Char} (h : isIdentifier cs = true) {c : Char}
    (hstart : identifierStartRanges.contains c.toNat = false)
    (hpart : identifierPartRanges.contains c.toNat = false) : c ∉ cs := by
  cases cs with
  | nil => simp
  | cons d rest =>
    rw [isIdentifier, Bool.and_eq_true, List.all_eq_true] at h
    rw [List.mem_cons]
    rintro (rfl | hmem)
    · rw [hstart] at h
      cases h.1
    · have := h.2 c hmem
      rw [hpart] at this
      cases this

theorem Number.digitsFrom_eq_none {base : Nat} {c : Char} (hc : digitValue? base c = none)
    {cs : List Char} (hmem : c ∈ cs) (acc : Nat) : digitsFrom base acc cs = none := by
  induction cs generalizing acc with
  | nil => cases hmem
  | cons d cs ih =>
    rw [digitsFrom]
    rcases List.mem_cons.mp hmem with rfl | hmem
    · rw [hc]
      rfl
    · cases digitValue? base d with
      | none => rfl
      | some n => exact ih hmem _

/-- A numeral in base ten has only digits, low lines, signs and blanks. -/
theorem Number.int?_ten_eq_none {c : Char} (hdigit : digitValue? 10 c = none) (hsign : c ∉ ['-', '+', '_'])
    (hblank : Text.isBlank c = false) {cs : List Char} (hmem : c ∈ cs) : int? 10 cs = none := by
  have htrim : c ∈ Text.trim cs := Text.mem_trim_of_mem hblank hmem
  have hbody : c ∈ dropBase 10 (splitSign (Text.trim cs)).2 := by
    have hbase : ∀ ds, dropBase 10 ds = ds := by
      intro ds
      unfold dropBase
      split <;> rfl
    rw [hbase]
    unfold splitSign
    split
    · rename_i rest heq
      rw [heq, List.mem_cons] at htrim
      exact htrim.resolve_left fun hc ↦ hsign (by simp [hc])
    · rename_i rest heq
      rw [heq, List.mem_cons] at htrim
      exact htrim.resolve_left fun hc ↦ hsign (by simp [hc])
    · exact htrim
  have hdigits : c ∈ (dropBase 10 (splitSign (Text.trim cs)).2).filter (· != '_') :=
    List.mem_filter.mpr ⟨hbody, bne_iff_ne.mpr fun hc ↦ hsign (by simp [hc])⟩
  have hnone : digits? 10 ((dropBase 10 (splitSign (Text.trim cs)).2).filter (· != '_')) = none := by
    rw [digits?]
    split
    · rfl
    · exact digitsFrom_eq_none hdigit hdigits 0
  unfold int?
  simp only
  split
  · rfl
  · split
    · rfl
    · rw [hnone]
      rfl

namespace Pattern

open Reader

variable {α : Type} {I : List Piece → Prop} {s : Reading}

/-! ## Names -/

theorem isIdentifier_eq_false_of_mem {cs : List Char} {c : Char} (hc : c ∈ ['(', '?']) (hmem : c ∈ cs) :
    Text.isIdentifier cs = false := by
  refine eq_false_of_ne_true fun h ↦ ?_
  rw [List.mem_pair] at hc
  rcases hc with rfl | rfl
  · exact Text.notMem_of_isIdentifier h (by decide +kernel) (by decide +kernel) hmem
  · exact Text.notMem_of_isIdentifier h (by decide +kernel) (by decide +kernel) hmem

theorem int?_eq_none_of_mem {cs : List Char} {c : Char} (hc : c ∈ ['(', '?']) (hmem : c ∈ cs) :
    Number.int? 10 cs = none := by
  rw [List.mem_pair] at hc
  rcases hc with rfl | rfl
  · exact Number.int?_ten_eq_none (by decide +kernel) (by decide) (by decide) hmem
  · exact Number.int?_ten_eq_none (by decide +kernel) (by decide) (by decide) hmem

theorem run_name (stop : Char) (s : Reading) :
    (name stop).run s =
      match before stop s.rest with
      | some (c :: cs, after) =>
        if after.head? = some .broken then .error .malformed else .ok (c :: cs, { s with rest := after })
      | _ => .error .malformed := by
  change (match before stop s.rest with
    | some (c :: cs, after) => goTo after >>= fun _ ↦ pure (c :: cs)
    | _ => malformed : Reader (List Char)).run s = _
  split
  · rw [StateT.run_bind, run_goTo]
    split <;> rfl
  · rfl

/-- A name is followed if it is not taken for one when it runs over an opening of a group. -/
theorem follows_name_bind {stop : Char} (hstop : stop ∉ ['(', '?', 'P']) (h : OpensOutsideSets s.rest)
    {f f' : List Char → Reader α}
    (hfail : ∀ n t, '(' ∈ n → (f n).run t = .error .malformed)
    (hf : ∀ n t, OpensOutsideSets t.rest → Follows I t (f n) (f' n)) :
    Follows I s (name stop >>= f) (name stop >>= f') := by
  intro b s'' hrun
  rw [StateT.run_bind] at hrun
  obtain ⟨⟨n, s'⟩, hname, hfn⟩ := exists_of_bind_eq_ok hrun
  -- only a name with a parenthesis can be another in the respelled pattern
  have hpar : '(' ∉ n := by
    intro hmem
    cases (hfail n s' hmem).symm.trans hfn
  rw [run_name] at hname
  split at hname
  · rename_i c cs after hbefore
    split at hname
    · cases hname
    · rename_i hbroken
      obtain ⟨rfl, rfl⟩ := Prod.mk.inj (Except.ok.inj hname)
      obtain ⟨cs', hrespell, hsame⟩ := exists_before_respell hstop hbefore
      rw [hsame hpar] at hrespell
      obtain ⟨hI, hfn'⟩ := hf _ _ (h.of_suffix (suffix_of_before hbefore)) b s'' hfn
      refine ⟨hI, ?_⟩
      rw [StateT.run_bind, run_name, Reading.rest_respelled, hrespell]
      simp only
      rw [head?_respell, if_neg hbroken]
      exact hfn'
  · cases hname

theorem follows_commentGroup (h : OpensOutsideSets s.rest) :
    Follows OpensOutsideSets s commentGroup commentGroup := by
  rw [commentGroup]
  refine .get_bind ?_
  rw [Reading.rest_respelled]
  rcases hbefore : before ')' s.rest with _ | ⟨cs, after⟩
  · exact .malformed _
  · obtain ⟨cs', hrespell, -⟩ := exists_before_respell (by decide) hbefore
    rw [hrespell]
    exact follows_goTo (h.of_suffix (suffix_of_before hbefore))

theorem follows_namedReference (h : OpensOutsideSets s.rest) :
    Follows OpensOutsideSets s namedReference namedReference := by
  rw [namedReference]
  refine follows_name_bind (by decide) h (fun n t hmem ↦ ?_) fun n t h ↦ ?_
  · rw [isIdentifier_eq_false_of_mem (by simp) hmem]
    rfl
  · refine .ite_not_malformed fun _ ↦ ?_
    refine .bind (follows_groupNamed h n) fun number _ _ h ↦ ?_
    exact .bind (follows_reference h number) fun _ _ _ h ↦ .pure h _

/-- What a condition asks for is a group by name or by number, so it has no parenthesis in it. -/
theorem follows_condition (h : OpensOutsideSets s.rest) :
    Follows OpensOutsideSets s condition condition := by
  rw [condition]
  refine follows_name_bind (by decide) h (fun n t hmem ↦ ?_) fun n t h ↦ .ite (fun _ ↦ ?_) fun _ ↦ ?_
  · rw [isIdentifier_eq_false_of_mem (by simp) hmem, int?_eq_none_of_mem (by simp) hmem]
    rfl
  · refine .bind (follows_groupNamed h n) fun number _ _ h ↦ ?_
    exact .bind (follows_checkReference h number) fun _ _ _ h ↦ .pure h _
  · cases Number.int? 10 n with
    | none => exact .malformed _
    | some value =>
      refine .ite_malformed fun _ ↦ .bind (.modify h rfl) fun _ _ _ h ↦ ?_
      exact .bind (follows_checkReference h _) fun _ _ _ h ↦ .pure h _

/-- A condition does not begin as the opening of a named group goes on. -/
theorem run_condition_of_namesGroup (h : namesGroup s.rest = true) :
    condition.run s = .error .malformed := by
  obtain ⟨rest, hrest, -⟩ := exists_of_namesGroup h
  have hname : (∃ cs t, (name ')').run s = .ok ('?' :: cs, t)) ∨ (name ')').run s = .error .malformed := by
    rw [run_name, hrest, before_cons_of_ne (by decide)]
    rcases before ')' (.plain '<' :: rest) with _ | ⟨cs, after⟩
    · exact .inr rfl
    · simp only [Option.map_some, Piece.chars, List.singleton_append]
      split
      · exact .inr rfl
      · exact .inl ⟨cs, _, rfl⟩
  rw [condition]
  rcases hname with ⟨cs, t, hname⟩ | hname
  · have hmem : '?' ∈ '?' :: cs := List.mem_cons_self
    rw [run_bind_of_ok hname, isIdentifier_eq_false_of_mem (by simp) hmem,
      int?_eq_none_of_mem (by simp) hmem]
    rfl
  · exact run_bind_of_error hname _

/-! ## What opens a group -/

/-- The second spelling of a named group is refused where a group opens. -/
theorem run_opening_of_namesGroup (h : namesGroup s.rest = true) (atStart : Bool) :
    (opening atStart).run s = .error .malformed := by
  obtain ⟨rest, hrest, hequals, hmark⟩ := exists_of_namesGroup h
  have haccept : (accept '?').run s = .ok (true, { s with rest := .plain '<' :: rest }) := by
    rw [run_accept, hrest]
    rfl
  have hnone : ∀ c, rest.head? ≠ some (.plain c) →
      (accept c).run { s with rest } = .ok (false, { s with rest }) := by
    intro c hc
    rw [run_accept, if_neg hc]
  have hnext := run_next { s with rest := .plain '<' :: rest }
  rw [opening, run_bind_of_ok haccept, if_pos rfl]
  split at hnext
  · exact run_bind_of_error hnext _
  · rw [run_bind_of_ok hnext]
    exact (run_bind_of_ok (hnone '=' hequals) _).trans (run_bind_of_ok (hnone '!' hmark) _)

theorem follows_opening (h : OpensOutsideSets s.rest) (atStart : Bool) :
    Follows OpensOutsideSets s (opening atStart) (opening atStart) := by
  have hstays := staysBehind_opensOutsideSets
  rw [opening]
  refine .bind (follows_accept hstays (by decide) (by decide) h) fun found s' _ h ↦ ?_
  refine .ite (fun _ ↦ ?_) fun _ ↦ .pure h _
  refine follows_next_bind h (fun _ hnames ↦ ?_) fun this s'' _ h ↦ ?_
  · exact run_bind_of_error (run_condition_of_namesGroup hnames) _
  · rcases this with _ | c | c | _
    · exact .malformed _
    · dsimp only
      split
      · -- a name or a reference by name
        refine .bind (follows_accept hstays (by decide) (by decide) h) fun _ _ _ h ↦ .ite (fun _ ↦ ?_)
          fun _ ↦ ?_
        · refine follows_name_bind (by decide) h (fun n t hmem ↦ ?_)
            fun n t h ↦ .ite_not_malformed fun _ ↦ .pure h _
          rw [isIdentifier_eq_false_of_mem (by simp) hmem]
          rfl
        · refine .bind (follows_accept hstays (by decide) (by decide) h) fun _ _ _ h ↦ ?_
          exact .ite (fun _ ↦ follows_namedReference h) fun _ ↦ .malformed _
      · exact .pure h _
      · exact .bind (follows_commentGroup h) fun _ _ _ h ↦ .pure h _
      · exact .pure h _
      · exact .pure h _
      · refine .bind (follows_accept hstays (by decide) (by decide) h) fun _ _ _ h ↦ .ite
          (fun _ ↦ .pure h _) fun _ ↦ ?_
        refine .bind (follows_accept hstays (by decide) (by decide) h) fun _ _ _ h ↦ ?_
        exact .ite (fun _ ↦ .pure h _) fun _ ↦ .malformed _
      · exact .bind (follows_condition h) fun _ _ _ h ↦ .pure h _
      · exact .pure h _
      · refine .ite (fun _ ↦ ?_) fun _ ↦ .malformed _
        refine .bind (follows_groupFlags h _) fun found _ _ h ↦ ?_
        cases found with
        | none => exact .ite (fun _ ↦ .pure h _) fun _ ↦ .malformed _
        | some options => exact .pure h _
    · exact .malformed _
    · exact .malformed _

/-! ## Sets -/

/-- The condition on what is left inside a set. -/
def InSet (ps : List Piece) : Prop := OpensBehindBracket 0 ps ∧ OpensOutsideSets ps

theorem staysBehind_inSet : StaysBehind InSet := fun _ _ h hp ↦ ⟨h.1.of_cons hp, h.2.of_cons⟩

theorem follows_setMember (h : InSet s.rest) (p : Piece) :
    Follows InSet s (setMember p) (setMember p) := by
  rcases p with c | c | _
  · exact .pure h _
  · exact follows_setEscape staysBehind_inSet h c
  · exact .malformed _

theorem follows_next_inSet {skip : Nat} (hset : OpensBehindBracket skip s.rest) (h : OpensOutsideSets s.rest) :
    Follows OpensOutsideSets s next next := by
  refine follows_next (fun hhead ↦ ?_) h.tail
  obtain ⟨tail, htail⟩ := List.head?_eq_some_iff.mp hhead
  rw [htail] at hset ⊢
  exact hset.namesGroup_eq_false

theorem follows_setItems {n n' : Nat} (hn : n ≤ n') (items : List SetItem) (h : OpensOutsideSets s.rest)
    (hset : OpensBehindBracket (if items.isEmpty then 1 else 0) s.rest) :
    Follows OpensOutsideSets s (setItems items n) (setItems items n') := by
  induction n generalizing n' s items with
  | zero => exact .malformed _
  | succ n ih =>
    obtain ⟨m, rfl⟩ := Nat.exists_eq_add_one.mpr (Nat.zero_lt_of_lt hn)
    have hn := Nat.le_of_succ_le_succ hn
    rw [setItems, setItems]
    refine .bind (follows_next_inSet hset h) fun this t hnext h ↦ ?_
    rcases this with _ | p
    · exact .malformed _
    refine .ite (fun _ ↦ .pure h _) fun hstop ↦ ?_
    -- the piece does not close the set, unless it comes first, so a bracket is still ahead of any opening
    have hin : InSet t.rest := by
      rw [rest_eq_of_run_next hnext] at hset
      cases hitems : items.isEmpty with
      | true =>
        rw [hitems, if_pos rfl] at hset
        exact ⟨hset.of_cons_first, h⟩
      | false =>
        rw [hitems, if_neg Bool.false_ne_true] at hset
        refine ⟨hset.of_cons ?_, h⟩
        rintro rfl
        exact hstop (by rw [hitems]; rfl)
    refine .bind (follows_setMember hin p) fun low _ _ hin ↦ ?_
    refine .bind (follows_accept staysBehind_inSet (by decide) (by decide) hin) fun dash t _ hin ↦ ?_
    refine .ite (fun _ ↦ ?_) fun _ ↦ ih hn (low :: items) hin.2 hin.1
    -- a range, unless the bracket that closes the set follows the dash
    refine .bind (follows_next_inSet hin.1 hin.2) fun that t' hnext h ↦ ?_
    rcases that with _ | q
    · exact .malformed _
    refine .ite (fun _ ↦ .pure h _) fun hq ↦ ?_
    have hin' : InSet t'.rest := by
      have hset := hin.1
      rw [rest_eq_of_run_next hnext] at hset
      exact ⟨hset.of_cons hq, h⟩
    refine .bind (follows_setMember hin' q) fun high _ _ hin ↦ ?_
    cases low with
    | single a =>
      cases high with
      | single b => exact .ite_malformed fun _ ↦ ih hn (.range a b :: items) hin.2 hin.1
      | _ => exact .malformed _
    | _ => exact .malformed _

theorem follows_bracketed (h : OpensOutsideSets (.plain '[' :: s.rest)) :
    Follows OpensOutsideSets s bracketed bracketed := by
  rw [bracketed]
  refine .bind (follows_accept staysBehind_opensOutsideSets (by decide) (by decide) h.of_cons)
    fun negated t haccept hrest ↦ ?_
  have hset : OpensBehindBracket 1 t.rest := by
    have hcases := eq_of_run_accept haccept
    cases negated with
    | true =>
      rw [if_pos rfl] at hcases
      rw [hcases] at h
      exact h.opensBehindBracket_negated
    | false =>
      rw [if_neg Bool.false_ne_true] at hcases
      rw [hcases.2]
      exact h.opensBehindBracket hcases.1
  have hfuel : t.rest.length + 1 ≤ t.respelled.rest.length + 1 :=
    Nat.add_le_add_right (length_le_length_respell t.rest) 1
  refine .get_bind (.bind (follows_setItems hfuel [] hrest hset) fun items _ _ h ↦ ?_)
  split
  · exact .pure h _
  · exact .pure h _

end Pattern

end NoteQuery
