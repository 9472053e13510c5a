import NoteQuery.Proofs.Outcome
import NoteQuery.Yaml.Lexeme

/-!
# Faults of lexemes

A text that cannot be cut into lexemes is malformed, with one exception: an escape in double quotes may
name a code beyond the last character. No reader of a part of the text looks at what became of another
part, so a lemma for each says what it can meet, and they are put together as the readers are.
-/

namespace NoteQuery.Yaml

/-- Why a text cannot be cut into lexemes. -/
def IsLexicalFault (f : Fault) : Prop := f = .malformed ∨ ∃ code, f = .code code ∧ 0x10FFFF < code

/-- Whether reading a part of a text goes wrong for no other reason. -/
abbrev Lexes {α : Type} (x : Except Fault α) : Prop := Gives x (fun _ ↦ True) IsLexicalFault

variable {α β : Type} {P : α → Prop}

theorem lexes_ok (a : α) : Lexes (.ok a : Except Fault α) := trivial

theorem lexes_malformed : Gives (.error .malformed) P IsLexicalFault := .inl rfl

theorem lexes_ite {c : Prop} [Decidable c] {x y : Except Fault α} (hx : Gives x P IsLexicalFault)
    (hy : Gives y P IsLexicalFault) : Gives (if c then x else y) P IsLexicalFault := by
  split
  · exact hx
  · exact hy

theorem lexes_unless {c : Prop} [Decidable c] {next : Except Fault α}
    (h : Gives next P IsLexicalFault) : Gives (if c then .error .malformed else next) P IsLexicalFault :=
  lexes_ite lexes_malformed h

theorem Lexes.bind {x : Except Fault β} {f : β → Except Fault α} (h : Lexes x)
    (hf : ∀ b, Gives (f b) P IsLexicalFault) : Gives (x >>= f) P IsLexicalFault :=
  Gives.bind h fun b _ ↦ hf b

theorem Lexes.map {x : Except Fault β} {f : β → α} (h : Lexes x) (hf : ∀ b, P (f b)) :
    Gives (x.map f) P IsLexicalFault := Gives.map h fun b _ ↦ hf b

/-! ## Names, tags and directives -/

theorem lexes_readName (p : Place) : Lexes (readName p) := by
  rw [readName]
  exact lexes_unless (lexes_ok _)

theorem lexes_readEscapedBytes (p : Place) (fuel : Nat) : Lexes (readEscapedBytes p fuel) := by
  induction fuel generalizing p with
  | zero => exact trivial
  | succ fuel ih =>
    rw [readEscapedBytes]
    split
    · split
      · exact (ih _).bind fun _ ↦ trivial
      · exact lexes_malformed
    · exact lexes_malformed
    · exact trivial

theorem lexes_readTagText (p : Place) (fuel : Nat) : Lexes (readTagText p fuel) := by
  induction fuel generalizing p with
  | zero => exact trivial
  | succ fuel ih =>
    rw [readTagText]
    dsimp only
    split
    · refine (lexes_readEscapedBytes _ _).bind fun _ ↦ ?_
      exact lexes_unless ((ih _).bind fun _ ↦ trivial)
    · exact trivial

theorem lexes_readUri (p : Place) : Lexes (readUri p) :=
  (lexes_readTagText p _).bind fun _ ↦ lexes_unless (lexes_ok _)

theorem lexes_readHandle (p : Place) : Lexes (readHandle p) := by
  rw [readHandle]
  split
  · exact trivial
  · dsimp only
    split
    · exact trivial
    · exact lexes_malformed
  · exact lexes_malformed

theorem lexes_readTag (p : Place) : Lexes (readTag p) := by
  have hclosed : ∀ found : (Option String × String) × Place,
      Lexes (do if !spaceAt found.2.rest then throw .malformed
                return found) := fun _ ↦ lexes_unless (lexes_ok _)
  rw [readTag]
  split
  · refine (lexes_readUri _).bind fun _ ↦ ?_
    exact lexes_unless ((lexes_ok _).bind hclosed)
  · refine lexes_ite ((lexes_ok _).bind hclosed) (lexes_ite ?_ ?_)
    · refine (lexes_readHandle p).bind fun _ ↦ (lexes_readUri _).bind fun _ ↦ ?_
      exact (lexes_ok _).bind hclosed
    · exact (lexes_readUri _).bind fun _ ↦ (lexes_ok _).bind hclosed

theorem lexes_readVersion (p : Place) : Lexes (readVersion p) := by
  rw [readVersion]
  exact lexes_unless (lexes_unless (lexes_ok _))

theorem lexes_readHandleDirective (p : Place) : Lexes (readHandleDirective p) :=
  (lexes_readHandle _).bind fun _ ↦ lexes_unless <|
    (lexes_readUri _).bind fun _ ↦ lexes_unless (lexes_ok _)

theorem lexes_readDirective (p : Place) : Lexes (readDirective p) := by
  rw [readDirective]
  refine lexes_unless (lexes_ite ((lexes_readVersion _).bind fun _ ↦ ?_)
    (lexes_ite ((lexes_readHandleDirective _).bind fun _ ↦ ?_) ((lexes_ok _).bind fun _ ↦ ?_)))
  -- whatever the directive is, its line has to end
  all_goals
    dsimp only
    split
    · exact trivial
    · exact lexes_malformed

/-! ## Scalars -/

theorem lexes_quotedBreaks (p : Place) (fuel : Nat) : Lexes (quotedBreaks p fuel) := by
  induction fuel generalizing p with
  | zero => exact trivial
  | succ fuel ih =>
    rw [quotedBreaks]
    refine lexes_unless ?_
    dsimp only
    split
    · exact (ih _).bind fun _ ↦ trivial
    · exact trivial

/-- The one reader that meets another fault than that of being malformed. -/
theorem lexes_readCode (n : Nat) (p : Place) : Lexes (readCode n p) := by
  rw [readCode]
  refine lexes_unless ?_
  dsimp only
  split
  · rename_i hcode
    exact .inr ⟨_, rfl, hcode⟩
  · exact trivial

theorem lexes_readQuotedScalar (double : Bool) (p : Place) (fuel : Nat) :
    Lexes (readQuotedScalar double p fuel) := by
  induction fuel generalizing p with
  | zero => exact lexes_malformed
  | succ fuel ih =>
    have hmore : ∀ {q : Place} {f : List CodePoint × Place → List CodePoint × Place},
        Lexes (do let found ← readQuotedScalar double q fuel; return f found) :=
      (ih _).bind fun _ ↦ trivial
    rw [readQuotedScalar]
    split
    · exact lexes_malformed
    · split
      · exact hmore
      · split
        · dsimp only
          split
          · exact (lexes_quotedBreaks _ _).bind fun _ ↦ hmore
          · exact hmore
        · split
          · split
            · split
              · exact hmore
              · exact trivial
            · exact hmore
          · split
            · exact trivial
            · split
              · exact hmore
              · split
                · exact lexes_malformed
                · split
                  · exact hmore
                  · exact (lexes_readCode _ _).bind fun _ ↦ hmore
                  · split
                    · exact (lexes_quotedBreaks _ _).bind fun _ ↦ hmore
                    · exact lexes_malformed

theorem lexes_readBlockSigns (p : Place) : Lexes (readBlockSigns p) := by
  rw [readBlockSigns]
  exact lexes_unless (lexes_ok _)

theorem lexes_readBlock (folded : Bool) (context : Int) (p : Place) :
    Lexes (readBlock folded context p) := by
  refine (lexes_readBlockSigns p).bind fun ⟨_, increment, _⟩ ↦ ?_
  dsimp only
  split
  · cases increment with
    | none => exact trivial
    | some n => exact trivial
  · exact lexes_malformed

/-! ## Steps -/

namespace Lexeme

/-- Whether a lexeme is a fault. -/
def isFault : Lexeme → Bool
  | fault _ => true
  | _ => false

/-- Whether none of some lexemes is a fault. -/
def Sound (lexemes : List Lexeme) : Prop := ∀ l ∈ lexemes, l.isFault = false

theorem sound_nil : Sound [] := fun _ hl ↦ absurd hl List.not_mem_nil

theorem sound_singleton {l : Lexeme} (h : l.isFault = false) : Sound [l] := by
  intro l' hl'
  rw [List.mem_singleton.mp hl', h]

theorem Sound.append {ls ls' : List Lexeme} (h : Sound ls) (h' : Sound ls') : Sound (ls ++ ls') :=
  fun l hl ↦ (List.mem_append.mp hl).elim (h l) (h' l)

theorem Sound.fault_notMem {ls : List Lexeme} (h : Sound ls) (f : Fault) : .fault f ∉ ls :=
  fun hf ↦ Bool.noConfusion (h _ hf)

namespace Reading

/-- Whether a step is sound unless it meets a fault. -/
abbrev Steps (x : Except Fault Step) : Prop := Gives x (fun s ↦ Sound s.lexemes) IsLexicalFault

theorem sound_unwind (r : Reading) (column : Int) : Sound (r.unwind column).1 := by
  rw [unwind]
  split
  · exact sound_nil
  · intro l hl
    rw [List.eq_of_mem_replicate hl]
    rfl

theorem sound_indentTo_append (r : Reading) (column : Nat) {opening l : Lexeme}
    (hopening : opening.isFault = false) (hl : l.isFault = false) :
    Sound ((r.indentTo column opening).1 ++ [l]) := by
  refine Sound.append ?_ (sound_singleton hl)
  rw [indentTo]
  split
  · exact sound_singleton hopening
  · exact sound_nil

theorem lexes_remaining (p : Place) (c : Option Candidate) : Lexes (remaining p c) := by
  cases c with
  | none => exact trivial
  | some c =>
    rw [remaining]
    exact lexes_ite (lexes_ok _) (lexes_unless (lexes_ok _))

theorem gives_advance (r : Reading) : Gives r.advance (fun found ↦ Sound found.1) IsLexicalFault := by
  refine (lexes_remaining _ _).bind fun _ ↦ Gives.bind (Gives.mapM (R := fun _ _ ↦ True) fun c _ ↦
    lexes_remaining _ c) fun _ _ ↦ ?_
  exact sound_unwind _ _

theorem lexes_dropCandidate (r : Reading) : Lexes r.dropCandidate := lexes_unless (lexes_ok _)

theorem lexes_saveCandidate (r : Reading) : Lexes r.saveCandidate :=
  lexes_ite (r.lexes_dropCandidate.map fun _ ↦ trivial) (lexes_ok _)

theorem steps_readEnd (r : Reading) : Steps r.readEnd :=
  (lexes_dropCandidate _).bind fun _ ↦ (sound_unwind _ _).append (sound_singleton rfl)

theorem steps_readDirectiveLine (r : Reading) : Steps r.readDirectiveLine :=
  (lexes_dropCandidate _).bind fun _ ↦ (lexes_readDirective _).bind fun _ ↦
    (sound_unwind _ _).append (sound_singleton rfl)

theorem steps_readDocumentMarker (r : Reading) {marker : Lexeme} (h : marker.isFault = false) :
    Steps (r.readDocumentMarker marker) :=
  (lexes_dropCandidate _).bind fun _ ↦ (sound_unwind _ _).append (sound_singleton h)

theorem steps_readFlowStart (r : Reading) {opening : Lexeme} (h : opening.isFault = false) :
    Steps (r.readFlowStart opening) :=
  (lexes_saveCandidate r).bind fun _ ↦ sound_singleton h

theorem steps_readFlowEnd (r : Reading) {closing : Lexeme} (h : closing.isFault = false) :
    Steps (r.readFlowEnd closing) := by
  refine (lexes_dropCandidate r).bind fun r ↦ ?_
  split
  · exact sound_singleton h
  · exact lexes_malformed

theorem steps_readFlowEntry (r : Reading) : Steps r.readFlowEntry :=
  (lexes_dropCandidate r).bind fun _ ↦ sound_singleton rfl

theorem steps_readEntry (r : Reading) : Steps r.readEntry := by
  have hsound : Sound ((r.indentTo r.place.column sequenceStart).1 ++ [entry]) :=
    r.sound_indentTo_append _ rfl rfl
  exact lexes_unless ((lexes_dropCandidate _).bind fun _ ↦ hsound)

theorem steps_readKey (r : Reading) : Steps r.readKey := by
  have hsound : Sound ((r.indentTo r.place.column mappingStart).1 ++ [key]) :=
    r.sound_indentTo_append _ rfl rfl
  exact lexes_unless ((lexes_dropCandidate _).bind fun _ ↦ hsound)

theorem steps_readValue (r : Reading) : Steps r.readValue := by
  have hsound : Sound ((r.indentTo r.place.column mappingStart).1 ++ [value]) :=
    r.sound_indentTo_append _ rfl rfl
  rw [readValue]
  split
  · exact sound_singleton rfl
  · exact lexes_unless hsound

theorem steps_readProperty (r : Reading) {read : Place → Except Fault (Lexeme × Place)}
    (h : ∀ p, Gives (read p) (fun found ↦ found.1.isFault = false) IsLexicalFault) :
    Steps (r.readProperty read) :=
  (lexes_saveCandidate r).bind fun _ ↦ (h _).bind fun _ hl ↦ sound_singleton hl

theorem steps_readQuoted (r : Reading) (double : Bool) : Steps (r.readQuoted double) :=
  (lexes_saveCandidate r).bind fun _ ↦ (lexes_readQuotedScalar _ _ _).bind fun _ ↦
    sound_singleton rfl

theorem steps_readBlockScalar (r : Reading) (folded : Bool) : Steps (r.readBlockScalar folded) :=
  (lexes_dropCandidate r).bind fun _ ↦ (lexes_readBlock _ _ _).bind fun _ ↦ sound_singleton rfl

theorem steps_readPlainScalar (r : Reading) : Steps r.readPlainScalar :=
  (lexes_saveCandidate r).bind fun _ ↦ sound_singleton rfl

theorem steps_step (r : Reading) : Steps r.step := by
  rw [step]
  split
  · exact r.steps_readEnd
  have hmarker : ∀ c : Char, (if c == '-' then documentStart else documentEnd).isFault = false := by
    intro c
    split
    · rfl
    · rfl
  refine lexes_ite r.steps_readDirectiveLine ?_
  refine lexes_ite (r.steps_readDocumentMarker (hmarker _)) ?_
  refine lexes_ite (r.steps_readFlowStart rfl) ?_
  refine lexes_ite (r.steps_readFlowStart rfl) ?_
  refine lexes_ite (r.steps_readFlowEnd rfl) ?_
  refine lexes_ite (r.steps_readFlowEnd rfl) ?_
  refine lexes_ite r.steps_readFlowEntry ?_
  refine lexes_ite r.steps_readEntry ?_
  refine lexes_ite r.steps_readKey ?_
  refine lexes_ite r.steps_readValue ?_
  refine lexes_ite (r.steps_readProperty fun p ↦ (lexes_readName p.step).map fun _ ↦ rfl) ?_
  refine lexes_ite (r.steps_readProperty fun p ↦ (lexes_readName p.step).map fun _ ↦ rfl) ?_
  refine lexes_ite (r.steps_readProperty fun p ↦ (lexes_readTag p).map fun _ ↦ rfl) ?_
  refine lexes_ite (r.steps_readBlockScalar _) ?_
  refine lexes_ite (r.steps_readBlockScalar _) ?_
  refine lexes_ite (r.steps_readQuoted _) ?_
  refine lexes_ite (r.steps_readQuoted _) ?_
  exact lexes_ite r.steps_readPlainScalar lexes_malformed

/-! ## Runs -/

theorem isLexicalFault_of_mem_run {r : Reading} {fuel : Nat} {f : Fault}
    (h : .fault f ∈ (r.run fuel).1) : IsLexicalFault f := by
  induction fuel generalizing r with
  | zero =>
    obtain rfl := Lexeme.fault.inj (List.mem_singleton.mp h)
    exact .inl rfl
  | succ fuel ih =>
    have hadvance := r.gives_advance
    -- a fault comes from the way to the next lexeme, from the step, or from the rest of the run
    rw [run] at h
    split at h
    · rename_i met heq
      obtain rfl := Lexeme.fault.inj (List.mem_singleton.mp h)
      exact hadvance.fault heq
    · rename_i ends r' heq
      rw [heq] at hadvance
      have hstep := r'.steps_step
      split at h
      · rename_i met heq
        rcases List.mem_append.mp h with h | h
        · exact absurd h (hadvance.fault_notMem f)
        · obtain rfl := Lexeme.fault.inj (List.mem_singleton.mp h)
          exact hstep.fault heq
      · rename_i s heq
        rw [heq] at hstep
        rcases List.mem_append.mp h with h | h
        · exact absurd h ((hadvance.append hstep).fault_notMem f)
        · split at h
          · exact ih h
          · exact nomatch h

end Reading

theorem eq_fault_of_mem_marked {marks : List KeyMark} {l : Lexeme} {number : Nat} {f : Fault}
    (h : .fault f ∈ marked marks l number) : l = .fault f := by
  rw [marked] at h
  split at h
  · split at h
    · exact Eq.symm (by simpa using h)
    · exact Eq.symm (by simpa using h)
  · exact (List.mem_singleton.mp h).symm

/-- **Faults of lexemes.** A fault among the lexemes of a text is that of a malformed text, or of an
escape that names a code beyond the last character. -/
theorem isLexicalFault_of_mem_ofText {cs : List Char} {f : Fault} (h : .fault f ∈ ofText cs) :
    IsLexicalFault f := by
  rw [ofText] at h
  split at h
  · obtain ⟨⟨l, number⟩, hl, h⟩ := List.mem_flatMap.mp h
    obtain rfl := eq_fault_of_mem_marked h
    have hmem : fault f ∈ ((Reading.start cs).run (cs.length + 2)).1 := List.fst_mem_of_mem_zipIdx hl
    exact Reading.isLexicalFault_of_mem_run hmem
  · obtain rfl := Lexeme.fault.inj (List.mem_singleton.mp h)
    exact .inl rfl

end Lexeme

end NoteQuery.Yaml
