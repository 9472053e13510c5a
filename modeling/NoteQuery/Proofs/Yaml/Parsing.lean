import NoteQuery.Proofs.Yaml.Building
import NoteQuery.Proofs.Yaml.Lexing

/-!
# What a YAML text is refused for

A text that is not malformed has a value but for three kinds of things in it: an escape for a code beyond
the last character, a reference behind the anchor of its node, and a scalar that is none of the values of
its tag. Only the tags of truth values, numbers and dates have such scalars.
-/

namespace NoteQuery.Yaml

namespace Node

/-! ## Scalars that are not of their tag -/

/-- Whether a node has a tag of which its text is no value. -/
inductive Misfits (n : Node) : Fault → Prop
  /-- No truth value. -/
  | truth {text : CodeText} {f : Fault} : n.tag = .bool → n.scalarText = .ok text →
      Scalar.truth text.characters = .error f → Misfits n f
  /-- No integer. -/
  | integer {text : CodeText} {f : Fault} : n.tag = .int → n.scalarText = .ok text →
      Scalar.integer text.characters = .error f → Misfits n f
  /-- No number with a fraction. -/
  | float {text : CodeText} {f : Fault} : n.tag = .float → n.scalarText = .ok text →
      Scalar.float text.characters = .error f → Misfits n f
  /-- No date, or none that exists. -/
  | date {text : CodeText} {f : Fault} : n.tag = .timestamp → n.scalarText = .ok text →
      Scalar.timestamp text.characters = .error f → Misfits n f

mutual

theorem eq_malformed_of_scalarText {f : Fault} (n : Node) (h : n.scalarText = .error f) :
    f = .malformed := by
  match n with
  | .scalar t text =>
    rw [scalarText] at h
    exact nomatch h
  | .mapping t entries =>
    rw [scalarText] at h
    exact eq_malformed_of_ownText entries h
  | .sequence t items =>
    rw [scalarText] at h
    exact (Except.error.inj h).symm

theorem eq_malformed_of_ownText {f : Fault} (entries : List (Node × Node))
    (h : ownText entries = .error f) : f = .malformed := by
  match entries with
  | [] =>
    rw [ownText] at h
    exact (Except.error.inj h).symm
  | (k, v) :: rest =>
    rw [ownText] at h
    split at h
    · exact eq_malformed_of_scalarText v h
    · exact eq_malformed_of_ownText rest h

end

theorem gives_readSextets (place carry padding : Nat) (cs : List Char) :
    Gives (Scalar.readSextets place carry padding cs) (fun _ ↦ True) (· = .malformed) := by
  induction cs generalizing place carry padding with
  | nil =>
    rw [Scalar.readSextets]
    split
    · exact trivial
    · exact rfl
  | cons c rest ih =>
    rw [Scalar.readSextets]
    split
    · split
      · split
        · exact trivial
        · exact ih _ _ _
      · exact ih _ _ _
    · split
      · exact ih _ _ _
      · dsimp only
        split
        · exact ih _ _ _
        · exact (ih _ _ _).map fun _ _ ↦ trivial
        · exact (ih _ _ _).map fun _ _ ↦ trivial
        · exact (ih _ _ _).map fun _ _ ↦ trivial

theorem gives_bytes (cs : List Char) :
    Gives (Scalar.bytes cs) (fun _ ↦ True) (· = .malformed) := by
  rw [Scalar.bytes]
  split
  · exact (gives_readSextets 0 0 0 cs).map fun _ _ ↦ trivial
  · exact rfl

variable {n : Node} {f : Fault}

theorem malformed_or_exists_of_scalarValue {read : CodeText → Except Fault Value}
    (h : (n.scalarValue read).map some = .error f) :
    f = .malformed ∨ ∃ text, n.scalarText = .ok text ∧ read text = .error f := by
  rw [scalarValue] at h
  cases htext : n.scalarText with
  | error met =>
    rw [htext] at h
    obtain rfl : met = f := Except.error.inj h
    exact .inl (eq_malformed_of_scalarText n htext)
  | ok text =>
    rw [htext] at h
    change (read text).map some = _ at h
    cases hread : read text with
    | error met =>
      rw [hread] at h
      obtain rfl : met = f := Except.error.inj h
      exact .inr ⟨text, rfl, hread⟩
    | ok v =>
      rw [hread] at h
      exact nomatch h

/-- A node that cannot be built when it is met is malformed or not of its tag. -/
theorem malformed_or_misfits_of_immediate? (h : n.immediate? = .error f) :
    f = .malformed ∨ n.Misfits f := by
  rw [immediate?] at h
  split at h
  · obtain rfl | ⟨text, -, hread⟩ := malformed_or_exists_of_scalarValue h
    · exact .inl rfl
    · exact nomatch hread
  · rename_i htag
    exact (malformed_or_exists_of_scalarValue h).imp_right fun ⟨_, htext, hread⟩ ↦ .truth htag htext hread
  · rename_i htag
    exact (malformed_or_exists_of_scalarValue h).imp_right fun ⟨_, htext, hread⟩ ↦
      .integer htag htext hread
  · rename_i htag
    exact (malformed_or_exists_of_scalarValue h).imp_right fun ⟨_, htext, hread⟩ ↦ .float htag htext hread
  · obtain rfl | ⟨text, -, hread⟩ := malformed_or_exists_of_scalarValue h
    · exact .inl rfl
    · exact .inl ((gives_bytes text.characters).fault hread)
  · rename_i htag
    exact (malformed_or_exists_of_scalarValue h).imp_right fun ⟨_, htext, hread⟩ ↦ .date htag htext hread
  · obtain rfl | ⟨text, -, hread⟩ := malformed_or_exists_of_scalarValue h
    · exact .inl rfl
    · exact nomatch hread
  · exact nomatch h
  · exact nomatch h
  · exact nomatch h
  · exact nomatch h
  · exact nomatch h
  · exact .inl (Except.error.inj h).symm
  · exact .inl (Except.error.inj h).symm
  · exact .inl (Except.error.inj h).symm

end Node

/-! ## Texts -/

/-- What is to blame for the fault of a text that is not malformed. -/
inductive Blames (text : List Char) : Fault → Prop
  /-- An escape for a code beyond the last character. -/
  | code {code : Nat} : .fault (.code code) ∈ Lexeme.ofText text → 0x10FFFF < code →
      Blames text (.code code)
  /-- A reference behind the anchor of its node, which may stand inside the node. -/
  | cycle {name : String} : [.anchor name, .reference name].Sublist (Lexeme.ofText text) →
      Blames text .recursive
  /-- A scalar that is none of the values of its tag. -/
  | scalar {root n : Node} {f : Fault} : Node.ofLexemes (Lexeme.ofText text) = .ok (some root) →
      root.Contains n → n.Misfits f → Blames text f

/-- **Parsing.** A text has a value unless it is malformed or something in it is to blame. -/
theorem gives_parse (text : List Char) :
    Gives (parse text) (fun _ ↦ True) (fun f ↦ f = .malformed ∨ Blames text f) := by
  rw [parse]
  obtain ⟨f, hread, hf⟩ | hread | ⟨root, hread, hdepth⟩ := Node.ofLexemes_outcome (Lexeme.ofText text)
  · rw [hread]
    rcases hf with rfl | hf | ⟨rfl, name, hcycle⟩
    · exact .inl rfl
    · rcases Lexeme.isLexicalFault_of_mem_ofText hf with rfl | ⟨code, rfl, hcode⟩
      · exact .inl rfl
      · exact .inr (.code hf hcode)
    · exact .inr (.cycle hcycle)
  · rw [hread]
    exact trivial
  · -- a document is no deeper than it has lexemes, so the recursion has room to end
    have hbuild := Node.gives_document (Nat.lt_succ_of_lt (Nat.lt_succ_of_le hdepth))
    rw [hread]
    refine hbuild.mono (fun _ _ ↦ trivial) fun f hf ↦ ?_
    rcases hf with rfl | ⟨n, hn, hf⟩
    · exact .inl rfl
    · exact (Node.malformed_or_misfits_of_immediate? hf).imp_right (.scalar hread hn)

end NoteQuery.Yaml
