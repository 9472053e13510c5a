import NoteQuery.Command.Actions
import NoteQuery.Proofs.Output.Writers

/-!
# The files of an action

An action that fails may have written files before. What it leaves is followed through its parts. All parts of
a search but the last keep the files as they are, so a search that does not get as far as the last leaves none.
A search that does reaches the last part with the files that it began with, and ends as that part does.

The last part opens a file before the text for it is made into bytes. If the text holds half of a character the
file stays empty, and the action fails.
-/

namespace NoteQuery.Command.Action

variable {α β : Type}

/-! ## Files -/

/-- Whether an action leaves all files as they are, and ends with a value of a kind if it does not fail. -/
def Keeps (x : Action α) (P : α → Prop) : Prop :=
  ∀ j : Journal, Gives (ExceptT.run x j).1 P (fun _ ↦ True) ∧ (ExceptT.run x j).2.files = j.files

theorem run_bind (x : Action α) (f : α → Action β) (j : Journal) :
    ExceptT.run (x >>= f) j =
      match ExceptT.run x j with
      | (.ok a, j) => ExceptT.run (f a) j
      | (.error failure, j) => (.error failure, j) := by
  rcases hx : ExceptT.run x j with ⟨_ | a, j'⟩
  all_goals
    change StateT.run (ExceptT.run x) j = _ at hx
    change StateT.run (ExceptT.run (x >>= f)) j = _
    rw [ExceptT.run_bind, StateT.run_bind, hx]
    rfl

theorem Keeps.mono {x : Action α} {P Q : α → Prop} (h : Keeps x P) (hP : ∀ a, P a → Q a) : Keeps x Q :=
  fun j ↦ (h j).imp_left fun hx ↦ hx.mono hP fun _ he ↦ he

theorem Keeps.bind {x : Action α} {f : α → Action β} {P : α → Prop} {Q : β → Prop} (hx : Keeps x P)
    (hf : ∀ a, P a → Keeps (f a) Q) : Keeps (x >>= f) Q := by
  intro j
  obtain ⟨hvalue, hfiles⟩ := hx j
  rw [run_bind]
  rcases hrun : ExceptT.run x j with ⟨_ | a, j'⟩
  · rw [hrun] at hfiles
    exact ⟨trivial, hfiles⟩
  · rw [hrun] at hvalue hfiles
    obtain ⟨hvalue', hfiles'⟩ := hf a hvalue j'
    exact ⟨hvalue', hfiles'.trans hfiles⟩

/-- Whether an action comes to another one, and ends as that one does, with no change to the files before. -/
def Reaches (x y : Action α) : Prop :=
  ∀ j : Journal, ∃ j' : Journal, j'.files = j.files ∧ ExceptT.run x j = ExceptT.run y j'

theorem Reaches.refl (x : Action α) : Reaches x x := fun j ↦ ⟨j, rfl, rfl⟩

/-- A part that ends with a value may stand in front of an action. -/
theorem Reaches.bind {x : Action α} {f : α → Action β} {a : α} {y : Action β} (hx : Reaches x (pure a))
    (hf : Reaches (f a) y) : Reaches (x >>= f) y := by
  intro j
  obtain ⟨j₁, hfiles₁, hrun₁⟩ := hx j
  obtain ⟨j₂, hfiles₂, hrun₂⟩ := hf j₁
  refine ⟨j₂, hfiles₂.trans hfiles₁, ?_⟩
  rw [run_bind, hrun₁]
  exact hrun₂

theorem reaches_sayAll (messages : List Log.Message) : Reaches (sayAll messages) (pure ()) :=
  fun j ↦ ⟨{ j with messages := j.messages ++ messages }, rfl, rfl⟩

theorem reaches_tell (log : Log) (events : Unit → List Event) : Reaches (tell log events) (pure ()) := by
  rw [tell]
  split
  · exact reaches_sayAll _
  · exact .refl _

theorem reaches_ofExcept {ε : Type} (failure : ε → Failure) {x : Except ε α} {a : α} (h : x = .ok a) :
    Reaches (ofExcept failure x) (pure a) := by
  rw [h]
  exact .refl _

theorem reaches_load {root : VaultRoot} {files : List VaultFile} {extensions : List String}
    {records : List Record} (hfiles : root.files = some files)
    (hrecords : Vault.records files extensions = .ok records) :
    Reaches (load root extensions) (pure records) := by
  rw [Vault.records] at hrecords
  rw [load, hfiles]
  refine (reaches_sayAll _).bind ?_
  rcases hloaded : Vault.load files extensions with ⟨notes, _ | fault⟩
  · rw [hloaded] at hrecords
    obtain rfl := Except.ok.inj hrecords
    exact (reaches_sayAll _).bind (.refl _)
  · rw [hloaded] at hrecords
    cases hrecords

theorem reaches_parse (log : Log) {search : Search} {text : String} {q : Query}
    (h : search.parse text = .ok q) : Reaches (parse log search text) (pure q) :=
  (reaches_ofExcept _ h).bind ((reaches_tell _ _).bind (.refl _))

theorem reaches_filter (log : Log) {search : Search} {records matched : List Record} {text : String}
    (h : search.filter records text = .ok matched) :
    Reaches (filter log search records text) (pure matched) := by
  obtain ⟨q, hq, -⟩ := exists_of_bind_eq_ok h
  refine (reaches_parse log (mapError_eq_ok_iff.mp hq)).bind ?_
  refine (reaches_sayAll _).bind ((reaches_tell _ _).bind ((reaches_ofExcept _ h).bind ?_))
  exact (reaches_sayAll _).bind (.refl _)

theorem reaches_showTree (log : Log) {search : Search} {records : List Record} {text : String}
    {shown : Visibility} (h : search.filterForest (Forest.ofRecords records) text = .ok shown) :
    Reaches (showTree log search records text) (pure ()) := by
  obtain ⟨q, hq, -⟩ := exists_of_bind_eq_ok h
  refine (reaches_parse log (mapError_eq_ok_iff.mp hq)).bind ?_
  have hshown : Reaches (do
      sayAll (shownMessages (← ofExcept searchFailure (search.filterForest (Forest.ofRecords records) text))))
      (pure ()) := (reaches_ofExcept _ h).bind (reaches_sayAll _)
  dsimp only
  split
  · exact (reaches_sayAll _).bind ((reaches_tell _ _).bind hshown)
  · exact hshown

theorem reaches_handOver {writers : List Writer} {records : List Record} {query : String}
    (h : (Writer.takeAll records query writers).refused = none) :
    Reaches (handOver writers records query) (pure (Writer.takeAll records query writers).writers) := by
  refine (reaches_sayAll _).bind ?_
  rw [h]
  exact .refl _

end NoteQuery.Command.Action
