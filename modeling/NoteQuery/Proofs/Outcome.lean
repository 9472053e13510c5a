import Mathlib.Data.List.Basic

/-!
# Outcomes

A computation that may go wrong gives a value or a fault. What a sequence of two computations and a
search through a list come to is read off their parts: a value comes from values, and a fault from
the first part that has one. Which faults a longer computation can have is followed through its parts
with `Gives`.
-/

namespace NoteQuery

variable {α β ε : Type}

/-! ## Sequences -/

theorem exists_of_bind_eq_ok {γ : Type} {x : Except ε β} {f : β → Except ε γ} {c : γ}
    (h : x >>= f = .ok c) : ∃ b, x = .ok b ∧ f b = .ok c := by
  cases x with
  | error e => exact nomatch (show (.error e : Except ε γ) = .ok c from h)
  | ok b => exact ⟨b, rfl, h⟩

theorem bind_eq_ok_iff {γ : Type} {x : Except ε β} {f : β → Except ε γ} {c : γ} :
    x >>= f = .ok c ↔ ∃ b, x = .ok b ∧ f b = .ok c := by
  refine ⟨exists_of_bind_eq_ok, ?_⟩
  rintro ⟨b, rfl, hf⟩
  exact hf

theorem ite_error_eq_ok_iff {p : Prop} [Decidable p] {e : ε} {x : Except ε β} {b : β} :
    (if p then .error e else x) = .ok b ↔ ¬p ∧ x = .ok b := by
  by_cases hp : p
  · rw [if_pos hp]
    exact ⟨fun h ↦ (nomatch h), fun h ↦ absurd hp h.1⟩
  · rw [if_neg hp]
    exact ⟨fun h ↦ ⟨hp, h⟩, fun h ↦ h.2⟩

theorem error_or_exists_of_bind_eq_error {γ : Type} {x : Except ε β} {f : β → Except ε γ} {e : ε}
    (h : x >>= f = .error e) : x = .error e ∨ ∃ b, x = .ok b ∧ f b = .error e := by
  cases x with
  | error e' => exact .inl (congrArg _ (Except.error.inj h))
  | ok b => exact .inr ⟨b, rfl, h⟩

theorem exists_of_mapError_eq_error {δ : Type} {x : Except ε β} {f : ε → δ} {d : δ}
    (h : x.mapError f = .error d) : ∃ e, x = .error e ∧ f e = d := by
  cases x with
  | error e => exact ⟨e, rfl, Except.error.inj h⟩
  | ok b => exact nomatch h

theorem mapError_eq_ok_iff {δ : Type} {x : Except ε β} {f : ε → δ} {b : β} :
    x.mapError f = .ok b ↔ x = .ok b := by
  cases x with
  | error e => exact ⟨fun h ↦ (nomatch h), fun h ↦ (nomatch h)⟩
  | ok b' => exact ⟨fun h ↦ congrArg _ (Except.ok.inj h), fun h ↦ congrArg _ (Except.ok.inj h)⟩

theorem eq_error_of_map_eq_error {γ : Type} {x : Except ε β} {f : β → γ} {e : ε}
    (h : x.map f = .error e) : x = .error e := by
  cases x with
  | error e' => exact congrArg _ (Except.error.inj h)
  | ok b => exact nomatch h

theorem mapError_map {γ δ : Type} (x : Except ε β) (f : β → γ) (g : ε → δ) :
    (x.map f).mapError g = (x.mapError g).map f := by
  cases x with
  | error e => rfl
  | ok b => rfl

theorem exists_ok_or_exists_error (x : Except ε β) : (∃ b, x = .ok b) ∨ ∃ e, x = .error e := by
  cases x with
  | error e => exact .inr ⟨e, rfl⟩
  | ok b => exact .inl ⟨b, rfl⟩

/-! ## Success -/

theorem isOk_map (x : Except ε α) (f : α → β) : (x.map f).isOk = x.isOk := by
  cases x <;> rfl

theorem isOk_bind (x : Except ε α) (f : α → Except ε β) {ok : Bool} (h : ∀ a, (f a).isOk = ok) :
    (x >>= f).isOk = (x.isOk && ok) := by
  cases x with
  | error e => rfl
  | ok a => exact h a

theorem isOk_bind_pure (x : Except ε α) (f : α → β) : (x >>= fun a ↦ pure (f a)).isOk = x.isOk := by
  cases x <;> rfl

theorem isOk_eq_true {x : Except ε α} : x.isOk = true ↔ ∃ a, x = .ok a := by
  cases x with
  | error e =>
    constructor
    · exact fun h ↦ nomatch h
    · rintro ⟨a, h⟩
      exact nomatch h
  | ok a => exact ⟨fun _ ↦ ⟨a, rfl⟩, fun _ ↦ rfl⟩

/-! ## Searches -/

theorem anyM_map (f : α → β) (test : β → Except ε Bool) (l : List α) :
    (l.map f).anyM test = l.anyM (test ∘ f) := by
  induction l with
  | nil => rfl
  | cons a l ih =>
    rw [List.map_cons, List.anyM_cons, List.anyM_cons, ih]
    rfl

theorem allM_map (f : α → β) (test : β → Except ε Bool) (l : List α) :
    (l.map f).allM test = l.allM (test ∘ f) := by
  induction l with
  | nil => rfl
  | cons a l ih =>
    rw [List.map_cons, List.allM_cons, List.allM_cons, ih]
    rfl

theorem anyM_eq_ok {test : α → Except ε Bool} {f : α → Bool} {l : List α}
    (h : ∀ a ∈ l, test a = .ok (f a)) : l.anyM test = .ok (l.any f) := by
  induction l with
  | nil => rfl
  | cons a l ih =>
    rw [List.anyM_cons, h a List.mem_cons_self, ih fun b hb ↦ h b (List.mem_cons_of_mem a hb),
      List.any_cons]
    cases f a <;> rfl

theorem allM_eq_ok {test : α → Except ε Bool} {f : α → Bool} {l : List α}
    (h : ∀ a ∈ l, test a = .ok (f a)) : l.allM test = .ok (l.all f) := by
  induction l with
  | nil => rfl
  | cons a l ih =>
    rw [List.allM_cons, h a List.mem_cons_self, ih fun b hb ↦ h b (List.mem_cons_of_mem a hb),
      List.all_cons]
    cases f a <;> rfl

theorem anyM_cons_of_eq_false {test : α → Except ε Bool} {a : α} (h : test a = .ok false) (l : List α) :
    (a :: l).anyM test = l.anyM test := by
  rw [List.anyM_cons, h]
  rfl

theorem anyM_cons_of_ne_false {test : α → Except ε Bool} {a : α} (h : test a ≠ .ok false) (l : List α) :
    (a :: l).anyM test = test a := by
  rw [List.anyM_cons]
  cases ha : test a with
  | error e => rfl
  | ok b =>
    cases b with
    | false => exact absurd ha h
    | true => rfl

/-- A search that does not come to false comes to what the test does on the first element on which the
test does not. -/
theorem anyM_eq_iff {test : α → Except ε Bool} {l : List α} {r : Except ε Bool} (hr : r ≠ .ok false) :
    l.anyM test = r ↔
      ∃ before a after, l = before ++ a :: after ∧ (∀ b ∈ before, test b = .ok false) ∧ test a = r := by
  constructor
  · intro h
    induction l with
    | nil => exact absurd h.symm hr
    | cons a l ih =>
      by_cases ha : test a = .ok false
      · rw [anyM_cons_of_eq_false ha] at h
        obtain ⟨before, c, after, rfl, hbefore, hc⟩ := ih h
        exact ⟨a :: before, c, after, rfl, List.forall_mem_cons.mpr ⟨ha, hbefore⟩, hc⟩
      · rw [anyM_cons_of_ne_false ha] at h
        exact ⟨[], a, l, rfl, List.forall_mem_nil _, h⟩
  · rintro ⟨before, a, after, rfl, hbefore, rfl⟩
    induction before with
    | nil => exact anyM_cons_of_ne_false hr after
    | cons b before ih =>
      obtain ⟨hb, hbefore⟩ := List.forall_mem_cons.mp hbefore
      rw [List.cons_append, anyM_cons_of_eq_false hb]
      exact ih hbefore

theorem anyM_append (l l' : List α) (test : α → Except ε Bool) :
    (l ++ l').anyM test = l.anyM test >>= fun found ↦ if found then pure true else l'.anyM test := by
  induction l with
  | nil => rfl
  | cons a l ih =>
    rw [List.cons_append, List.anyM_cons, List.anyM_cons, ih]
    cases test a with
    | error e => rfl
    | ok b => cases b <;> rfl

theorem allM_append_cons {test : α → Except ε Bool} {a : α} (h : test a = .ok true) (before after : List α) :
    (before ++ a :: after).allM test = (before ++ after).allM test := by
  induction before with
  | nil =>
    rw [List.nil_append, List.nil_append, List.allM_cons, h]
    rfl
  | cons b before ih => rw [List.cons_append, List.cons_append, List.allM_cons, List.allM_cons, ih]

theorem exists_of_anyM_eq_error {test : α → Except ε Bool} {l : List α} {e : ε}
    (h : l.anyM test = .error e) : ∃ a ∈ l, test a = .error e := by
  obtain ⟨before, a, after, rfl, -, ha⟩ := (anyM_eq_iff (by simp)).mp h
  exact ⟨a, List.mem_append_right before List.mem_cons_self, ha⟩

theorem exists_of_allM_eq_error {test : α → Except ε Bool} {l : List α} {e : ε}
    (h : l.allM test = .error e) : ∃ a ∈ l, test a = .error e := by
  induction l with
  | nil => exact nomatch h
  | cons a l ih =>
    rw [List.allM_cons] at h
    obtain h | ⟨b, -, h⟩ := error_or_exists_of_bind_eq_error h
    · exact ⟨a, List.mem_cons_self, h⟩
    · cases b with
      | false => exact nomatch h
      | true =>
        obtain ⟨c, hc, he⟩ := ih h
        exact ⟨c, List.mem_cons_of_mem a hc, he⟩

/-! ## Values and faults of a kind -/

/-- Whether an outcome is a value with one property or a fault with another. -/
def Gives (x : Except ε α) (P : α → Prop) (E : ε → Prop) : Prop :=
  match x with
  | .ok a => P a
  | .error e => E e

namespace Gives

variable {x : Except ε α} {P : α → Prop} {Q : β → Prop} {E : ε → Prop}

theorem mono {P' : α → Prop} {E' : ε → Prop} (h : Gives x P E) (hP : ∀ a, P a → P' a)
    (hE : ∀ e, E e → E' e) : Gives x P' E' := by
  cases x with
  | ok a => exact hP a h
  | error e => exact hE e h

theorem bind {f : α → Except ε β} (h : Gives x P E) (hf : ∀ a, P a → Gives (f a) Q E) :
    Gives (x >>= f) Q E := by
  cases x with
  | ok a => exact hf a h
  | error e => exact h

theorem map {f : α → β} (h : Gives x P E) (hf : ∀ a, P a → Q (f a)) : Gives (x.map f) Q E := by
  cases x with
  | ok a => exact hf a h
  | error e => exact h

theorem mapError {δ : Type} {g : ε → δ} {E' : δ → Prop} (h : Gives x P E) (hg : ∀ e, E e → E' (g e)) :
    Gives (x.mapError g) P E' := by
  cases x with
  | ok a => exact h
  | error e => exact hg e h

theorem any (x : Except ε α) : Gives x (fun _ ↦ True) fun _ ↦ True := by
  cases x <;> exact trivial

theorem value {a : α} (h : Gives x P E) (hx : x = .ok a) : P a := by
  rw [hx] at h
  exact h

theorem fault {e : ε} (h : Gives x P E) (hx : x = .error e) : E e := by
  rw [hx] at h
  exact h

theorem mapM {f : α → Except ε β} {R : α → β → Prop} {l : List α}
    (h : ∀ a ∈ l, Gives (f a) (R a) E) : Gives (l.mapM f) (fun bs ↦ ∀ b ∈ bs, ∃ a ∈ l, R a b) E := by
  induction l with
  | nil => exact fun b hb ↦ nomatch hb
  | cons a l ih =>
    rw [List.mapM_cons]
    refine bind (h a List.mem_cons_self) fun b hb ↦
      bind (ih fun a' ha' ↦ h a' (List.mem_cons_of_mem a ha')) fun bs hbs b' hb' ↦ ?_
    rcases List.mem_cons.mp hb' with rfl | hb'
    · exact ⟨a, List.mem_cons_self, hb⟩
    · obtain ⟨a', ha', hR⟩ := hbs b' hb'
      exact ⟨a', List.mem_cons_of_mem a ha', hR⟩

theorem forall_mapM {f : α → Except ε β} (h : ∀ a, Gives (f a) Q E) (l : List α) :
    Gives (l.mapM f) (fun bs ↦ ∀ b ∈ bs, Q b) E := by
  refine (mapM (R := fun _ ↦ Q) fun a _ ↦ h a).mono (fun bs hbs b hb ↦ ?_) fun _ he ↦ he
  obtain ⟨a, -, hb⟩ := hbs b hb
  exact hb

end Gives

end NoteQuery
