import NoteQuery.Value.Mapping

/-!
# Equality of keys

Keys are compared case by case, but what is compared is one thing: what a key stands for
(`Value.meaning?`). Two keys are the same exactly if they stand for the same, so sameness is symmetric
and transitive, and whatever can be a key is the same as itself. With this the entry that a mapping has
under a key depends on what the key stands for alone.
-/

namespace NoteQuery

namespace Value

/-! ## What keys stand for -/

/-- What a key stands for. -/
inductive Meaning
  /-- No value. -/
  | nothing
  /-- A whole number, however it is written. -/
  | whole (n : Int)
  /-- A number that is not whole, or none at all. -/
  | number (x : Binary64)
  /-- A text. -/
  | text (s : CodeText)
  /-- A date. -/
  | day (d : Date)
  /-- What clock and calendar show, at an unknown distance from universal time. -/
  | reading (t : DateTime)
  /-- A moment. -/
  | instant (n : Int)
  /-- Raw bytes. -/
  | bytes (bs : List UInt8)
  /-- What the parts stand for, in order. -/
  | tuple (parts : List Meaning)

namespace Meaning

/-- What a number with a fraction stands for. -/
def ofFloat (x : Binary64) : Meaning :=
  match x.toInt? with
  | some n => whole n
  | none => number x

/-- What a date-time stands for. -/
def ofDateTime (t : DateTime) : Meaning :=
  match t.offset with
  | some offset => instant (Calendar.instant t offset)
  | none => reading t

end Meaning

mutual

/-- What a value stands for as a key, if it can be one. -/
def meaning? : Value → Option Meaning
  | .null => some .nothing
  | .bool b => some (.whole (if b then 1 else 0))
  | .int n => some (.whole n)
  | .float x => some (.ofFloat x)
  | .str s => some (.text s)
  | .date d => some (.day d)
  | .datetime t => some (.ofDateTime t)
  | .bytes bs => some (.bytes bs)
  | .tuple xs => (meanings? xs).map .tuple
  | .list _ | .map _ | .set _ => none

/-- What the values of a list stand for, if they can all be keys. -/
def meanings? : List Value → Option (List Meaning)
  | [] => some []
  | x :: xs => (meaning? x).bind fun m ↦ (meanings? xs).map (m :: ·)

end

theorem meanings?_cons_eq_some_iff {x : Value} {xs : List Value} {ms : List Meaning} :
    meanings? (x :: xs) = some ms ↔
      ∃ m rest, x.meaning? = some m ∧ meanings? xs = some rest ∧ ms = m :: rest := by
  simp only [meanings?, Option.bind_eq_some_iff, Option.map_eq_some_iff]
  constructor
  · rintro ⟨m, hm, rest, hrest, rfl⟩
    exact ⟨m, rest, hm, hrest, rfl⟩
  · rintro ⟨m, rest, hm, hrest, rfl⟩
    exact ⟨m, hm, rest, hrest, rfl⟩

/-! ## Sameness -/

theorem eq_iff_exists_some {m n : Meaning} : m = n ↔ ∃ k, some m = some k ∧ some n = some k :=
  ⟨fun h ↦ ⟨n, congrArg some h, rfl⟩, fun ⟨_, hm, hn⟩ ↦ Option.some.inj (hm.trans hn.symm)⟩

theorem sameKey_float_iff (x y : Binary64) :
    sameKey (.float x) (.float y) = true ↔ Meaning.ofFloat x = Meaning.ofFloat y := by
  rw [sameKey, Meaning.ofFloat, Meaning.ofFloat]
  cases hx : x.toInt? with
  | none =>
    cases hy : y.toInt? with
    | none => simp only [beq_iff_eq, Meaning.number.injEq]
    | some n =>
      refine iff_of_false (fun h ↦ ?_) nofun
      rw [eq_of_beq h, hy] at hx
      cases hx
  | some m =>
    cases hy : y.toInt? with
    | none =>
      refine iff_of_false (fun h ↦ ?_) nofun
      rw [eq_of_beq h, hy] at hx
      cases hx
    | some n => simp only [beq_iff_eq, Meaning.whole.injEq]

theorem sameMoment_iff (s t : DateTime) :
    Calendar.sameMoment s t = true ↔ Meaning.ofDateTime s = Meaning.ofDateTime t := by
  rw [Calendar.sameMoment, Meaning.ofDateTime, Meaning.ofDateTime]
  cases s.offset <;> cases t.offset <;> simp

mutual

/-- **Keys are the same exactly if they stand for the same.** -/
theorem sameKey_iff (a b : Value) :
    sameKey a b = true ↔ ∃ m, a.meaning? = some m ∧ b.meaning? = some m := by
  cases a <;> cases b
  case float.float x y => exact (sameKey_float_iff x y).trans eq_iff_exists_some
  case datetime.datetime s t => exact (sameMoment_iff s t).trans eq_iff_exists_some
  case tuple.tuple xs ys =>
    rw [sameKey, sameKeys_iff xs ys, meaning?, meaning?]
    simp only [Option.map_eq_some_iff]
    constructor
    · rintro ⟨ms, hxs, hys⟩
      exact ⟨_, ⟨ms, hxs, rfl⟩, ms, hys, rfl⟩
    · rintro ⟨_, ⟨ms, hxs, rfl⟩, _, hys, hms⟩
      obtain rfl := Meaning.tuple.inj hms
      exact ⟨_, hxs, hys⟩
  -- all other pairs are of whole numbers, of texts, of dates or of bytes, or not the same
  all_goals clear sameKey_iff sameKeys_iff
  all_goals simp only [sameKey, meaning?, wholeNumber?, Option.map_eq_some_iff]
  all_goals grind [Meaning.ofFloat, Meaning.ofDateTime]

theorem sameKeys_iff (xs ys : List Value) :
    sameKeys xs ys = true ↔ ∃ ms, meanings? xs = some ms ∧ meanings? ys = some ms := by
  match xs, ys with
  | [], [] => exact iff_of_true rfl ⟨[], rfl, rfl⟩
  | [], y :: ys =>
    refine iff_of_false nofun ?_
    rintro ⟨_, ⟨⟩, hys⟩
    obtain ⟨_, _, -, -, ⟨⟩⟩ := meanings?_cons_eq_some_iff.mp hys
  | x :: xs, [] =>
    refine iff_of_false nofun ?_
    rintro ⟨_, hxs, ⟨⟩⟩
    obtain ⟨_, _, -, -, ⟨⟩⟩ := meanings?_cons_eq_some_iff.mp hxs
  | x :: xs, y :: ys =>
    rw [sameKeys, Bool.and_eq_true, sameKey_iff x y, sameKeys_iff xs ys]
    simp only [meanings?_cons_eq_some_iff]
    constructor
    · rintro ⟨⟨m, hx, hy⟩, ms, hxs, hys⟩
      exact ⟨m :: ms, ⟨m, ms, hx, hxs, rfl⟩, m, ms, hy, hys, rfl⟩
    · rintro ⟨_, ⟨m, ms, hx, hxs, rfl⟩, _, _, hy, hys, hms⟩
      obtain ⟨rfl, rfl⟩ := List.cons.inj hms
      exact ⟨⟨_, hx, hy⟩, _, hxs, hys⟩

end

theorem sameKey_comm (a b : Value) : sameKey a b = sameKey b a := by
  rw [Bool.eq_iff_iff, sameKey_iff, sameKey_iff]
  exact exists_congr fun m ↦ And.comm

theorem sameKey_congr {a b : Value} (h : sameKey a b = true) (c : Value) : sameKey a c = sameKey b c := by
  obtain ⟨m, ha, hb⟩ := (sameKey_iff a b).mp h
  rw [Bool.eq_iff_iff, sameKey_iff, sameKey_iff, ha, hb]

mutual

theorem exists_meaning_of_isHashable {v : Value} (h : v.isHashable = true) : ∃ m, v.meaning? = some m := by
  cases v with
  | tuple xs =>
    obtain ⟨ms, hms⟩ := exists_meanings_of_hashables h
    exact ⟨.tuple ms, congrArg (Option.map Meaning.tuple) hms⟩
  | list | map | set => cases h
  | _ => exact ⟨_, rfl⟩

theorem exists_meanings_of_hashables {xs : List Value} (h : isHashable.hashables xs = true) :
    ∃ ms, meanings? xs = some ms := by
  match xs with
  | [] => exact ⟨[], rfl⟩
  | x :: xs =>
    rw [isHashable.hashables, Bool.and_eq_true] at h
    obtain ⟨m, hm⟩ := exists_meaning_of_isHashable h.1
    obtain ⟨ms, hms⟩ := exists_meanings_of_hashables h.2
    exact ⟨m :: ms, meanings?_cons_eq_some_iff.mpr ⟨m, ms, hm, hms, rfl⟩⟩

end

/-- Whatever can be a key is the same as itself. -/
theorem sameKey_self {v : Value} (h : v.isHashable = true) : sameKey v v = true := by
  obtain ⟨m, hm⟩ := exists_meaning_of_isHashable h
  exact (sameKey_iff v v).mpr ⟨m, hm, hm⟩

end Value

/-! ## Entries under a key -/

namespace Mapping

open Value (sameKey sameKey_comm sameKey_congr)

theorem find?_cons (k v : Value) (m : Mapping) (key : Value) :
    find? ((k, v) :: m) key = if sameKey key k then some v else find? m key := by
  rw [find?, List.find?_cons]
  cases sameKey key k <;> rfl

theorem exists_of_find?_eq_some {m : Mapping} {key v : Value} (h : find? m key = some v) :
    ∃ e ∈ m, e.2 = v := by
  obtain ⟨e, he, rfl⟩ := Option.map_eq_some_iff.mp h
  exact ⟨e, List.mem_of_find?_eq_some he, rfl⟩

theorem find?_congr {a b : Value} (h : sameKey a b = true) (m : Mapping) : find? m a = find? m b := by
  induction m with
  | nil => rfl
  | cons e m ih => rw [find?_cons, find?_cons, sameKey_congr h, ih]

theorem find?_insert (m : Mapping) (key value k : Value) :
    find? (insert m key value) k = if sameKey k key then some value else find? m k := by
  induction m with
  | nil => exact find?_cons key value [] k
  | cons e m ih =>
    obtain ⟨first, v⟩ := e
    rw [insert, find?_cons first v]
    split
    · rename_i hsame
      rw [find?_cons, sameKey_comm k first, ← sameKey_congr hsame, sameKey_comm key k]
      cases sameKey k key <;> rfl
    · rename_i hother
      rw [find?_cons, ih]
      by_cases hk : sameKey k first = true
      · -- the first key is found, and it is not the one that is put in
        have hkey : sameKey k key = false := by
          rw [sameKey_congr hk, sameKey_comm]
          exact Bool.eq_false_iff.mpr hother
        rw [hkey, if_pos hk, if_neg Bool.false_ne_true, if_pos hk]
      · rw [if_neg hk, if_neg hk]

theorem insert_of_find? {m : Mapping} {key value : Value} (h : find? m key = some value) :
    insert m key value = m := by
  induction m with
  | nil => cases h
  | cons e m ih =>
    obtain ⟨first, v⟩ := e
    rw [find?_cons] at h
    rw [insert]
    split at h
    · rename_i hsame
      rw [if_pos hsame, Option.some.inj h]
    · rename_i hother
      rw [if_neg hother, ih h]

theorem keys_insert (m : Mapping) (key value : Value) :
    (insert m key value).map Prod.fst
      = m.map Prod.fst ++ if (find? m key).isNone then [key] else [] := by
  induction m with
  | nil => rfl
  | cons e m ih =>
    obtain ⟨first, v⟩ := e
    rw [insert, find?_cons]
    split
    · exact (List.append_nil _).symm
    · rw [List.map_cons, List.map_cons, ih, List.cons_append]

end Mapping

end NoteQuery
