import NoteQuery.Text.Alphabet.Casing
import NoteQuery.Text.Blank

/-!
# Runs of the lower-case mapping

Nothing to which the table of the lower-case mapping sends a code point is moved by it again, and nothing
becomes a blank or stops being one. The table has too many code points to go through them one by one, so
runs are compared as wholes: the images of a run are a stretch of code points, which another run misses
if it ends before the stretch or begins behind it, or if both take every second code point and take
turns. Code points that are no image, such as the blanks, are given as runs that move nothing.
-/

namespace NoteQuery.Text

namespace CaseRun

/-! ## Runs that miss each other -/

/-- Whether a run ends before a stretch of code points or begins behind it. -/
def isApartFrom (low high : Nat) (run : CaseRun) : Bool := Nat.blt run.last low || Nat.blt high run.first

/-- Whether a run takes every second code point, and `code` is not of their parity. -/
def skips (code : Nat) (run : CaseRun) : Bool :=
  Nat.beq run.stride 2 && Nat.beq ((code + run.first) % 2) 1

/-- Whether it is seen from the ends of runs that the images of a run belong to none of some others. -/
def misses (others : List CaseRun) (run : CaseRun) : Bool :=
  let low := run.target run.first
  let high := run.target run.last
  Nat.blt 0 low && others.all fun other ↦
    other.isApartFrom low high ||
      (Nat.beq run.stride 2 || Nat.beq run.first run.last) && other.skips low

theorem covers_iff {run : CaseRun} {code : Nat} : run.covers code = true ↔
    run.first ≤ code ∧ code ≤ run.last ∧ (code - run.first) % run.stride = 0 := by
  simp [covers, and_assoc]

theorem covers_target_eq_false {run other : CaseRun} {others : List CaseRun} {code : Nat}
    (h : run.misses others = true) (hcode : run.covers code = true) (hother : other ∈ others) :
    other.covers (run.target code) = false := by
  simp only [misses, isApartFrom, skips, Bool.and_eq_true, Bool.or_eq_true, List.all_eq_true,
    Nat.blt_eq, Nat.beq_eq, target] at h
  obtain ⟨hpos, hmiss⟩ := h
  obtain ⟨hfirst, hlast, hstep⟩ := covers_iff.mp hcode
  rw [Bool.eq_false_iff, ne_eq, covers_iff, target]
  rintro ⟨hfirst', hlast', hstep'⟩
  rcases hmiss other hother with hapart | ⟨hgaps, hstride, hparity⟩
  · omega
  · rw [hstride] at hstep'
    rcases hgaps with htwo | hone
    · rw [htwo] at hstep
      omega
    · omega

theorem target_le_target_last {run : CaseRun} {code : Nat} (h : run.covers code = true) :
    run.target code ≤ run.target run.last := by
  rw [covers_iff] at h
  rw [target, target]
  omega

theorem map_eq (runs : List CaseRun) (code : Nat) :
    (∃ run ∈ runs, run.covers code = true ∧ map runs code = run.target code) ∨
      (∀ run ∈ runs, run.covers code = false) ∧ map runs code = code := by
  rw [map]
  cases hfind : runs.find? (·.covers code) with
  | some run =>
    have hcovers := List.find?_some hfind
    exact .inl ⟨run, List.mem_of_find?_eq_some hfind, hcovers, rfl⟩
  | none =>
    rw [List.find?_eq_none] at hfind
    exact .inr ⟨fun run hrun ↦ Bool.eq_false_iff.mpr (hfind run hrun), rfl⟩

end CaseRun

/-! ## The table -/

/-- The blanks, as runs that move nothing. -/
def blankRuns : List CaseRun := [
  ⟨9, 13, 1, 0⟩, ⟨28, 32, 1, 0⟩, ⟨0x85, 0x85, 1, 0⟩, ⟨0xA0, 0xA0, 1, 0⟩, ⟨0x1680, 0x1680, 1, 0⟩,
  ⟨0x2000, 0x200A, 1, 0⟩, ⟨0x2028, 0x2029, 1, 0⟩, ⟨0x202F, 0x202F, 1, 0⟩, ⟨0x205F, 0x205F, 1, 0⟩,
  ⟨0x3000, 0x3000, 1, 0⟩]

theorem isBlank_iff {c : Char} : isBlank c = true ↔ ∃ run ∈ blankRuns, run.covers c.toNat = true := by
  simp only [blankRuns, List.mem_cons, List.not_mem_nil, or_false, exists_eq_or_imp, exists_eq_left,
    CaseRun.covers_iff, Nat.mod_one, and_true]
  simp only [isBlank, Bool.or_eq_true, Bool.and_eq_true, decide_eq_true_eq, beq_iff_eq]
  omega

/-- What no run of the table leads to: the surrogates, the capital `İ` and the blanks. -/
def avoidedRuns : List CaseRun := ⟨0xD800, 0xDFFF, 1, 0⟩ :: ⟨304, 304, 1, 0⟩ :: blankRuns

theorem lowerRuns_miss : lowerRuns.all (CaseRun.misses (avoidedRuns ++ lowerRuns)) = true := by
  decide +kernel

theorem blankRuns_miss : blankRuns.all (CaseRun.misses lowerRuns) = true := by
  decide +kernel

theorem target_last_lt : ∀ run ∈ lowerRuns, run.target run.last < 0x110000 := by
  decide +kernel

variable {run other : CaseRun} {code : Nat}

/-- **No second move.** The table sends a code point that it moves to none that it moves or avoids. -/
theorem covers_target_of_mem_lowerRuns (hrun : run ∈ lowerRuns) (hcode : run.covers code = true)
    (hother : other ∈ avoidedRuns ++ lowerRuns) : other.covers (run.target code) = false :=
  CaseRun.covers_target_eq_false (List.all_eq_true.mp lowerRuns_miss run hrun) hcode hother

theorem covers_eq_false_of_blank (hrun : run ∈ lowerRuns) (hother : other ∈ blankRuns)
    (hcode : other.covers code = true) : run.covers code = false := by
  have hkept : ∀ blanks ∈ blankRuns, blanks.shift = 0 := by decide
  have hmiss := CaseRun.covers_target_eq_false (List.all_eq_true.mp blankRuns_miss _ hother) hcode hrun
  rwa [CaseRun.target, hkept _ hother, Int.add_zero, Int.toNat_natCast] at hmiss

theorem isValidChar_target (hrun : run ∈ lowerRuns) (hcode : run.covers code = true) :
    (run.target code).isValidChar := by
  have hsurrogate := covers_target_of_mem_lowerRuns hrun hcode List.mem_cons_self
  rw [Bool.eq_false_iff, ne_eq, CaseRun.covers_iff] at hsurrogate
  dsimp only at hsurrogate
  have hlt := target_last_lt run hrun
  have hle := CaseRun.target_le_target_last hcode
  rw [Nat.isValidChar]
  omega

end NoteQuery.Text
