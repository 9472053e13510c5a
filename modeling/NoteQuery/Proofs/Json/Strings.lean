import Mathlib.Data.List.Chain
import NoteQuery.Json.Printer
import NoteQuery.Json.Reader

/-!
# Strings in JSON

A string between its quotes is written character by character: the quote, the backslash and the controls
by an escape, everything else as itself, or by its code if the text is kept to ASCII. Each of these ways is
taken back by the reader, whatever follows, so the reader of a string stops at the quote that was written
to close it. No character is half of a pair, so what is joined when characters are put together from their
codes is the halves of one character.
-/

namespace NoteQuery

namespace CodePoint

theorem joined?_char (c : Char) (p : CodePoint) : (char c).joined? p = none := rfl

theorem joined?_half_char (d : Fin 2048) (c : Char) : (half d).joined? (char c) = none := rfl

theorem lt_of_joined? {high low : Fin 2048} {c : Char} (h : (half high).joined? (half low) = some c) :
    high.val < 1024 := by
  rw [joined?] at h
  split at h
  · next hhalves => exact hhalves.1
  · cases h

theorem joined?_half_half_of_lt {d high : Fin 2048} (h : high.val < 1024) :
    (half d).joined? (half high) = none := by
  rw [joined?, if_neg]
  omega

end CodePoint

namespace CodeText

/-! ## Halves side by side -/

/-- Code points with halves that belong together joined. -/
def joinCodes : List CodePoint → List CodePoint
  | [] => []
  | high :: low :: rest =>
    match high.joined? low with
    | some c => .char c :: joinCodes rest
    | none => high :: joinCodes (low :: rest)
  | [p] => [p]

/-- The text with halves that belong together joined. -/
def joined (t : CodeText) : CodeText := ⟨joinCodes t.codes⟩

/-- Whether no high half stands directly before a low one. -/
def HasNoPair (t : CodeText) : Prop := t.codes.IsChain fun p q ↦ p.joined? q = none

theorem hasNoPair_ofString (s : String) : (s : CodeText).HasNoPair := by
  rw [HasNoPair, ofString, ofChars]
  induction s.toList with
  | nil => exact .nil
  | cons c cs ih => exact ih.cons fun q _ ↦ CodePoint.joined?_char c q

theorem joined?_head?_joinCodes {p : CodePoint} {codes : List CodePoint}
    (h : ∀ q ∈ codes.head?, p.joined? q = none) :
    ∀ q ∈ (joinCodes codes).head?, p.joined? q = none := by
  fun_cases joinCodes codes with
  | case2 high low rest c hjoined =>
    -- a character that was joined stands first now
    rintro q ⟨⟩
    cases p with
    | char d => rfl
    | half d => exact CodePoint.joined?_half_char d c
  | _ => exact h

theorem hasNoPair_joined (t : CodeText) : t.joined.HasNoPair := by
  obtain ⟨codes⟩ := t
  rw [HasNoPair, joined]
  fun_induction joinCodes codes with
  | case1 => exact .nil
  | case2 high low rest c _ ih => exact ih.cons fun q _ ↦ CodePoint.joined?_char c q
  | case3 high low rest hapart ih =>
    refine ih.cons (joined?_head?_joinCodes fun q hq ↦ ?_)
    rw [← Option.some.inj hq, hapart]
  | case4 p => exact .singleton p

/-- A text stays as it is when halves are joined exactly if it holds no pair of them. -/
theorem joined_eq_iff {t : CodeText} : t.joined = t ↔ t.HasNoPair := by
  refine ⟨fun h ↦ h ▸ hasNoPair_joined t, fun h ↦ ?_⟩
  obtain ⟨codes⟩ := t
  rw [HasNoPair] at h
  rw [joined, mk.injEq]
  fun_induction joinCodes codes with
  | case1 => rfl
  | case2 high low rest c hjoined _ =>
    cases hjoined.symm.trans (List.isChain_cons_cons.mp h).1
  | case3 high low rest _ ih => rw [ih (List.isChain_cons_cons.mp h).2]
  | case4 p => rfl

end CodeText

namespace Json

open CodePoint (char)
open CodeText (joinCodes)

/-! ## Codes in digits -/

theorem hexValue?_hexDigit {n : Nat} (h : n < 16) : hexValue? (Text.hexDigit n) = some n := by
  have hall : ∀ k : Fin 16, hexValue? (Text.hexDigit k) = some k.val := by decide
  exact hall ⟨n, h⟩

theorem exists_hexDigits_four {n : Nat} (h : n < 65536) :
    ∃ a b c d, Text.hexDigits 4 n = [a, b, c, d] ∧ hexQuad? a b c d = some n := by
  refine ⟨_, _, _, _, rfl, ?_⟩
  have hlt : ∀ m : Nat, m % 16 < 16 := fun m ↦ Nat.mod_lt m (by decide)
  rw [hexQuad?, hexValue?_hexDigit (hlt _), hexValue?_hexDigit (hlt _), hexValue?_hexDigit (hlt _),
    hexValue?_hexDigit (hlt _)]
  refine congrArg some ?_
  omega

/-! ## One code point -/

theorem readPieces_of_simpleEscape? {e c : Char} (h : simpleEscape? e = some c) (rest : List CodePoint) :
    readPieces (['\\', e].map char ++ rest) = (readPieces rest).map fun r ↦ (⟨c, false⟩ :: r.1, r.2) := by
  change readPieces (char '\\' :: char e :: rest) = _
  rw [readPieces, h]
  · cases readPieces rest <;> rfl
  · rintro _ _ _ _ _ - rfl
    cases h

theorem readPieces_of_hexQuad? {n : Nat} {a b c d : Char} (h : hexQuad? a b c d = some n)
    (rest : List CodePoint) :
    readPieces (['\\', 'u', a, b, c, d].map char ++ rest)
      = (readPieces rest).map fun r ↦ (⟨.ofCode n, true⟩ :: r.1, r.2) := by
  change readPieces (char '\\' :: char 'u' :: char a :: char b :: char c :: char d :: rest) = _
  rw [readPieces, h]
  cases readPieces rest <;> rfl

theorem readPieces_of_plain {p : CodePoint} (hquote : p ≠ char '"') (hback : p ≠ char '\\')
    (hcontrol : ¬p.code < 32) (rest : List CodePoint) :
    readPieces (p :: rest) = (readPieces rest).map fun r ↦ (⟨p, false⟩ :: r.1, r.2) := by
  rw [readPieces, decide_eq_false hcontrol, decide_eq_false hback]
  · cases readPieces rest <;> rfl
  · exact hquote
  · exact fun _ _ _ _ _ h _ ↦ hback h
  · exact fun _ _ h _ ↦ hback h

theorem toNat_notMem_halves (c : Char) : ¬(0xD800 ≤ c.toNat ∧ c.toNat - 0xD800 < 2048) := by
  rintro ⟨hlow, hhigh⟩
  rcases c.valid with h | h
  · exact absurd h (Nat.not_lt.mpr hlow)
  · exact absurd (show 0xDFFF < c.toNat from h.1) (by omega)

theorem ofCode_code (p : CodePoint) : CodePoint.ofCode p.code = p := by
  cases p with
  | char c =>
    rw [CodePoint.code, CodePoint.ofCode, dif_neg (toNat_notMem_halves c), Char.ofNat_toNat]
  | half h =>
    have hcode : 0xD800 ≤ (CodePoint.half h).code ∧ (CodePoint.half h).code - 0xD800 < 2048 := by
      rw [CodePoint.code]
      omega
    rw [CodePoint.ofCode, dif_pos hcode, CodePoint.half.injEq, Fin.ext_iff]
    exact Nat.add_sub_cancel_left _ _

theorem toNat_lt (c : Char) : c.toNat < 0x110000 := by
  rcases c.valid with h | h
  · exact Nat.lt_trans h (by decide)
  · exact h.2

/-! ## Whole strings -/

/-- Whether some pieces write some code points. A character may be written by its halves if the text is kept
to ASCII, and then a half alone is written by its code. -/
inductive IsWriting (ascii : Bool) : List CodePoint → List Piece → Prop
  | nil : IsWriting ascii [] []
  | char (c : Char) (byCode : Bool) {codes : List CodePoint} {pieces : List Piece}
    (h : IsWriting ascii codes pieces) :
    IsWriting ascii (.char c :: codes) (⟨.char c, byCode⟩ :: pieces)
  | halves {high low : Fin 2048} {c : Char} (hascii : ascii = true)
    (hjoined : (CodePoint.half high).joined? (.half low) = some c) {codes : List CodePoint} {pieces : List Piece}
    (h : IsWriting ascii codes pieces) :
    IsWriting ascii (.char c :: codes) (⟨.half high, true⟩ :: ⟨.half low, true⟩ :: pieces)
  | half (d : Fin 2048) {codes : List CodePoint} {pieces : List Piece} (h : IsWriting ascii codes pieces) :
    IsWriting ascii (.half d :: codes) (⟨.half d, ascii⟩ :: pieces)

/-- The character that two pieces next to each other write together. -/
def Piece.joined? (p q : Piece) : Option Char := if p.byCode && q.byCode then p.code.joined? q.code else none

theorem joinHalves_cons {p : Piece} {pieces : List Piece} (h : ∀ q ∈ pieces.head?, p.joined? q = none) :
    joinHalves (p :: pieces) = p.code :: joinHalves pieces := by
  cases pieces with
  | nil => rfl
  | cons q pieces =>
    have hapart := h q rfl
    rw [Piece.joined?] at hapart
    rw [joinHalves, hapart]

theorem joinHalves_halves {high low : Fin 2048} {c : Char}
    (h : (CodePoint.half high).joined? (.half low) = some c) (pieces : List Piece) :
    joinHalves (⟨.half high, true⟩ :: ⟨.half low, true⟩ :: pieces) = char c :: joinHalves pieces := by
  rw [joinHalves]
  simp only [Bool.and_self, if_true, h]

theorem joinHalves_char_cons (c : Char) (byCode : Bool) (pieces : List Piece) :
    joinHalves (⟨char c, byCode⟩ :: pieces) = char c :: joinHalves pieces :=
  joinHalves_cons fun q _ ↦ by rw [Piece.joined?, CodePoint.joined?_char, ite_self]

namespace IsWriting

variable {codes : List CodePoint} {pieces : List Piece}

theorem joinHalves_of_false (h : IsWriting false codes pieces) : joinHalves pieces = codes := by
  induction h with
  | nil => rfl
  | char c byCode _ ih => rw [joinHalves_char_cons, ih]
  | halves hascii => cases hascii
  | half d _ ih => rw [joinHalves_cons fun q _ ↦ rfl, ih]

/-- A half that is not joined with what comes next is not joined with how that is written. -/
theorem joined?_head? {d : Fin 2048} (h : IsWriting true codes pieces)
    (hapart : ∀ p ∈ codes.head?, (CodePoint.half d).joined? p = none) :
    ∀ q ∈ pieces.head?, Piece.joined? ⟨.half d, true⟩ q = none := by
  rintro q hq
  cases h with
  | nil => cases hq
  | char c byCode _ =>
    obtain rfl := Option.some.inj hq
    rw [Piece.joined?, CodePoint.joined?_half_char, ite_self]
  | halves _ hjoined _ =>
    obtain rfl := Option.some.inj hq
    exact CodePoint.joined?_half_half_of_lt (CodePoint.lt_of_joined? hjoined)
  | half e _ =>
    obtain rfl := Option.some.inj hq
    exact hapart _ rfl

theorem joinHalves_of_true (h : IsWriting true codes pieces) : joinHalves pieces = joinCodes codes := by
  fun_induction joinCodes codes generalizing pieces with
  | case1 => cases h; rfl
  | case2 high low rest c hjoined ih =>
    cases h with
    | half d h =>
      cases h with
      | half e h => rw [joinHalves_halves hjoined, ih h]
      | _ => cases hjoined
    | _ => cases hjoined
  | case3 high low rest hapart ih =>
    cases h with
    | char c byCode h => rw [joinHalves_char_cons, ih h]
    | halves _ hjoined h => rw [joinHalves_halves hjoined, ih h]
    | half d h =>
      rw [joinHalves_cons (h.joined?_head? fun p hp ↦ ?_), ih h]
      rw [← Option.some.inj hp, hapart]
  | case4 p =>
    cases h with
    | char c byCode h => cases h; rfl
    | halves _ hjoined h => cases h; exact joinHalves_halves hjoined []
    | half d h => cases h; rfl

end IsWriting

/-- Whether a text inside quotes is read as what writes one code point, whatever follows. -/
def IsEscapeOf (ascii : Bool) (text : List CodePoint) (p : CodePoint) : Prop :=
  ∃ written, (∀ rest, readPieces (text ++ rest) = (readPieces rest).map fun r ↦ (written ++ r.1, r.2)) ∧
    ∀ codes pieces, IsWriting ascii codes pieces → IsWriting ascii (p :: codes) (written ++ pieces)

theorem isEscapeOf_of_piece {ascii byCode : Bool} {text : List CodePoint} {c : Char}
    (h : ∀ rest, readPieces (text ++ rest) = (readPieces rest).map fun r ↦ (⟨char c, byCode⟩ :: r.1, r.2)) :
    IsEscapeOf ascii text (char c) :=
  ⟨[⟨char c, byCode⟩], h, fun _ _ hwriting ↦ hwriting.char c byCode⟩

theorem isEscapeOf_escapeChar (ascii : Bool) (c : Char) : IsEscapeOf ascii ((escapeChar c).map char) (char c) := by
  rw [escapeChar]
  split_ifs with hquote hback _ _ _ _ _ hcontrol
  -- seven characters are written by a letter, the other controls in digits
  iterate 7
    · subst c
      exact isEscapeOf_of_piece (readPieces_of_simpleEscape? rfl)
  · obtain ⟨a, b, d, e, hdigits, hquad⟩ := exists_hexDigits_four (n := c.toNat) (by omega)
    have hcode : CodePoint.ofCode c.toNat = char c := ofCode_code (char c)
    rw [hdigits]
    exact isEscapeOf_of_piece (hcode ▸ readPieces_of_hexQuad? hquad)
  · exact isEscapeOf_of_piece (readPieces_of_plain (mt CodePoint.char.inj hquote)
      (mt CodePoint.char.inj hback) hcontrol)

theorem readPieces_flatMap_hexDigits {units : List Nat} (h : ∀ unit ∈ units, unit < 65536)
    (rest : List CodePoint) :
    readPieces ((units.flatMap fun unit ↦ ('\\' :: 'u' :: Text.hexDigits 4 unit).map char) ++ rest)
      = (readPieces rest).map fun r ↦ (units.map (fun unit ↦ ⟨.ofCode unit, true⟩) ++ r.1, r.2) := by
  induction units with
  | nil => cases hrest : readPieces rest <;> simp [hrest]
  | cons unit units ih =>
    obtain ⟨hunit, h⟩ := List.forall_mem_cons.mp h
    obtain ⟨a, b, c, d, hdigits, hquad⟩ := exists_hexDigits_four hunit
    rw [List.flatMap_cons, hdigits, List.append_assoc, readPieces_of_hexQuad? hquad, ih h, Option.map_map]
    rfl

theorem codeUnits_lt (p : CodePoint) : ∀ unit ∈ codeUnits p.code, unit < 65536 := by
  have hlt : p.code < 0x110000 := by
    cases p with
    | char c => exact toNat_lt c
    | half h => rw [CodePoint.code]; omega
  intro unit hunit
  rw [codeUnits] at hunit
  split at hunit
  · rw [List.mem_singleton.mp hunit]
    assumption
  · simp only [List.mem_cons, List.not_mem_nil, or_false] at hunit
    omega

/-- The two halves of a character beyond sixteen bits. -/
theorem exists_halves {c : Char} (h : ¬c.toNat < 0x10000) :
    ∃ high low, (codeUnits c.toNat).map CodePoint.ofCode = [.half high, .half low] ∧
      (CodePoint.half high).joined? (.half low) = some c := by
  have hlt := toNat_lt c
  refine ⟨⟨(c.toNat - 0x10000) / 1024, by omega⟩, ⟨1024 + (c.toNat - 0x10000) % 1024, by omega⟩, ?_, ?_⟩
  · have hhigh := ofCode_code (.half ⟨(c.toNat - 0x10000) / 1024, by omega⟩)
    have hlow := ofCode_code (.half ⟨1024 + (c.toNat - 0x10000) % 1024, by omega⟩)
    rw [CodePoint.code] at hhigh hlow
    have hunit : 0xDC00 + (c.toNat - 0x10000) % 1024 = 0xD800 + (1024 + (c.toNat - 0x10000) % 1024) := by omega
    rw [codeUnits, if_neg h, List.map_cons, List.map_singleton, hhigh, hunit, hlow]
  · rw [CodePoint.joined?, if_pos (by dsimp only; omega)]
    have hcode : 0x10000 + (c.toNat - 0x10000) / 1024 * 1024 + (1024 + (c.toNat - 0x10000) % 1024 - 1024)
        = c.toNat := by omega
    dsimp only
    rw [hcode, Char.ofNat_toNat]

theorem codeUnits_of_lt {code : Nat} (h : code < 0x10000) : codeUnits code = [code] := if_pos h

theorem isWriting_codeUnits (p : CodePoint) {codes : List CodePoint} {pieces : List Piece}
    (h : IsWriting true codes pieces) :
    IsWriting true (p :: codes) ((codeUnits p.code).map (fun unit ↦ ⟨.ofCode unit, true⟩) ++ pieces) := by
  cases p with
  | half d =>
    have hcode : (CodePoint.half d).code < 0x10000 := by rw [CodePoint.code]; omega
    rw [codeUnits_of_lt hcode, List.map_singleton, ofCode_code]
    exact h.half d
  | char c =>
    by_cases hsmall : c.toNat < 0x10000
    · rw [CodePoint.code, codeUnits_of_lt hsmall, List.map_singleton, ← CodePoint.code, ofCode_code]
      exact h.char c true
    · obtain ⟨high, low, hunits, hjoined⟩ := exists_halves hsmall
      have hpieces := congrArg (List.map fun p ↦ (⟨p, true⟩ : Piece)) hunits
      rw [List.map_map] at hpieces
      exact hpieces ▸ h.halves rfl hjoined

/-- Every code point is written, whether the text is kept to ASCII or not. -/
theorem isEscapeOf_escapeWithin (ascii : Bool) (p : CodePoint) : IsEscapeOf ascii (escapeWithin ascii p) p := by
  rw [escapeWithin]
  split
  · rename_i hcode
    obtain ⟨rfl, -⟩ := Bool.and_eq_true_iff.mp hcode
    exact ⟨_, readPieces_flatMap_hexDigits (codeUnits_lt p), fun _ _ ↦ isWriting_codeUnits p⟩
  · rename_i hcode
    cases p with
    | char c => exact isEscapeOf_escapeChar ascii c
    | half d =>
      have hlarge : 127 ≤ (CodePoint.half d).code := by rw [CodePoint.code]; omega
      obtain rfl : ascii = false := by
        rw [decide_eq_true hlarge, Bool.and_true] at hcode
        exact eq_false_of_ne_true hcode
      have hplain := readPieces_of_plain (p := .half d) nofun nofun (by omega)
      exact ⟨[⟨.half d, false⟩], hplain, fun _ _ h ↦ h.half d⟩

/-- What a text in quotes is read as, kept to ASCII or not. -/
def rereadText (ascii : Bool) (t : CodeText) : CodeText := if ascii then t.joined else t

/-- **Strings survive.** A string is read up to the quote that closes it, whatever it holds and whatever
follows. It is read back as it was, but in a text that is kept to ASCII halves that belong together are read as
one character. -/
theorem readString_flatMap (ascii : Bool) (t : CodeText) (rest : List CodePoint) :
    readString (t.codes.flatMap (escapeWithin ascii) ++ char '"' :: rest) = some (rereadText ascii t, rest) := by
  have hread : ∀ codes : List CodePoint, ∃ pieces,
      readPieces (codes.flatMap (escapeWithin ascii) ++ char '"' :: rest) = some (pieces, rest) ∧
        IsWriting ascii codes pieces := by
    intro codes
    induction codes with
    | nil => exact ⟨[], by rw [List.flatMap_nil, List.nil_append, readPieces], .nil⟩
    | cons p codes ih =>
      obtain ⟨pieces, hread, hwriting⟩ := ih
      obtain ⟨written, hwritten, hone⟩ := isEscapeOf_escapeWithin ascii p
      refine ⟨written ++ pieces, ?_, hone _ _ hwriting⟩
      rw [List.flatMap_cons, List.append_assoc, hwritten, hread]
      rfl
  obtain ⟨pieces, hread, hwriting⟩ := hread t.codes
  have hjoined : CodeText.mk (joinHalves pieces) = rereadText ascii t := by
    cases ascii
    · exact congrArg CodeText.mk hwriting.joinHalves_of_false
    · exact congrArg CodeText.mk hwriting.joinHalves_of_true
  rw [readString, hread, ← hjoined]
  rfl

theorem escapeWithin_false : escapeWithin false = escapeCode := by
  funext p
  rw [escapeWithin, Bool.false_and, if_neg Bool.false_ne_true]

theorem readString_flatMap_escapeCode (t : CodeText) (rest : List CodePoint) :
    readString (t.codes.flatMap escapeCode ++ char '"' :: rest) = some (t, rest) := by
  rw [← escapeWithin_false, readString_flatMap]
  rfl

end Json

end NoteQuery
