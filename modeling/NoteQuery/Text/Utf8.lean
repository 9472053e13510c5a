import NoteQuery.Text.Quoted

/-!
# Texts and UTF-8

Files are bytes. A malformed sequence is no error: each longest beginning of a well-formed sequence
that is cut short, and each byte that can begin none, is read as one replacement character U+FFFD.

A half of a character has no bytes of its own, so a text that holds one cannot be written.
-/

namespace NoteQuery.Text

/-- The number of continuation bytes after a lead byte, the bits it contributes, and the range of the
first continuation byte. The ranges shut out overlong forms, surrogates and what lies beyond U+10FFFF.
-/
def utf8Lead? (b : UInt8) : Option (Nat × Nat × UInt8 × UInt8) :=
  if 0xC2 ≤ b && b ≤ 0xDF then some (1, b.toNat - 0xC0, 0x80, 0xBF)
  else if b == 0xE0 then some (2, 0, 0xA0, 0xBF)
  else if b == 0xED then some (2, 0xD, 0x80, 0x9F)
  else if 0xE1 ≤ b && b ≤ 0xEF then some (2, b.toNat - 0xE0, 0x80, 0xBF)
  else if b == 0xF0 then some (3, 0, 0x90, 0xBF)
  else if b == 0xF4 then some (3, 4, 0x80, 0x8F)
  else if 0xF1 ≤ b && b ≤ 0xF3 then some (3, b.toNat - 0xF0, 0x80, 0xBF)
  else none

/-- A sequence that has begun: how many bytes it lacks, the bits so far, and the range of its next
byte. -/
structure Utf8Pending where
  /-- The bytes still to come. -/
  missing : Nat
  /-- The bits read so far. -/
  bits : Nat
  /-- The least next byte. -/
  least : UInt8
  /-- The greatest next byte. -/
  greatest : UInt8

/-- One byte outside any sequence: a character, the beginning of a sequence, or a replacement. -/
def utf8Start (b : UInt8) : List Char × Option Utf8Pending :=
  if b < 0x80 then ([Char.ofNat b.toNat], none)
  else match utf8Lead? b with
    | some (missing, bits, least, greatest) => ([], some ⟨missing, bits, least, greatest⟩)
    | none => (['\uFFFD'], none)

/-- One byte in the state left by the bytes before it. A byte that does not continue the sequence that
has begun ends it with a replacement and is read anew. -/
def utf8Step (state : Option Utf8Pending) (b : UInt8) : List Char × Option Utf8Pending :=
  match state with
  | none => utf8Start b
  | some p =>
    if p.least ≤ b && b ≤ p.greatest then
      let bits := p.bits * 64 + (b.toNat - 0x80)
      if p.missing ≤ 1 then ([Char.ofNat bits], none)
      else ([], some ⟨p.missing - 1, bits, 0x80, 0xBF⟩)
    else
      let (chars, next) := utf8Start b
      ('\uFFFD' :: chars, next)

/-- The characters of a byte sequence, malformed parts replaced. -/
def decodeUtf8From (state : Option Utf8Pending) : List UInt8 → List Char
  | [] => if state.isSome then ['\uFFFD'] else []
  | b :: rest => (utf8Step state b).1 ++ decodeUtf8From (utf8Step state b).2 rest

/-! ## Writing -/

/-- Why a text has no bytes: the first halves in it that stand side by side. -/
structure HalfFault where
  /-- The first of them. -/
  half : Fin 2048
  /-- The number of code points before it. -/
  place : Nat
  /-- The number of halves right behind it. -/
  more : Nat
deriving Repr, DecidableEq

/-- What a fault says. -/
def HalfFault.message (f : HalfFault) : String :=
  if f.more = 0 then
    "'utf-8' codec can't encode character '" ++ String.ofList (escapeCode (CodePoint.half f.half).code) ++
      s!"' in position {f.place}: surrogates not allowed"
  else s!"'utf-8' codec can't encode characters in position {f.place}-{f.place + f.more}: surrogates not allowed"

/-- The characters of a text of which `place` code points are before. -/
def charsFrom (place : Nat) : List CodePoint → Except HalfFault (List Char)
  | [] => .ok []
  | .char c :: rest => (charsFrom (place + 1) rest).map (c :: ·)
  | .half h :: rest => .error ⟨h, place, (rest.takeWhile (!·.isChar)).length⟩

/-- The string that a text is, if it has bytes. -/
def encodable (t : CodeText) : Except HalfFault String := (charsFrom 0 t.codes).map String.ofList

end NoteQuery.Text
