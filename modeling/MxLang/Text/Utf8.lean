import MxLang.Text.Basic

/-!
# UTF-8

Bytes are read strictly: overlong forms, surrogates and values above U+10FFFF are refused, because
the lead byte fixes the range of the byte after it.  A refusal tells the bytes of the first bad
sequence and what is wrong with it: no sequence starts with its first byte, a byte that is not
allowed there follows, or the data end within it.
-/

namespace MxLang.Text.Utf8

/-- What is wrong with a byte sequence. -/
inductive Reason
  | startByte
  | continuationByte
  | endOfData
deriving DecidableEq, Repr

/-- The bytes from `start` up to `stop`, `stop` excluded, belong to no character. -/
structure Flaw where
  start : Nat
  stop : Nat
  reason : Reason
deriving DecidableEq, Repr

/-- What a lead byte announces. -/
structure Lead where
  /-- How many bytes follow. -/
  count : Nat
  /-- The least value of the first of them. -/
  least : Nat
  /-- The greatest value of the first of them. -/
  most : Nat
  /-- The bits that the lead byte contributes. -/
  bits : Nat

/-- The lead bytes of sequences of two, three and four bytes. -/
def lead? (b : Nat) : Option Lead :=
  if b < 0xC2 then none
  else if b < 0xE0 then some ⟨1, 0x80, 0xBF, b - 0xC0⟩
  else if b < 0xF0 then
    some ⟨2, if b = 0xE0 then 0xA0 else 0x80, if b = 0xED then 0x9F else 0xBF, b - 0xE0⟩
  else if b < 0xF5 then
    some ⟨3, if b = 0xF0 then 0x90 else 0x80, if b = 0xF4 then 0x8F else 0xBF, b - 0xF0⟩
  else none

/-- Reading `count` more bytes of a sequence of which `seen` bytes with value `bits` are read; the
next one lies between `least` and `most`. -/
def readTail (least most bits seen : Nat) :
    (count : Nat) → List UInt8 → Except (Nat × Reason) (Char × List UInt8)
  | 0, bytes => .ok (Char.ofNat bits, bytes)
  | _ + 1, [] => .error (seen, .endOfData)
  | k + 1, b :: bytes =>
    if least ≤ b.toNat && b.toNat ≤ most then
      readTail 0x80 0xBF (bits * 64 + (b.toNat - 0x80)) (seen + 1) k bytes
    else .error (seen, .continuationByte)

/-- The first character and the bytes after it, or the length of the bad sequence. -/
def readChar (b : UInt8) (bytes : List UInt8) : Except (Nat × Reason) (Char × List UInt8) :=
  if b.toNat < 0x80 then .ok (Char.ofNat b.toNat, bytes)
  else
    match lead? b.toNat with
    | none => .error (1, .startByte)
    | some l => readTail l.least l.most l.bits 1 l.count bytes

theorem readTail_length {least most bits seen count : Nat} {bytes rest : List UInt8} {c : Char}
    (h : readTail least most bits seen count bytes = .ok (c, rest)) :
    rest.length ≤ bytes.length := by
  induction count generalizing least most bits seen bytes with
  | zero => simp_all [readTail]
  | succ k ih =>
    cases bytes with
    | nil => simp [readTail] at h
    | cons b bytes =>
      simp only [readTail] at h
      split at h
      · have := ih h
        simp only [List.length_cons]
        omega
      · cases h

theorem readChar_length {b : UInt8} {bytes rest : List UInt8} {c : Char}
    (h : readChar b bytes = .ok (c, rest)) : rest.length < (b :: bytes).length := by
  have hle : rest.length ≤ bytes.length := by
    unfold readChar at h
    split at h
    · simp_all
    · split at h
      · cases h
      · exact readTail_length h
  simp only [List.length_cons]
  omega

/-- Reading the bytes from `start` on; the characters before them stand in `done`, the latest
first. -/
def decodeOnto (done : Text) (start : Nat) (bytes : List UInt8) : Except Flaw Text :=
  match bytes with
  | [] => .ok done.reverse
  | b :: bytes =>
    match _h : readChar b bytes with
    | .ok (c, rest) =>
      decodeOnto (c :: done) (start + c.utf8Size) rest
    | .error (length, reason) => .error ⟨start, start + length, reason⟩
termination_by bytes.length
decreasing_by exact readChar_length _h

/-- The text that the bytes encode, or the first bad sequence. -/
def decode (bytes : List UInt8) : Except Flaw Text :=
  decodeOnto [] 0 bytes

/-- The bytes of a text. -/
def encode (t : Text) : List UInt8 :=
  t.flatMap String.utf8EncodeChar

/-- The words for what is wrong. -/
def Reason.words : Reason → Text
  | .startByte => "invalid start byte".toList
  | .continuationByte => "invalid continuation byte".toList
  | .endOfData => "unexpected end of data".toList

end MxLang.Text.Utf8
