import Mathlib.Data.List.Basic
import MxLang.Text.Utf8

/-!
# Reading and writing UTF-8

`decode_encode`: the bytes of a text are read as that text.  A character is written with one to four
bytes, and reading takes just these bytes and leaves what follows them (`readChar_encode`).

The lead byte tells how many bytes follow and narrows the range of the first of them.  The ranges
leave out what a shorter sequence would do for, the surrogates, and what lies above the last
character; the bytes of a character never fall there, because its code lies in the span of its
length and is no surrogate.  The other way round, bytes in these ranges are those of a character
(`eq_append_of_readChar`).

Bytes that are no text go wrong at a place (`BreaksAt`): the bytes before it are a text, and no
character starts there (`encode_or_breaksAt`).  There is only one such place, and it is the one that
is told (`BreaksAt.decode`).
-/

namespace MxLang.Text.Utf8

theorem toNat_ofNat {n : Nat} (h : n < 256) : (UInt8.ofNat n).toNat = n := by
  rw [UInt8.toNat_ofNat']
  exact Nat.mod_eq_of_lt h

theorem readTail_cons {least most bits seen k : Nat} {b : UInt8} {bytes : List UInt8}
    (hl : least ≤ b.toNat) (hm : b.toNat ≤ most) :
    readTail least most bits seen (k + 1) (b :: bytes)
      = readTail 0x80 0xBF (bits * 64 + (b.toNat - 0x80)) (seen + 1) k bytes := by
  rw [readTail, if_pos]
  rw [Bool.and_eq_true, decide_eq_true_eq, decide_eq_true_eq]
  exact ⟨hl, hm⟩

theorem readChar_of_lead {b : UInt8} {bytes : List UInt8} {l : Lead} (hb : 0x80 ≤ b.toNat)
    (hl : lead? b.toNat = some l) :
    readChar b bytes = readTail l.least l.most l.bits 1 l.count bytes := by
  rw [readChar, if_neg (by omega), hl]

/-! ### The lead bytes -/

theorem lead?_two {b : Nat} (hlo : 0xC2 ≤ b) (hhi : b < 0xE0) :
    lead? b = some ⟨1, 0x80, 0xBF, b - 0xC0⟩ := by
  rw [lead?, if_neg (by omega), if_pos hhi]

theorem lead?_three {b : Nat} (hlo : 0xE0 ≤ b) (hhi : b < 0xF0) :
    lead? b = some ⟨2, if b = 0xE0 then 0xA0 else 0x80, if b = 0xED then 0x9F else 0xBF,
      b - 0xE0⟩ := by
  rw [lead?, if_neg (by omega), if_neg (by omega), if_pos hhi]

theorem lead?_four {b : Nat} (hlo : 0xF0 ≤ b) (hhi : b < 0xF5) :
    lead? b = some ⟨3, if b = 0xF0 then 0x90 else 0x80, if b = 0xF4 then 0x8F else 0xBF,
      b - 0xF0⟩ := by
  rw [lead?, if_neg (by omega), if_neg (by omega), if_neg (by omega), if_pos hhi]

/-! ### One character -/

/-- A code is below the surrogates or above them. -/
theorem toNat_valid (c : Char) : c.toNat < 0xD800 ∨ 0xDFFF < c.toNat ∧ c.toNat < 0x110000 :=
  c.valid

theorem ofNat_eq {c : Char} {n : Nat} (h : n = c.toNat) : Char.ofNat n = c := by
  rw [h]
  exact Char.ofNat_toNat c

theorem readChar_two {c : Char} (hlo : 127 < c.toNat) (hhi : c.toNat ≤ 2047) (rest : List UInt8) :
    readChar (UInt8.ofNat (c.toNat / 64 % 32 + 192))
      (UInt8.ofNat (c.toNat % 64 + 128) :: rest) = .ok (c, rest) := by
  have h1 := toNat_ofNat (show c.toNat / 64 % 32 + 192 < 256 by omega)
  have h2 := toNat_ofNat (show c.toNat % 64 + 128 < 256 by omega)
  have hlead := lead?_two (b := c.toNat / 64 % 32 + 192) (by omega) (by omega)
  rw [readChar_of_lead (by omega) (h1 ▸ hlead)]
  dsimp only
  rw [readTail_cons (by omega) (by omega), readTail, h2]
  rw [ofNat_eq (c := c) (by omega)]

theorem readChar_three {c : Char} (hlo : 2047 < c.toNat) (hhi : c.toNat ≤ 65535)
    (rest : List UInt8) :
    readChar (UInt8.ofNat (c.toNat / 4096 % 16 + 224))
      (UInt8.ofNat (c.toNat / 64 % 64 + 128) :: UInt8.ofNat (c.toNat % 64 + 128) :: rest)
      = .ok (c, rest) := by
  have h1 := toNat_ofNat (show c.toNat / 4096 % 16 + 224 < 256 by omega)
  have h2 := toNat_ofNat (show c.toNat / 64 % 64 + 128 < 256 by omega)
  have h3 := toNat_ofNat (show c.toNat % 64 + 128 < 256 by omega)
  have hlead := lead?_three (b := c.toNat / 4096 % 16 + 224) (by omega) (by omega)
  have hvalid := toNat_valid c
  rw [readChar_of_lead (by omega) (h1 ▸ hlead)]
  dsimp only
  -- The first byte after the lead byte is in the narrowed range: no overlong form, no surrogate.
  rw [readTail_cons (by split <;> omega) (by split <;> omega),
    readTail_cons (by omega) (by omega), readTail, h2, h3]
  rw [ofNat_eq (c := c) (by omega)]

theorem readChar_four {c : Char} (hlo : 65535 < c.toNat) (rest : List UInt8) :
    readChar (UInt8.ofNat (c.toNat / 262144 % 8 + 240))
      (UInt8.ofNat (c.toNat / 4096 % 64 + 128) :: UInt8.ofNat (c.toNat / 64 % 64 + 128) ::
        UInt8.ofNat (c.toNat % 64 + 128) :: rest) = .ok (c, rest) := by
  have hvalid := toNat_valid c
  have h1 := toNat_ofNat (show c.toNat / 262144 % 8 + 240 < 256 by omega)
  have h2 := toNat_ofNat (show c.toNat / 4096 % 64 + 128 < 256 by omega)
  have h3 := toNat_ofNat (show c.toNat / 64 % 64 + 128 < 256 by omega)
  have h4 := toNat_ofNat (show c.toNat % 64 + 128 < 256 by omega)
  have hlead := lead?_four (b := c.toNat / 262144 % 8 + 240) (by omega) (by omega)
  rw [readChar_of_lead (by omega) (h1 ▸ hlead)]
  dsimp only
  rw [readTail_cons (by split <;> omega) (by split <;> omega),
    readTail_cons (by omega) (by omega), readTail_cons (by omega) (by omega), readTail, h2, h3, h4]
  rw [ofNat_eq (c := c) (by omega)]

/-- **A written character is read back**, and what follows it is left. -/
theorem readChar_encode (c : Char) (rest : List UInt8) :
    ∃ b more, String.utf8EncodeChar c = b :: more ∧ readChar b (more ++ rest) = .ok (c, rest) := by
  rw [String.utf8EncodeChar]
  change ∃ b more, (if c.toNat ≤ 127 then _ else if c.toNat ≤ 2047 then _ else
    if c.toNat ≤ 65535 then _ else _) = b :: more ∧ _
  by_cases h1 : c.toNat ≤ 127
  · rw [if_pos h1]
    refine ⟨_, _, rfl, ?_⟩
    have hb := toNat_ofNat (show c.toNat < 256 by omega)
    change readChar (UInt8.ofNat c.toNat) rest = _
    rw [readChar, if_pos (by omega), hb, ofNat_eq rfl]
  · rw [if_neg h1]
    by_cases h2 : c.toNat ≤ 2047
    · rw [if_pos h2]
      exact ⟨_, _, rfl, readChar_two (by omega) h2 rest⟩
    · rw [if_neg h2]
      by_cases h3 : c.toNat ≤ 65535
      · rw [if_pos h3]
        exact ⟨_, _, rfl, readChar_three (by omega) h3 rest⟩
      · rw [if_neg h3]
        exact ⟨_, _, rfl, readChar_four (by omega) rest⟩

/-! ### Whole texts -/

theorem decodeOnto_of_ok {b : UInt8} {bytes rest : List UInt8} {c : Char}
    (h : readChar b bytes = .ok (c, rest)) (done : Text) (start : Nat) :
    decodeOnto done start (b :: bytes) = decodeOnto (c :: done) (start + c.utf8Size) rest := by
  rw [decodeOnto]
  split
  · rename_i d more hd
    rw [h] at hd
    obtain ⟨rfl, rfl⟩ := Prod.mk.inj (Except.ok.inj hd)
    rfl
  · rename_i length reason hd
    rw [h] at hd
    cases hd

theorem decodeOnto_of_error {b : UInt8} {bytes : List UInt8} {length : Nat} {reason : Reason}
    (h : readChar b bytes = .error (length, reason)) (done : Text) (start : Nat) :
    decodeOnto done start (b :: bytes) = .error ⟨start, start + length, reason⟩ := by
  rw [decodeOnto]
  split
  · rename_i d more hd
    rw [h] at hd
    cases hd
  · rename_i n why hd
    rw [h] at hd
    obtain ⟨rfl, rfl⟩ := Prod.mk.inj (Except.error.inj hd)
    rfl

theorem encode_cons (c : Char) (t : Text) : encode (c :: t) = String.utf8EncodeChar c ++ encode t :=
  List.flatMap_cons

/-- The bytes of a text are read first, whatever follows them. -/
theorem decodeOnto_append (t : Text) : ∀ (done : Text) (start : Nat) (rest : List UInt8),
    decodeOnto done start (encode t ++ rest)
      = decodeOnto (t.reverse ++ done) (start + (encode t).length) rest := by
  induction t with
  | nil =>
    intro done start rest
    rfl
  | cons c t ih =>
    intro done start rest
    obtain ⟨b, more, hbytes, hread⟩ := readChar_encode c (encode t ++ rest)
    have hsize : (b :: more).length = c.utf8Size := hbytes ▸ String.length_utf8EncodeChar c
    rw [encode_cons, hbytes, List.cons_append, List.cons_append, List.append_assoc,
      decodeOnto_of_ok hread, ih, List.reverse_cons, List.append_assoc, List.singleton_append,
      ← List.cons_append, List.length_append, hsize, Nat.add_assoc]

/-- **The bytes of a text are read as the text.** -/
theorem decode_encode (t : Text) : decode (encode t) = .ok t := by
  have h := decodeOnto_append t [] 0 []
  rw [List.append_nil, List.append_nil, decodeOnto, List.reverse_reverse] at h
  exact h

/-! ### What is read was written -/

theorem toNat_charOfNat {n : Nat} (h : n.isValidChar) : (Char.ofNat n).toNat = n := by
  rw [Char.ofNat, dif_pos h]
  rfl

theorem byte_ofNat_eq {b : UInt8} {n : Nat} (h : n = b.toNat) : UInt8.ofNat n = b := by
  rw [h]
  exact UInt8.ofNat_toNat

theorem readTail_zero {least most bits seen : Nat} {bytes rest : List UInt8} {c : Char}
    (h : readTail least most bits seen 0 bytes = .ok (c, rest)) :
    c = Char.ofNat bits ∧ rest = bytes := by
  rw [readTail] at h
  obtain ⟨rfl, rfl⟩ := Prod.mk.inj (Except.ok.inj h)
  exact ⟨rfl, rfl⟩

theorem readTail_succ {least most bits seen k : Nat} {bytes : List UInt8} {r : Char × List UInt8}
    (h : readTail least most bits seen (k + 1) bytes = .ok r) :
    ∃ b more, bytes = b :: more ∧ least ≤ b.toNat ∧ b.toNat ≤ most ∧
      readTail 0x80 0xBF (bits * 64 + (b.toNat - 0x80)) (seen + 1) k more = .ok r := by
  cases bytes with
  | nil =>
    rw [readTail] at h
    cases h
  | cons b more =>
    rw [readTail] at h
    split at h
    · rename_i hrange
      rw [Bool.and_eq_true, decide_eq_true_eq, decide_eq_true_eq] at hrange
      exact ⟨b, more, rfl, hrange.1, hrange.2, h⟩
    · cases h

theorem lead?_eq_some {b : Nat} {l : Lead} (h : lead? b = some l) :
    (0xC2 ≤ b ∧ b < 0xE0 ∧ l = ⟨1, 0x80, 0xBF, b - 0xC0⟩) ∨
      (0xE0 ≤ b ∧ b < 0xF0 ∧ l = ⟨2, if b = 0xE0 then 0xA0 else 0x80,
        if b = 0xED then 0x9F else 0xBF, b - 0xE0⟩) ∨
      (0xF0 ≤ b ∧ b < 0xF5 ∧ l = ⟨3, if b = 0xF0 then 0x90 else 0x80,
        if b = 0xF4 then 0x8F else 0xBF, b - 0xF0⟩) := by
  have hlo : 0xC2 ≤ b := by
    by_contra hb
    rw [lead?, if_pos (by omega)] at h
    cases h
  by_cases h2 : b < 0xE0
  · rw [lead?_two hlo h2] at h
    exact .inl ⟨hlo, h2, (Option.some.inj h).symm⟩
  · by_cases h3 : b < 0xF0
    · rw [lead?_three (by omega) h3] at h
      exact .inr (.inl ⟨by omega, h3, (Option.some.inj h).symm⟩)
    · by_cases h4 : b < 0xF5
      · rw [lead?_four (by omega) h4] at h
        exact .inr (.inr ⟨by omega, h4, (Option.some.inj h).symm⟩)
      · rw [lead?, if_neg (by omega), if_neg h2, if_neg h3, if_neg h4] at h
        cases h

theorem utf8EncodeChar_ofNat {n : Nat} (h : n.isValidChar) :
    String.utf8EncodeChar (Char.ofNat n)
      = if n ≤ 127 then [UInt8.ofNat n]
        else if n ≤ 2047 then [UInt8.ofNat (n / 64 % 32 + 192), UInt8.ofNat (n % 64 + 128)]
        else if n ≤ 65535 then
          [UInt8.ofNat (n / 4096 % 16 + 224), UInt8.ofNat (n / 64 % 64 + 128),
            UInt8.ofNat (n % 64 + 128)]
        else
          [UInt8.ofNat (n / 262144 % 8 + 240), UInt8.ofNat (n / 4096 % 64 + 128),
            UInt8.ofNat (n / 64 % 64 + 128), UInt8.ofNat (n % 64 + 128)] := by
  have hn : (Char.ofNat n).val.toNat = n := toNat_charOfNat h
  rw [String.utf8EncodeChar]
  simp only [hn]

/-- Two bytes in their ranges are the bytes of a character. -/
theorem utf8EncodeChar_two {b x : UInt8} (hb : 0xC2 ≤ b.toNat) (hb' : b.toNat < 0xE0)
    (hx : 0x80 ≤ x.toNat) (hx' : x.toNat ≤ 0xBF) :
    String.utf8EncodeChar (Char.ofNat ((b.toNat - 0xC0) * 64 + (x.toNat - 0x80))) = [b, x] := by
  rw [utf8EncodeChar_ofNat (.inl (by omega)), if_neg (by omega), if_pos (by omega),
    byte_ofNat_eq (b := b) (by omega), byte_ofNat_eq (b := x) (by omega)]

/-- Three bytes in their ranges are the bytes of a character: the range of the second leaves out
what two bytes would do for, and the surrogates. -/
theorem utf8EncodeChar_three {b x y : UInt8} (hb : 0xE0 ≤ b.toNat) (hb' : b.toNat < 0xF0)
    (hx : (if b.toNat = 0xE0 then 0xA0 else 0x80) ≤ x.toNat)
    (hx' : x.toNat ≤ if b.toNat = 0xED then 0x9F else 0xBF)
    (hy : 0x80 ≤ y.toNat) (hy' : y.toNat ≤ 0xBF) :
    String.utf8EncodeChar (Char.ofNat
      (((b.toNat - 0xE0) * 64 + (x.toNat - 0x80)) * 64 + (y.toNat - 0x80))) = [b, x, y] := by
  have hlow : 0x80 ≤ x.toNat ∧ (b.toNat = 0xE0 → 0xA0 ≤ x.toNat) := by
    split at hx <;> omega
  have hhigh : x.toNat ≤ 0xBF ∧ (b.toNat = 0xED → x.toNat ≤ 0x9F) := by
    split at hx' <;> omega
  have hvalid : (((b.toNat - 0xE0) * 64 + (x.toNat - 0x80)) * 64
      + (y.toNat - 0x80)).isValidChar := by
    unfold Nat.isValidChar
    omega
  rw [utf8EncodeChar_ofNat hvalid, if_neg (by omega), if_neg (by omega), if_pos (by omega),
    byte_ofNat_eq (b := b) (by omega), byte_ofNat_eq (b := x) (by omega),
    byte_ofNat_eq (b := y) (by omega)]

/-- Four bytes in their ranges are the bytes of a character: the range of the second leaves out what
three bytes would do for, and what lies above the last character. -/
theorem utf8EncodeChar_four {b x y z : UInt8} (hb : 0xF0 ≤ b.toNat) (hb' : b.toNat < 0xF5)
    (hx : (if b.toNat = 0xF0 then 0x90 else 0x80) ≤ x.toNat)
    (hx' : x.toNat ≤ if b.toNat = 0xF4 then 0x8F else 0xBF)
    (hy : 0x80 ≤ y.toNat) (hy' : y.toNat ≤ 0xBF) (hz : 0x80 ≤ z.toNat) (hz' : z.toNat ≤ 0xBF) :
    String.utf8EncodeChar (Char.ofNat
      ((((b.toNat - 0xF0) * 64 + (x.toNat - 0x80)) * 64 + (y.toNat - 0x80)) * 64
        + (z.toNat - 0x80))) = [b, x, y, z] := by
  have hlow : 0x80 ≤ x.toNat ∧ (b.toNat = 0xF0 → 0x90 ≤ x.toNat) := by
    split at hx <;> omega
  have hhigh : x.toNat ≤ 0xBF ∧ (b.toNat = 0xF4 → x.toNat ≤ 0x8F) := by
    split at hx' <;> omega
  rw [utf8EncodeChar_ofNat (.inr (by omega)), if_neg (by omega), if_neg (by omega),
    if_neg (by omega), byte_ofNat_eq (b := b) (by omega), byte_ofNat_eq (b := x) (by omega),
    byte_ofNat_eq (b := y) (by omega), byte_ofNat_eq (b := z) (by omega)]

/-- **What is read as a character are the bytes of that character.** -/
theorem eq_append_of_readChar {b : UInt8} {bytes rest : List UInt8} {c : Char}
    (h : readChar b bytes = .ok (c, rest)) : b :: bytes = String.utf8EncodeChar c ++ rest := by
  by_cases h1 : b.toNat < 0x80
  · rw [readChar, if_pos h1] at h
    obtain ⟨rfl, rfl⟩ := Prod.mk.inj (Except.ok.inj h)
    rw [utf8EncodeChar_ofNat (.inl (by omega)), if_pos (by omega), byte_ofNat_eq rfl]
    rfl
  · cases hl : lead? b.toNat with
    | none =>
      rw [readChar, if_neg h1, hl] at h
      cases h
    | some l =>
      rw [readChar_of_lead (by omega) hl] at h
      -- As many bytes follow as the lead byte announces.
      rcases lead?_eq_some hl with ⟨hb, hb', rfl⟩ | ⟨hb, hb', rfl⟩ | ⟨hb, hb', rfl⟩
      · obtain ⟨x, more, rfl, hx, hx', h⟩ := readTail_succ h
        obtain ⟨hc, rfl⟩ := readTail_zero h
        rw [hc, utf8EncodeChar_two hb hb' hx hx']
        rfl
      · obtain ⟨x, more, rfl, hx, hx', h⟩ := readTail_succ h
        obtain ⟨y, more, rfl, hy, hy', h⟩ := readTail_succ h
        obtain ⟨hc, rfl⟩ := readTail_zero h
        rw [hc, utf8EncodeChar_three hb hb' hx hx' hy hy']
        rfl
      · obtain ⟨x, more, rfl, hx, hx', h⟩ := readTail_succ h
        obtain ⟨y, more, rfl, hy, hy', h⟩ := readTail_succ h
        obtain ⟨z, more, rfl, hz, hz', h⟩ := readTail_succ h
        obtain ⟨hc, rfl⟩ := readTail_zero h
        rw [hc, utf8EncodeChar_four hb hb' hx hx' hy hy' hz hz']
        rfl

/-- Bytes are a text, or a text and bytes that start with no character. -/
theorem exists_encode (bytes : List UInt8) :
    ∃ t rest, bytes = encode t ++ rest ∧
      (rest = [] ∨ ∃ b more e, rest = b :: more ∧ readChar b more = .error e) := by
  induction hn : bytes.length using Nat.strongRecOn generalizing bytes with
  | ind n ih =>
    subst hn
    cases bytes with
    | nil => exact ⟨[], [], rfl, .inl rfl⟩
    | cons b bytes =>
      cases hread : readChar b bytes with
      | error e => exact ⟨[], b :: bytes, rfl, .inr ⟨b, bytes, e, rfl, hread⟩⟩
      | ok r =>
        obtain ⟨c, rest⟩ := r
        obtain ⟨t, last, rfl, hlast⟩ := ih _ (readChar_length hread) rest rfl
        refine ⟨c :: t, last, ?_, hlast⟩
        rw [eq_append_of_readChar hread, encode_cons, List.append_assoc]

/-! ### The first bad place -/

/-- The bytes before place `k` are a text, and those from there on start with no character. -/
structure BreaksAt (bytes : List UInt8) (k : Nat) : Prop where
  lt : k < bytes.length
  before : ∃ t, bytes.take k = encode t
  noChar : ∀ c, ¬ String.utf8EncodeChar c <+: bytes.drop k

theorem not_prefix_of_readChar {b : UInt8} {bytes : List UInt8} {e : Nat × Reason}
    (h : readChar b bytes = .error e) (c : Char) : ¬ String.utf8EncodeChar c <+: b :: bytes := by
  rintro ⟨rest, hrest⟩
  obtain ⟨b', more, hbytes, hread⟩ := readChar_encode c rest
  rw [hbytes, List.cons_append] at hrest
  obtain ⟨rfl, rfl⟩ := List.cons.inj hrest
  rw [hread] at h
  cases h

theorem breaksAt_of_readChar {b : UInt8} {bytes : List UInt8} {e : Nat × Reason} (t : Text)
    (h : readChar b bytes = .error e) : BreaksAt (encode t ++ b :: bytes) (encode t).length := by
  refine ⟨?_, ⟨t, List.take_left⟩, ?_⟩
  · rw [List.length_append, List.length_cons]
    omega
  · rw [List.drop_left]
    exact not_prefix_of_readChar h

/-- **The place where bytes go wrong is told.** -/
theorem BreaksAt.decode {bytes : List UInt8} {k : Nat} (h : BreaksAt bytes k) :
    ∃ flaw, decode bytes = .error flaw ∧ flaw.start = k := by
  obtain ⟨t, ht⟩ := h.before
  have hsplit : bytes = encode t ++ bytes.drop k := by rw [← ht, List.take_append_drop]
  have hk : (encode t).length = k := by
    rw [← ht, List.length_take]
    have := h.lt
    omega
  cases hd : bytes.drop k with
  | nil =>
    have hlen := congrArg List.length hd
    rw [List.length_drop, List.length_nil] at hlen
    have := h.lt
    omega
  | cons b more =>
    cases hread : readChar b more with
    | ok r =>
      obtain ⟨c, rest⟩ := r
      refine absurd ?_ (h.noChar c)
      rw [hd, eq_append_of_readChar hread]
      exact List.prefix_append _ _
    | error e =>
      obtain ⟨length, reason⟩ := e
      rw [hsplit, hd, Utf8.decode, decodeOnto_append, decodeOnto_of_error hread]
      exact ⟨_, rfl, (Nat.zero_add _).trans hk⟩

theorem BreaksAt.unique {bytes : List UInt8} {j k : Nat} (hj : BreaksAt bytes j)
    (hk : BreaksAt bytes k) : j = k := by
  obtain ⟨flaw, hdecode, rfl⟩ := hj.decode
  obtain ⟨other, hother, rfl⟩ := hk.decode
  rw [Except.error.inj (hdecode.symm.trans hother)]

theorem BreaksAt.ne_encode {bytes : List UInt8} {k : Nat} (h : BreaksAt bytes k) :
    ¬ ∃ t, bytes = encode t := by
  rintro ⟨t, rfl⟩
  obtain ⟨flaw, hdecode, -⟩ := h.decode
  rw [decode_encode] at hdecode
  cases hdecode

/-- **Bytes that are no text go wrong somewhere.** -/
theorem encode_or_breaksAt (bytes : List UInt8) :
    (∃ t, bytes = encode t) ∨ ∃ k, BreaksAt bytes k := by
  obtain ⟨t, rest, rfl, rfl | ⟨b, more, e, rfl, hread⟩⟩ := exists_encode bytes
  · exact .inl ⟨t, List.append_nil _⟩
  · exact .inr ⟨_, breaksAt_of_readChar t hread⟩

end MxLang.Text.Utf8
