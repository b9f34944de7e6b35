import MxLang.Proofs.Utf8
import MxLang.Zone.File

/-!
# Zone files that are no text

The bytes of a zone file are read as the text whose bytes they are, and the records are those of the
text.  Bytes that are no text go wrong at one place, and that place is told, together with the line
it is on: lines are counted in bytes, since there is no text to count them in.
`fileRecords_text_or_break` says that one of the two happens to every zone file that is there.
-/

namespace MxLang.Zone

open Text Utf8

variable {domain : Option Text} {file : Text} {bytes : List UInt8}

theorem recordsOfBytes_encode (domain : Option Text) (file t : Text) :
    recordsOfBytes domain file (encode t) = records domain file t := by
  rw [recordsOfBytes, decode_encode]

theorem recordsOfBytes_of_breaksAt {k : Nat} (h : BreaksAt bytes k) :
    ∃ reason, recordsOfBytes domain file bytes
      = .error (.fault (.zone (.notUtf8 reason k) (1 + (bytes.take k).count 10) [] file)) := by
  obtain ⟨flaw, hdecode, rfl⟩ := h.decode
  refine ⟨flaw.reason, ?_⟩
  rw [recordsOfBytes, hdecode, Nat.add_comm 1]

theorem fileRecords_of_read {s : Storage} {p : Path} (h : s.read p = .ok bytes) (name : Text) :
    fileRecords s p name = recordsOfBytes (domain? name) p.text bytes := by
  rw [fileRecords, h]

/-- **A zone file is a text, or it goes wrong somewhere.**  Let there be a file with the given
bytes.  If they are the bytes of a text, the records of the file are those of the text, for every
domain, and whatever is wrong with the text is wrong with the file.  If they are not, there is one
place such that the bytes before it are a text and no character starts there; that place is told,
and the line is one more than there are line feeds among the bytes before it. -/
theorem fileRecords_text_or_break {s : Storage} {p : Path} (h : s.read p = .ok bytes)
    (name : Text) :
    (∀ t, bytes = encode t → fileRecords s p name = records (domain? name) p.text t) ∧
    ((¬ ∃ t, bytes = encode t) →
      ∃ k reason, BreaksAt bytes k ∧ (∀ j, BreaksAt bytes j → j = k) ∧
        fileRecords s p name
          = .error (.fault
              (.zone (.notUtf8 reason k) (1 + (bytes.take k).count 10) [] p.text))) := by
  rw [fileRecords_of_read h]
  constructor
  · rintro t rfl
    exact recordsOfBytes_encode _ _ t
  · intro hnone
    obtain ⟨k, hk⟩ := (encode_or_breaksAt bytes).resolve_left hnone
    obtain ⟨reason, hrecords⟩ := recordsOfBytes_of_breaksAt hk
    exact ⟨k, reason, hk, fun j hj => hj.unique hk, hrecords⟩

/-- A surrogate after a line with a character of two bytes. -/
theorem fileRecords_text_or_break_surrogate :
    Storage.read [(⟨[], [['z']]⟩, .file [0x3B, 0xC3, 0xA9, 0x0A, 0xED, 0xA0, 0x80])]
        ⟨[], [['z']]⟩ = .ok [0x3B, 0xC3, 0xA9, 0x0A, 0xED, 0xA0, 0x80] ∧
    ∃ reason, fileRecords [(⟨[], [['z']]⟩, .file [0x3B, 0xC3, 0xA9, 0x0A, 0xED, 0xA0, 0x80])]
        ⟨[], [['z']]⟩ []
      = .error (.fault (.zone (.notUtf8 reason 4) 2 [] "/z".toList)) := by
  have hread : Storage.read
      [(⟨[], [['z']]⟩, .file [0x3B, 0xC3, 0xA9, 0x0A, 0xED, 0xA0, 0x80])] ⟨[], [['z']]⟩
      = .ok [0x3B, 0xC3, 0xA9, 0x0A, 0xED, 0xA0, 0x80] := rfl
  have hlead : readChar 0xED [0xA0, 0x80] = .error (1, .continuationByte) := rfl
  have hbreak : BreaksAt [0x3B, 0xC3, 0xA9, 0x0A, 0xED, 0xA0, 0x80] 4 :=
    breaksAt_of_readChar [';', 'é', '\n'] hlead
  obtain ⟨-, hflaw⟩ := fileRecords_text_or_break hread []
  obtain ⟨k, reason, -, hunique, hrecords⟩ := hflaw hbreak.ne_encode
  obtain rfl := hunique 4 hbreak
  exact ⟨hread, reason, hrecords⟩

end MxLang.Zone
