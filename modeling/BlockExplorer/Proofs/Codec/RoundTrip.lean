import BlockExplorer.Codec.Decoding
import BlockExplorer.Proofs.Codec.Sequence
import BlockExplorer.Proofs.Except

/-!
# BlockExplorer — encoding and the two decoders

Strict decoding is the inverse of encoding, and lenient decoding agrees with it
wherever it succeeds. Both scans are first followed over one character: an ASCII
byte, or a sequence that spells its character. What they do to a whole encoded
text in front of arbitrary bytes is an induction over the text, and what strict
decoding accepts is an induction over its scan.

Main results:

* `scanStrict_encode_append`, `scanLenient_encode_append` — either scan reads an
  encoded text and goes on behind it.
* `encode_of_scanStrict` — what strict decoding accepts is the encoding of what
  it returns.
* `decodeStrict_eq_ok_iff_encode` — a text is the strict decoding of bytes
  exactly when the bytes are its encoding.
* `decode_encode_and_decodeStrict` — lenient decoding undoes encoding without a
  report, and the bytes that it gives back unchanged are the well-formed ones.
-/

namespace BlockExplorer

section Scans

variable {k : Nat} {lead : UInt8} {tail : List UInt8} {c : Char}

-- ---------------------------------------------------------------------------
-- One character
-- ---------------------------------------------------------------------------

theorem scanStrict_ascii (h : lead.toNat < 0x80) (offset : Nat) (rest : List UInt8) :
    scanStrict offset (lead :: rest) =
      (scanStrict (offset + 1) rest).map (charOfByte lead :: ·) := by
  rw [scanStrict, announcedLength_eq_none_iff.mpr (.inl h)]
  exact if_pos (UInt8.lt_iff_toNat_lt.mpr h)

/-- Strict decoding takes a sequence for the character that it spells, and goes on behind it. -/
theorem scanStrict_spells (h : Spells k lead tail c) (offset : Nat) (rest : List UInt8) :
    scanStrict offset (lead :: (tail ++ rest)) = (scanStrict (offset + k) rest).map (c :: ·) := by
  have h2 := h.two_le
  have hlen : k - 1 = tail.length := by
    have := h.complete
    omega
  -- the announced length takes exactly the tail, whatever follows it
  have hread : readSequence offset k lead (tail ++ rest) = .ok c := by
    rw [readSequence_eq_ok_iff h.announced h2 h.le_four, hlen, List.take_left]
    exact h
  rw [scanStrict, h.announced]
  dsimp only
  rw [if_neg (by omega), if_pos h.le_four, hread, hlen, List.drop_left]

theorem scanLenient_ascii (h : lead.toNat < 0x80) (rest : List UInt8) :
    scanLenient (lead :: rest) =
      (charOfByte lead :: (scanLenient rest).1, (scanLenient rest).2) := by
  rw [scanLenient, announcedLength_eq_none_iff.mpr (.inl h)]

/-- Lenient decoding takes a sequence for the character that it spells, and counts no replacement.
-/
theorem scanLenient_spells (h : Spells k lead tail c) (rest : List UInt8) :
    scanLenient (lead :: (tail ++ rest)) = (c :: (scanLenient rest).1, (scanLenient rest).2) := by
  have hlen : k - 1 = tail.length := by
    have := h.complete
    omega
  rw [scanLenient, h.announced]
  dsimp only
  rw [hlen, List.take_left, List.drop_left, h.sequenceChar?_eq]

/-- Strict decoding reads the bytes of a character, and goes on as many bytes further. -/
theorem scanStrict_encodeChar_append (offset : Nat) (c : Char) (rest : List UInt8) :
    scanStrict offset (encodeChar c ++ rest) =
      (scanStrict (offset + encodedLength c) rest).map (c :: ·) := by
  rw [← length_encodeChar]
  rcases encodeChar_cases c with ⟨lead, hlt, rfl, henc⟩ | ⟨k, lead, tail, hs, henc⟩
  · rw [henc]
    exact scanStrict_ascii hlt offset rest
  · rw [henc, List.length_cons, hs.complete]
    exact scanStrict_spells hs offset rest

/-- Lenient decoding reads the bytes of a character. -/
theorem scanLenient_encodeChar_append (c : Char) (rest : List UInt8) :
    scanLenient (encodeChar c ++ rest) = (c :: (scanLenient rest).1, (scanLenient rest).2) := by
  rcases encodeChar_cases c with ⟨lead, hlt, rfl, henc⟩ | ⟨k, lead, tail, hs, henc⟩
  · rw [henc]
    exact scanLenient_ascii hlt rest
  · rw [henc]
    exact scanLenient_spells hs rest

end Scans

-- ---------------------------------------------------------------------------
-- Whole texts
-- ---------------------------------------------------------------------------

/-- Strict decoding reads an encoded text, whatever stands behind it. -/
theorem scanStrict_encode_append (offset : Nat) (t : Text) (rest : List UInt8) :
    scanStrict offset (encode t ++ rest) =
      (scanStrict (offset + byteLength t) rest).map (t ++ ·) := by
  induction t generalizing offset with
  | nil =>
    show scanStrict offset rest = (scanStrict offset rest).map id
    rw [Except.map_id]
    rfl
  -- the offset moves on by the bytes of the first character
  | cons c t ih =>
    rw [encode_cons, List.append_assoc, scanStrict_encodeChar_append, ih, byteLength,
      ← Nat.add_assoc]
    cases scanStrict (offset + encodedLength c + byteLength t) rest <;> rfl

/-- Lenient decoding reads an encoded text, whatever stands behind it. -/
theorem scanLenient_encode_append (t : Text) (rest : List UInt8) :
    scanLenient (encode t ++ rest) = (t ++ (scanLenient rest).1, (scanLenient rest).2) := by
  induction t with
  | nil => rfl
  | cons c t ih =>
    rw [encode_cons, List.append_assoc, scanLenient_encodeChar_append, ih]
    rfl

/-- Every encoding is accepted, at every offset. -/
theorem scanStrict_encode (offset : Nat) (t : Text) : scanStrict offset (encode t) = .ok t := by
  have h := scanStrict_encode_append offset t []
  rw [List.append_nil, scanStrict] at h
  rw [h, Except.map, List.append_nil]

/-- An encoding is decoded without replacements. -/
theorem scanLenient_encode (t : Text) : scanLenient (encode t) = (t, 0) := by
  have h := scanLenient_encode_append t []
  rw [List.append_nil, scanLenient] at h
  rw [h, List.append_nil]

/-- **Strict decoding accepts nothing but encodings.** The induction is on the scan: every
character that it reads was spelled by the bytes that it passed. -/
theorem encode_of_scanStrict {offset : Nat} {bytes : List UInt8} {t : Text}
    (h : scanStrict offset bytes = .ok t) : encode t = bytes := by
  fun_induction scanStrict offset bytes generalizing t with
  | case1 =>
    cases h
    rfl
  | case2 offset lead rest _ hlt ih =>
    -- an ASCII byte
    obtain ⟨u, hu, rfl⟩ := exceptMap_eq_ok_iff.mp h
    rw [encode_cons, encodeChar_charOfByte (UInt8.lt_iff_toNat_lt.mp hlt), ih hu]
    rfl
  | case6 offset lead rest k hk h1 h4 c hread ih =>
    -- a sequence of two to four bytes that was read
    obtain ⟨u, hu, rfl⟩ := exceptMap_eq_ok_iff.mp h
    have hpos := (announcedLength_eq_some_iff.mp hk).1
    have hs := (readSequence_eq_ok_iff hk (by omega) h4).mp hread
    rw [encode_cons, hs.encodeChar_eq, ih hu, List.cons_append, List.take_append_drop]
  -- every other branch of the scan is an error
  | _ => cases h

/-- **Lenient decoding follows strict decoding** where that succeeds: it returns the same text
and replaces nothing. -/
theorem scanLenient_of_scanStrict {offset : Nat} {bytes : List UInt8} {t : Text}
    (h : scanStrict offset bytes = .ok t) : scanLenient bytes = (t, 0) := by
  rw [← encode_of_scanStrict h, scanLenient_encode]

-- ---------------------------------------------------------------------------
-- Decoding
-- ---------------------------------------------------------------------------

/-- The result of strict decoding is that of the scan from the first byte. -/
theorem decodeStrict_eq_ok_iff {bytes : List UInt8} {t : Text} :
    (decodeStrict bytes).value = .ok t ↔ scanStrict 0 bytes = .ok t := by
  unfold decodeStrict textOfBytes
  cases scanStrict 0 bytes with
  | ok u => exact Iff.rfl
  | error e => simp

/-- Strict decoding undoes encoding. -/
theorem decodeStrict_encode (t : Text) : (decodeStrict (encode t)).value = .ok t :=
  decodeStrict_eq_ok_iff.mpr (scanStrict_encode 0 t)

/-- Strict decoding accepts the encoding of what it returns, and nothing else. -/
theorem encode_of_decodeStrict {bytes : List UInt8} {t : Text}
    (h : (decodeStrict bytes).value = .ok t) : encode t = bytes :=
  encode_of_scanStrict (decodeStrict_eq_ok_iff.mp h)

/-- Without replacements lenient decoding reports nothing. -/
theorem decode_of_scanLenient {bytes : List UInt8} {t : Text} (h : scanLenient bytes = (t, 0)) :
    decode (.bytes bytes) = ⟨t, []⟩ := by
  rw [decode, decodeLenient, h]
  rfl

/-- Both decoders give back an encoded text, and report nothing. -/
theorem decodeWith_encode (mode : DecodeMode) (t : Text) :
    decodeWith mode (.bytes (encode t)) = pure (.ok t) := by
  -- either mode goes by its own scan
  cases mode with
  | lenient =>
    rw [decodeWith, decodeLenient, scanLenient_encode]
    rfl
  | strict =>
    rw [decodeWith, decodeStrict, textOfBytes, scanStrict_encode]
    rfl

/-- **Strict decoding is the inverse of encoding.** Bytes decode to a text exactly when they are
its encoding; so every encoding is accepted and gives its text back, and no text is the decoding
of two byte sequences. -/
theorem decodeStrict_eq_ok_iff_encode (bytes : List UInt8) (t : Text) :
    ((decodeStrict bytes).value = .ok t ↔ encode t = bytes) ∧
    (decodeStrict (encode t)).value = .ok t ∧
    ∀ other, (decodeStrict bytes).value = .ok t → (decodeStrict other).value = .ok t →
      other = bytes := by
  refine ⟨⟨encode_of_decodeStrict, ?_⟩, decodeStrict_encode t, ?_⟩
  · rintro rfl
    exact decodeStrict_encode t
  · intro other hbytes hother
    rw [← encode_of_decodeStrict hbytes, ← encode_of_decodeStrict hother]

/-- **Lenient decoding undoes encoding** and reports nothing, whatever the characters of the
text. So it agrees with strict decoding wherever that succeeds, and it gives back bytes from which
the input can be restored exactly where strict decoding succeeds. -/
theorem decode_encode_and_decodeStrict (bytes : List UInt8) (t : Text) :
    (decode (.bytes (encode t))).value = t ∧
    (decode (.bytes (encode t))).events = [] ∧
    ((decodeStrict bytes).value = .ok t → (decode (.bytes bytes)).value = t) ∧
    (encode (decode (.bytes bytes)).value = bytes ↔ ∃ u, (decodeStrict bytes).value = .ok u) := by
  have hencode := decode_of_scanLenient (scanLenient_encode t)
  have hstrict : ∀ u, (decodeStrict bytes).value = .ok u → (decode (.bytes bytes)).value = u := by
    intro u hu
    rw [decode_of_scanLenient (scanLenient_of_scanStrict (decodeStrict_eq_ok_iff.mp hu))]
  refine ⟨by rw [hencode], by rw [hencode], hstrict t, ?_⟩
  constructor
  · intro h
    -- the bytes are an encoding, that of what they decode to
    refine ⟨(decode (.bytes bytes)).value, ?_⟩
    have haccept := decodeStrict_encode (decode (.bytes bytes)).value
    rwa [h] at haccept
  · rintro ⟨u, hu⟩
    rw [hstrict u hu]
    exact encode_of_decodeStrict hu

end BlockExplorer
