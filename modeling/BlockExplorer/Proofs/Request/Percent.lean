import BlockExplorer.Proofs.Codec.Sequence
import BlockExplorer.Request.Percent

/-!
# BlockExplorer — the scans of percent decoding

Both scans over the bytes of a raw value, the check for malformed escapes and the
replacement of escapes, go byte by byte but for a `%` with two digits behind it.
Bytes without a `%` they pass over, and no character but `%` itself has such a
byte (`mark_notMem_encodeChar`). Every equation leaves the bytes behind it
arbitrary.
-/

namespace BlockExplorer.Percent

-- ---------------------------------------------------------------------------
-- Bytes that stand for themselves
-- ---------------------------------------------------------------------------

/-- An ASCII byte occurs in the encoding of its own character alone. -/
theorem eq_charOfByte_of_mem {c : Char} {byte : UInt8} (h : byte ∈ encodeChar c)
    (hlt : byte.toNat < 0x80) : c = charOfByte byte := by
  rcases encodeChar_cases c with ⟨lead, _, hc, henc⟩ | ⟨k, lead, tail, hs, henc⟩
  · rw [henc, List.mem_singleton] at h
    rw [h, hc]
  · exfalso
    rw [henc] at h
    -- the bytes of longer encodings are not ASCII, neither the first nor the others
    rcases List.mem_cons.mp h with rfl | htail
    · have hannounced := hs.announced
      rw [announcedLength_eq_none_iff.mpr (.inl hlt)] at hannounced
      cases hannounced
    · have hbyte := isContinuation_iff.mp (hs.continued byte htail)
      omega

/-- No other character has the byte of `%`. -/
theorem mark_notMem_encodeChar {c : Char} (hc : c ≠ '%') : mark ∉ encodeChar c :=
  fun h => hc (eq_charOfByte_of_mem h (by decide))

theorem malformed?_cons_of_ne {byte : UInt8} (h : byte ≠ mark) (offset : Nat)
    (rest : List UInt8) : malformed? offset (byte :: rest) = malformed? (offset + 1) rest := by
  rw [malformed?, if_neg fun hmark => h hmark.1]

theorem decodeBytes_cons_of_ne {byte : UInt8} (h : byte ≠ mark) (rest : List UInt8) :
    decodeBytes (byte :: rest) = byte :: decodeBytes rest := by
  rw [decodeBytes, if_neg h]

theorem malformed?_append_of_notMem {bytes : List UInt8} (h : mark ∉ bytes) (offset : Nat)
    (rest : List UInt8) :
    malformed? offset (bytes ++ rest) = malformed? (offset + bytes.length) rest := by
  induction bytes generalizing offset with
  | nil => rfl
  | cons byte bytes ih =>
    obtain ⟨hbyte, hbytes⟩ := List.ne_and_not_mem_of_not_mem_cons h
    rw [List.cons_append, malformed?_cons_of_ne hbyte.symm, ih hbytes, List.length_cons,
      Nat.add_assoc, Nat.add_comm 1]

theorem decodeBytes_append_of_notMem {bytes : List UInt8} (h : mark ∉ bytes)
    (rest : List UInt8) : decodeBytes (bytes ++ rest) = bytes ++ decodeBytes rest := by
  induction bytes with
  | nil => rfl
  | cons byte bytes ih =>
    obtain ⟨hbyte, hbytes⟩ := List.ne_and_not_mem_of_not_mem_cons h
    rw [List.cons_append, decodeBytes_cons_of_ne hbyte.symm, ih hbytes, List.cons_append]

-- ---------------------------------------------------------------------------
-- Escapes
-- ---------------------------------------------------------------------------

/-- Digits of base 16 are digits and letters of ASCII. -/
theorem ascii_of_hexDigit? {n : Nat} {c : Char} (h : Numeral.hexDigit? c = some n) :
    c.toNat < 0x80 ∧ c ∉ ['%', '+', '&', '='] := by
  have hrange : 0x30 ≤ c.toNat ∧ c.toNat ≤ 0x39 ∨ 0x61 ≤ c.toNat ∧ c.toNat ≤ 0x66 ∨
      0x41 ≤ c.toNat ∧ c.toNat ≤ 0x46 := by
    unfold Numeral.hexDigit? at h
    split at h
    · next hc => exact .inl hc
    split at h
    · next hc => exact .inr (.inl hc)
    split at h
    · next hc => exact .inr (.inr hc)
    · cases h
  -- none of the four is in these ranges
  refine ⟨by omega, fun hmem => ?_⟩
  simp only [List.mem_cons, List.not_mem_nil, or_false] at hmem
  rcases hmem with rfl | rfl | rfl | rfl
  all_goals exact absurd hrange (by decide)

/-- A digit of base 16 is one byte with the same value. -/
theorem exists_byte_of_hexDigit? {n : Nat} {c : Char} (h : Numeral.hexDigit? c = some n) :
    ∃ byte, encodeChar c = [byte] ∧ byte ≠ mark ∧ digit? byte = some n := by
  obtain ⟨hlt, hplain⟩ := ascii_of_hexDigit? h
  have hbyte : (UInt8.ofNat c.toNat).toNat = c.toNat := by
    rw [UInt8.toNat_ofNat']
    omega
  have henc : encodeChar c = [UInt8.ofNat c.toNat] := by rw [encodeChar, if_pos hlt]
  have hmark : mark ∉ encodeChar c := by
    apply mark_notMem_encodeChar
    rintro rfl
    exact hplain List.mem_cons_self
  rw [henc, List.mem_singleton] at hmark
  refine ⟨_, henc, Ne.symm hmark, ?_⟩
  rw [digit?, hbyte, Char.ofNat_toNat, h]

theorem octet?_cons_cons {high low : UInt8} {h l : Nat} (hhigh : digit? high = some h)
    (hlow : digit? low = some l) (rest : List UInt8) :
    octet? (high :: low :: rest) = some (UInt8.ofNat (16 * h + l)) := by
  simp only [octet?, hhigh, hlow]

/-- The two digits of a byte denote it. -/
theorem octet?_of_digits {byte high low : UInt8} (hhigh : digit? high = some (byte.toNat / 16))
    (hlow : digit? low = some (byte.toNat % 16)) (rest : List UInt8) :
    octet? (high :: low :: rest) = some byte := by
  have hbyte : 16 * (byte.toNat / 16) + byte.toNat % 16 = byte.toNat := by omega
  rw [octet?_cons_cons hhigh hlow, hbyte, UInt8.ofNat_toNat]

/-- The check passes over an escape, and counts three bytes for it. -/
theorem malformed?_escape {byte high low : UInt8} (hhigh : high ≠ mark) (hlow : low ≠ mark)
    (hoctet : ∀ rest, octet? (high :: low :: rest) = some byte) (offset : Nat)
    (rest : List UInt8) :
    malformed? offset (mark :: high :: low :: rest) = malformed? (offset + 3) rest := by
  rw [malformed?, hoctet, if_neg (fun h => nomatch h.2), malformed?_cons_of_ne hhigh,
    malformed?_cons_of_ne hlow]

/-- An escape becomes the byte that it denotes. -/
theorem decodeBytes_escape {byte high low : UInt8}
    (hoctet : ∀ rest, octet? (high :: low :: rest) = some byte) (rest : List UInt8) :
    decodeBytes (mark :: high :: low :: rest) = byte :: decodeBytes rest := by
  rw [decodeBytes, if_pos rfl, hoctet]
  rfl

-- ---------------------------------------------------------------------------
-- Plus signs
-- ---------------------------------------------------------------------------

theorem plusToSpace_of_notMem {t : Text} (h : '+' ∉ t) : plusToSpace t = t := by
  unfold plusToSpace
  refine (List.map_congr_left fun c hc => if_neg ?_).trans (List.map_id t)
  rintro rfl
  exact h hc

end BlockExplorer.Percent
