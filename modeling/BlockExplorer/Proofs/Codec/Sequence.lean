import BlockExplorer.Codec.Decoding
import BlockExplorer.Codec.Encoding

/-!
# BlockExplorer — the bytes of one character

The encoder divides a code point into groups of six bits, the decoders count
leading ones and put the groups together again. Both sides meet here in
`Spells`: what has to hold of a first byte, of the bytes after it and of a
character for the bytes to be the character's sequence. The first byte is the
marker of its length plus a payload (`toNat_of_announced`), every further byte
is `10` plus six bits (`isContinuation_iff`), so that the rest is arithmetic
with remainders.

Main results:

* `encodeChar_iff` — the bytes of a character are one ASCII byte or a sequence
  that spells it, and nothing else.
* `readSequence_eq_ok_iff` — strict reading of one sequence gives a character
  exactly when the bytes spell it.
* `toNat_sequenceWord` — the machine word in which lenient decoding gathers a
  sequence never loses a bit of the exact value.
-/

namespace BlockExplorer

-- ---------------------------------------------------------------------------
-- First bytes
-- ---------------------------------------------------------------------------

/-- Every threshold up to the byte counts once. -/
theorem leadingOnes_eq_sum (byte : UInt8) :
    leadingOnes byte =
      (if 0xFF ≤ byte.toNat then 1 else 0) + (if 0xFE ≤ byte.toNat then 1 else 0) +
      (if 0xFC ≤ byte.toNat then 1 else 0) + (if 0xF8 ≤ byte.toNat then 1 else 0) +
      (if 0xF0 ≤ byte.toNat then 1 else 0) + (if 0xE0 ≤ byte.toNat then 1 else 0) +
      (if 0xC0 ≤ byte.toNat then 1 else 0) + (if 0x80 ≤ byte.toNat then 1 else 0) := by
  simp only [leadingOnes, ← List.countP_eq_length_filter, List.countP_cons, List.countP_nil,
    decide_eq_true_eq, UInt8.le_iff_toNat_le, UInt8.reduceToNat, Nat.zero_add]

/-- A byte with `k` leading ones and a zero after them lies between two markers. -/
theorem leadingOnes_eq_iff {byte : UInt8} {k : Nat} (hk : k ≤ 7) :
    leadingOnes byte = k ↔
      0x100 ≤ byte.toNat + Nat.pow 2 (8 - k) ∧ byte.toNat + Nat.pow 2 (7 - k) < 0x100 := by
  have hlt := byte.toNat_lt
  rw [leadingOnes_eq_sum]
  -- the thresholds lie between the powers, so the sum is decided by the range of the byte
  match k, hk with
  | 0, _ | 1, _ | 2, _ | 3, _ | 4, _ | 5, _ | 6, _ | 7, _ =>
    simp only [Nat.sub_zero, Nat.reduceSub, Nat.pow_eq, Nat.reducePow]
    grind

/-- A length is announced by one to seven leading ones. -/
theorem announcedLength_eq_some_iff {lead : UInt8} {k : Nat} :
    announcedLength lead = some k ↔ 1 ≤ k ∧ k ≤ 7 ∧ leadingOnes lead = k := by
  have hle : leadingOnes lead ≤ 8 := List.length_filter_le _ _
  unfold announcedLength
  grind

/-- An ASCII byte announces no length, and neither does the byte without a zero. -/
theorem announcedLength_eq_none_iff {lead : UInt8} :
    announcedLength lead = none ↔ lead.toNat < 0x80 ∨ lead.toNat = 0xFF := by
  have hlt := lead.toNat_lt
  unfold announcedLength
  rw [leadingOnes_eq_sum]
  grind

/-- A first byte is the marker of the length that it announces, plus its payload. -/
theorem toNat_of_announced {lead : UInt8} {k : Nat} (h : announcedLength lead = some k) :
    lead.toNat = 0x100 - Nat.pow 2 (8 - k) + leadBits k lead := by
  obtain ⟨h1, h7, hones⟩ := announcedLength_eq_some_iff.mp h
  rw [leadingOnes_eq_iff h7] at hones
  unfold leadBits
  -- for each length the range of the marker leaves the payload as the remainder
  match k, h1, h7 with
  | 1, _, _ | 2, _, _ | 3, _, _ | 4, _, _ | 5, _, _ | 6, _, _ | 7, _, _ =>
    simp only [Nat.reduceSub, Nat.pow_eq, Nat.reducePow] at hones ⊢
    omega

/-- A marker with a payload below it announces its length and gives the payload back. -/
theorem announced_marker_add {k n : Nat} (h1 : 1 ≤ k) (h7 : k ≤ 7) (hn : n < Nat.pow 2 (7 - k)) :
    announcedLength (UInt8.ofNat (0x100 - Nat.pow 2 (8 - k) + n)) = some k ∧
      leadBits k (UInt8.ofNat (0x100 - Nat.pow 2 (8 - k) + n)) = n := by
  rw [announcedLength_eq_some_iff, leadingOnes_eq_iff h7]
  unfold leadBits
  rw [UInt8.toNat_ofNat']
  -- the payload stays below the marker of the next length
  match k, h1, h7 with
  | 1, _, _ | 2, _, _ | 3, _, _ | 4, _, _ | 5, _, _ | 6, _, _ | 7, _, _ =>
    simp only [Nat.reduceSub, Nat.pow_eq, Nat.reducePow] at hn ⊢
    omega

theorem leadBits_lt (k : Nat) (lead : UInt8) : leadBits k lead < Nat.pow 2 (7 - k) :=
  Nat.mod_lt _ (Nat.pow_pos (by decide))

-- ---------------------------------------------------------------------------
-- Continuation bytes
-- ---------------------------------------------------------------------------

theorem tailBits_lt (byte : UInt8) : tailBits byte < 0x40 :=
  Nat.mod_lt _ (by decide)

/-- A continuation byte is `10xxxxxx`: the marker plus its six bits. -/
theorem isContinuation_iff {byte : UInt8} :
    isContinuation byte = true ↔ byte.toNat = 0x80 + tailBits byte := by
  unfold isContinuation tailBits
  simp only [Bool.and_eq_true, decide_eq_true_eq, UInt8.le_iff_toNat_le, UInt8.lt_iff_toNat_lt,
    UInt8.reduceToNat]
  omega

/-- The byte that is made for a number carries its six lowest bits. -/
@[simp] theorem tailBits_continuationByte (n : Nat) :
    tailBits (continuationByte n) = n % 0x40 := by
  unfold tailBits continuationByte
  rw [UInt8.toNat_ofNat']
  omega

/-- The byte that is made for a number has the marker of continuation bytes. -/
@[simp] theorem isContinuation_continuationByte (n : Nat) :
    isContinuation (continuationByte n) = true := by
  rw [isContinuation_iff, tailBits_continuationByte]
  unfold continuationByte
  rw [UInt8.toNat_ofNat']
  omega

/-- A continuation byte is determined by its six bits. -/
theorem continuationByte_eq {n : Nat} {byte : UInt8} (hbyte : isContinuation byte = true)
    (hbits : n % 0x40 = tailBits byte) : continuationByte n = byte := by
  unfold continuationByte
  rw [hbits, ← isContinuation_iff.mp hbyte, UInt8.ofNat_toNat]

-- ---------------------------------------------------------------------------
-- Characters
-- ---------------------------------------------------------------------------

theorem toNat_lt_of_char (c : Char) : c.toNat < 0x110000 := by
  rcases c.valid with h | h
  · exact Nat.lt_trans h (by decide)
  · exact h.2

/-- A number is the code point of one character at most. -/
theorem scalar?_eq_some_iff {n : Nat} {c : Char} : scalar? n = some c ↔ n = c.toNat := by
  unfold scalar?
  constructor
  · intro h
    by_cases hn : n.isValidChar
    · rw [dif_pos hn, Option.some.injEq] at h
      rw [← h]
      rfl
    · rw [dif_neg hn] at h
      cases h
  · rintro rfl
    exact dif_pos c.valid

/-- Surrogates and numbers above the last code point are those of no character. -/
theorem scalar?_eq_none_iff {n : Nat} : scalar? n = none ↔ ¬ n.isValidChar := by
  constructor
  · intro h hn
    rw [scalar?, dif_pos hn] at h
    cases h
  · exact fun hn => dif_neg hn

/-- The character of a byte has the code point that the byte has as a number. -/
@[simp] theorem toNat_charOfByte (byte : UInt8) : (charOfByte byte).toNat = byte.toNat := by
  have hlt := byte.toNat_lt
  have hvalid : byte.toNat.isValidChar := .inl (by omega)
  unfold charOfByte Char.ofNat
  rw [dif_pos hvalid]
  rfl

/-- An ASCII character is encoded as itself. -/
theorem encodeChar_charOfByte {byte : UInt8} (h : byte.toNat < 0x80) :
    encodeChar (charOfByte byte) = [byte] := by
  rw [encodeChar, toNat_charOfByte, if_pos h, UInt8.ofNat_toNat]

-- ---------------------------------------------------------------------------
-- The machine word of a sequence
-- ---------------------------------------------------------------------------

/-- One step in the word is one step on numbers, as long as the six bits that are moved out are
zero. -/
theorem toNat_shift_or (word : UInt64) (byte : UInt8)
    (h : word.toNat * 0x40 < 0x10000000000000000) :
    ((word <<< 6) ||| (byte &&& 0x3F).toUInt64).toNat = word.toNat * 0x40 + tailBits byte := by
  have hbyte : (byte &&& 0x3F).toUInt64.toNat = tailBits byte := by
    rw [UInt8.toNat_toUInt64, UInt8.toNat_and]
    exact Nat.and_two_pow_sub_one_eq_mod byte.toNat 6
  -- no bit is moved out of the word
  have hword : (word <<< 6).toNat = word.toNat <<< 6 := by
    rw [UInt64.toNat_shiftLeft]
    exact Nat.mod_eq_of_lt (by rw [Nat.shiftLeft_eq]; exact h)
  rw [UInt64.toNat_or, hbyte, hword,
    ← Nat.shiftLeft_add_eq_or_of_lt (i := 6) (tailBits_lt byte), Nat.shiftLeft_eq]

/-- The word keeps up with the exact value when there is room for all bytes that come. -/
theorem toNat_foldl_word (tail : List UInt8) (word : UInt64)
    (h : (word.toNat + 1) * Nat.pow 0x40 tail.length ≤ 0x10000000000000000) :
    (tail.foldl (fun (word : UInt64) (byte : UInt8) =>
        (word <<< 6) ||| (byte &&& 0x3F).toUInt64) word).toNat =
      tail.foldl (fun value byte => value * 0x40 + tailBits byte) word.toNat := by
  induction tail generalizing word with
  | nil => rfl
  | cons byte tail ih =>
    have hbyte := tailBits_lt byte
    have hpos : 0 < Nat.pow 0x40 tail.length := Nat.pow_pos (by decide)
    have hup : (word.toNat + 1) * 0x40 * Nat.pow 0x40 tail.length ≤ 0x10000000000000000 := by
      rw [Nat.mul_assoc, Nat.mul_comm 0x40]
      exact h
    -- the bound is on the final value; what the step needs of it is that no bit leaves the word
    have hroom := Nat.le_trans (Nat.le_mul_of_pos_right _ hpos) hup
    have hstep := toNat_shift_or word byte (by omega)
    rw [List.foldl_cons, List.foldl_cons, ih _ ?fits, hstep]
    case fits =>
      rw [hstep]
      exact Nat.le_trans (Nat.mul_le_mul_right _ (by omega)) hup

/-- The machine word of a sequence of at most seven bytes is its exact value. -/
theorem toNat_sequenceWord {k : Nat} {lead : UInt8} {tail : List UInt8} (h : tail.length ≤ 6) :
    (sequenceWord k lead tail).toNat = sequenceValue k lead tail := by
  have hbits : leadBits k lead < 0x80 :=
    Nat.lt_of_lt_of_le (leadBits_lt k lead) (Nat.pow_le_pow_right (by decide) (Nat.sub_le 7 k))
  have hword : (UInt64.ofNat (leadBits k lead)).toNat = leadBits k lead := by
    rw [UInt64.toNat_ofNat']
    exact Nat.mod_eq_of_lt (by omega)
  -- seven bytes carry at most 7 bits and six times 6
  have hpow : Nat.pow 0x40 tail.length ≤ 0x1000000000 :=
    Nat.pow_le_pow_right (by decide) h
  unfold sequenceWord sequenceValue
  rw [toNat_foldl_word, hword]
  rw [hword]
  calc (leadBits k lead + 1) * Nat.pow 0x40 tail.length
      ≤ 0x80 * 0x1000000000 := Nat.mul_le_mul hbits hpow
    _ ≤ 0x10000000000000000 := by decide

-- ---------------------------------------------------------------------------
-- Sequences of several bytes
-- ---------------------------------------------------------------------------

/-- The bytes `lead :: tail` are a sequence of `k` bytes, more than one, for the character `c`,
and no shorter one would do. -/
structure Spells (k : Nat) (lead : UInt8) (tail : List UInt8) (c : Char) : Prop where
  announced : announcedLength lead = some k
  two_le    : 2 ≤ k
  le_four   : k ≤ 4
  complete  : tail.length + 1 = k
  continued : ∀ byte ∈ tail, isContinuation byte = true
  shortest  : minimumValue k ≤ c.toNat
  value     : sequenceValue k lead tail = c.toNat

namespace Spells

variable {k : Nat} {lead : UInt8} {tail : List UInt8} {c : Char}

/-- A sequence that spells a character is what the encoder writes for it. -/
theorem encodeChar_eq (h : Spells k lead tail c) : encodeChar c = lead :: tail := by
  have hlead := toNat_of_announced h.announced
  have hbits := leadBits_lt k lead
  -- the number of bytes decides the branch of the encoder, and the groups of six bits are the
  -- quotients and remainders that it computes
  match k, tail, h.two_le, h.le_four, h.complete with
  | 2, [a], _, _, _ =>
    have hmin : 0x80 ≤ c.toNat := h.shortest
    have hvalue : leadBits 2 lead * 0x40 + tailBits a = c.toNat := h.value
    have ha := h.continued a (by simp)
    have hal := tailBits_lt a
    simp only [Nat.reduceSub, Nat.pow_eq, Nat.reducePow] at hlead hbits
    have hfirst : 0xC0 + c.toNat / 0x40 = lead.toNat := by omega
    rw [encodeChar, if_neg (by omega), if_pos (by omega), hfirst, UInt8.ofNat_toNat,
      continuationByte_eq ha (by omega)]
  | 3, [a, b], _, _, _ =>
    have hmin : 0x800 ≤ c.toNat := h.shortest
    have hvalue : (leadBits 3 lead * 0x40 + tailBits a) * 0x40 + tailBits b = c.toNat := h.value
    have ha := h.continued a (by simp)
    have hb := h.continued b (by simp)
    have hal := tailBits_lt a
    have hbl := tailBits_lt b
    simp only [Nat.reduceSub, Nat.pow_eq, Nat.reducePow] at hlead hbits
    have hfirst : 0xE0 + c.toNat / 0x1000 = lead.toNat := by omega
    rw [encodeChar, if_neg (by omega), if_neg (by omega), if_pos (by omega), hfirst,
      UInt8.ofNat_toNat, continuationByte_eq ha (by omega), continuationByte_eq hb (by omega)]
  | 4, [a, b, d], _, _, _ =>
    have hmin : 0x10000 ≤ c.toNat := h.shortest
    have hvalue : ((leadBits 4 lead * 0x40 + tailBits a) * 0x40 + tailBits b) * 0x40 +
        tailBits d = c.toNat := h.value
    have ha := h.continued a (by simp)
    have hb := h.continued b (by simp)
    have hd := h.continued d (by simp)
    have hal := tailBits_lt a
    have hbl := tailBits_lt b
    have hdl := tailBits_lt d
    simp only [Nat.reduceSub, Nat.pow_eq, Nat.reducePow] at hlead hbits
    have hfirst : 0xF0 + c.toNat / 0x40000 = lead.toNat := by omega
    rw [encodeChar, if_neg (by omega), if_neg (by omega), if_neg (by omega), hfirst,
      UInt8.ofNat_toNat, continuationByte_eq ha (by omega), continuationByte_eq hb (by omega),
      continuationByte_eq hd (by omega)]

/-- A sequence that spells a character has more than its first byte. -/
theorem tail_ne_nil (h : Spells k lead tail c) : tail ≠ [] := by
  rintro rfl
  have h2 := h.two_le
  have hlen := h.complete
  rw [List.length_nil] at hlen
  omega

/-- The two decoders put the same groups of bits together. -/
theorem sequenceChar?_eq (h : Spells k lead tail c) : sequenceChar? k lead tail = some c := by
  have hlen := h.complete
  have hle := h.le_four
  -- the word is wide enough for four bytes, so it has the exact value
  rw [sequenceChar?, toNat_sequenceWord (by omega), scalar?_eq_some_iff]
  exact h.value

end Spells

/-- A marker with a payload, and continuation bytes, spell the character of their value. -/
theorem spells_of_marker {k n : Nat} {tail : List UInt8} {c : Char} (h2 : 2 ≤ k) (h4 : k ≤ 4)
    (hn : n < Nat.pow 2 (7 - k)) (hlen : tail.length + 1 = k)
    (htail : ∀ byte ∈ tail, isContinuation byte = true) (hmin : minimumValue k ≤ c.toNat)
    (hvalue : tail.foldl (fun value byte => value * 0x40 + tailBits byte) n = c.toNat) :
    Spells k (UInt8.ofNat (0x100 - Nat.pow 2 (8 - k) + n)) tail c := by
  -- the first byte is read back from its marker, the rest is given
  obtain ⟨hannounced, hbits⟩ := announced_marker_add (by omega) (by omega) hn
  refine ⟨hannounced, h2, h4, hlen, htail, hmin, ?_⟩
  rw [sequenceValue, hbits]
  exact hvalue

/-- The encoder spells every character above ASCII. -/
theorem exists_spells {c : Char} (h : 0x80 ≤ c.toNat) :
    ∃ k lead tail, encodeChar c = lead :: tail ∧ Spells k lead tail c := by
  have hlt := toNat_lt_of_char c
  -- in each branch of the encoder the payload is what the shifts leave for the first byte
  by_cases h2 : c.toNat < 0x800
  · refine ⟨2, _, [continuationByte c.toNat],
      by rw [encodeChar, if_neg (by omega), if_pos h2],
      spells_of_marker (n := c.toNat / 0x40) (by decide) (by decide) ?_ rfl (by simp) h ?_⟩
    · show c.toNat / 0x40 < 0x20
      omega
    · simp only [List.foldl_cons, List.foldl_nil, tailBits_continuationByte]
      omega
  by_cases h3 : c.toNat < 0x10000
  · refine ⟨3, _, [continuationByte (c.toNat / 0x40), continuationByte c.toNat],
      by rw [encodeChar, if_neg (by omega), if_neg h2, if_pos h3],
      spells_of_marker (n := c.toNat / 0x1000) (by decide) (by decide) ?_ rfl (by simp)
        (Nat.not_lt.mp h2) ?_⟩
    · show c.toNat / 0x1000 < 0x10
      omega
    · simp only [List.foldl_cons, List.foldl_nil, tailBits_continuationByte]
      omega
  · refine ⟨4, _, [continuationByte (c.toNat / 0x1000), continuationByte (c.toNat / 0x40),
        continuationByte c.toNat],
      by rw [encodeChar, if_neg (by omega), if_neg h2, if_neg h3],
      spells_of_marker (n := c.toNat / 0x40000) (by decide) (by decide) ?_ rfl (by simp)
        (Nat.not_lt.mp h3) ?_⟩
    · show c.toNat / 0x40000 < 0x8
      omega
    · simp only [List.foldl_cons, List.foldl_nil, tailBits_continuationByte]
      omega

/-- The bytes of a character are one ASCII byte, or a sequence that spells it. -/
theorem encodeChar_cases (c : Char) :
    (∃ lead, lead.toNat < 0x80 ∧ c = charOfByte lead ∧ encodeChar c = [lead]) ∨
      ∃ k lead tail, Spells k lead tail c ∧ encodeChar c = lead :: tail := by
  by_cases hc : c.toNat < 0x80
  · have hbyte : (UInt8.ofNat c.toNat).toNat = c.toNat := by
      rw [UInt8.toNat_ofNat']
      omega
    refine .inl ⟨UInt8.ofNat c.toNat, by omega, ?_, by rw [encodeChar, if_pos hc]⟩
    rw [← Char.toNat_inj, toNat_charOfByte, hbyte]
  · obtain ⟨k, lead, tail, henc, hs⟩ := exists_spells (Nat.not_lt.mp hc)
    exact .inr ⟨k, lead, tail, hs, henc⟩

theorem encodeChar_ne_nil (c : Char) : encodeChar c ≠ [] := by
  rcases encodeChar_cases c with ⟨_, _, _, henc⟩ | ⟨_, _, _, _, henc⟩
  all_goals
    rw [henc]
    exact List.cons_ne_nil _ _

/-- **The byte-level inverse of the encoder.** Bytes are those of a character when they are the
ASCII byte with its code point or spell it, and in no other case. -/
theorem encodeChar_iff {c : Char} {lead : UInt8} {tail : List UInt8} :
    encodeChar c = lead :: tail ↔
      (lead.toNat < 0x80 ∧ tail = [] ∧ c = charOfByte lead) ∨ ∃ k, Spells k lead tail c := by
  constructor
  · intro h
    rcases encodeChar_cases c with ⟨lead', hlt, hc, henc⟩ | ⟨k, lead', tail', hs, henc⟩
    · rw [henc, List.cons.injEq] at h
      obtain ⟨rfl, rfl⟩ := h
      exact .inl ⟨hlt, rfl, hc⟩
    · rw [henc, List.cons.injEq] at h
      obtain ⟨rfl, rfl⟩ := h
      exact .inr ⟨k, hs⟩
  · rintro (⟨hlt, rfl, rfl⟩ | ⟨k, hs⟩)
    · exact encodeChar_charOfByte hlt
    · exact hs.encodeChar_eq

-- ---------------------------------------------------------------------------
-- Strict reading of one sequence
-- ---------------------------------------------------------------------------

/-- A sequence is read when it passes the four checks: continuation bytes, length, smallest value
and scalar value. -/
theorem readSequence_eq_ok_iff_checks {offset k : Nat} {lead : UInt8} {rest : List UInt8}
    {c : Char} :
    readSequence offset k lead rest = .ok c ↔
      (∀ byte ∈ rest.take (k - 1), isContinuation byte = true) ∧
      k ≤ (rest.take (k - 1)).length + 1 ∧
      minimumValue k ≤ sequenceValue k lead (rest.take (k - 1)) ∧
      sequenceValue k lead (rest.take (k - 1)) = c.toNat := by
  unfold readSequence
  dsimp only
  constructor
  · intro h
    split at h
    · cases h
    · next hall =>
      -- no byte is at fault: length, minimum and scalar value are checked in this order
      split at h
      · cases h
      split at h
      · cases h
      split at h
      · cases h
      · next hlen hmin c' hc' =>
        cases h
        refine ⟨fun byte hbyte => ?_, by omega, by omega, scalar?_eq_some_iff.mp hc'⟩
        rw [← Bool.not_eq_false']
        exact List.findIdx?_eq_none_iff.mp hall byte hbyte
  · rintro ⟨hall, hlen, hmin, hval⟩
    have hnone : (rest.take (k - 1)).findIdx? (fun byte => !isContinuation byte) = none := by
      rw [List.findIdx?_eq_none_iff]
      intro byte hbyte
      rw [hall byte hbyte]
      rfl
    simp only [hnone, if_neg (Nat.not_lt.mpr hlen), if_neg (Nat.not_lt.mpr hmin),
      scalar?_eq_some_iff.mpr hval]

/-- Strict reading of a sequence of two to four bytes succeeds exactly on those that spell a
character. -/
theorem readSequence_eq_ok_iff {offset k : Nat} {lead : UInt8} {rest : List UInt8} {c : Char}
    (hk : announcedLength lead = some k) (h2 : 2 ≤ k) (h4 : k ≤ 4) :
    readSequence offset k lead rest = .ok c ↔ Spells k lead (rest.take (k - 1)) c := by
  have hle : (rest.take (k - 1)).length ≤ k - 1 := List.length_take_le _ _
  rw [readSequence_eq_ok_iff_checks]
  constructor
  · rintro ⟨hall, hlen, hmin, hval⟩
    exact ⟨hk, h2, h4, by omega, hall, hval ▸ hmin, hval⟩
  · intro hs
    exact ⟨hs.continued, Nat.le_of_eq hs.complete.symm, hs.value ▸ hs.shortest, hs.value⟩

end BlockExplorer
