import BlockExplorer.Proofs.Codec.Encoding
import BlockExplorer.Proofs.Codec.Lenient

/-!
# BlockExplorer — the size of decoded text

A segment gives one character, and this takes no more bytes than the segment
has. The bits of one, two or three bytes have room for no value that needs a
byte more (`segmentValue_lt`): the longer the sequence that a first byte
announces, the fewer bits are left in it, also where the end of input cuts the
sequence off. Values that are no characters need three bytes at least, and so
does the replacement that stands for them. Only `FF`, a segment of its own,
becomes a character of two bytes.

Main results:

* `encodedLength_segmentChar_le_length` — the character of a segment takes at
  most the bytes of the segment, and one more for `FF`.
* `length_decode_le` — lenient decoding gives no more characters than there are
  bytes, and a text that takes no more bytes but for those that are `FF`.
-/

namespace BlockExplorer

-- ---------------------------------------------------------------------------
-- One segment
-- ---------------------------------------------------------------------------

theorem encodedLength_le_four (c : Char) : encodedLength c ≤ 4 := by
  unfold encodedLength
  grind

/-- The character of a segment takes the bytes that its value needs: `n` at most if the value is
below those that need one more. -/
theorem encodedLength_segmentChar_le {segment : List UInt8} {n : Nat} (hn : 1 ≤ n)
    (h : n + 1 ≤ 4 → segmentValue segment < minimumValue (n + 1)) :
    encodedLength (segmentChar segment) ≤ n := by
  refine Nat.le_of_not_lt fun hlonger => ?_
  have h4 := encodedLength_le_four (segmentChar segment)
  have hvalue := h (by omega)
  -- the character is that of the value, or the replacement
  by_cases hscalar : isScalar (segmentValue segment) = true
  · have hneeded : minimumValue (n + 1) ≤ (segmentChar segment).toNat :=
      (minimumValue_le_iff (by omega) (by omega)).mpr hlonger
    have hchar : scalar? (segmentValue segment) = some (Char.ofNat (segmentValue segment)) := by
      rw [scalar?_eq, if_pos hscalar]
    rw [segmentChar, if_pos hscalar, ← scalar?_eq_some_iff.mp hchar] at hneeded
    omega
  · -- the value is not below the surrogates, and so it needs no less than the replacement does
    have hsurrogate : 0xD800 ≤ segmentValue segment := by
      unfold isScalar at hscalar
      simp only [Bool.or_eq_true, decide_eq_true_eq, not_or] at hscalar
      omega
    have hreplacement : encodedLength '\uFFFD' = 3 := by decide
    have hsmall : ∀ n < 3, 1 ≤ n → minimumValue (n + 1) ≤ 0xD800 := by decide
    rw [segmentChar, if_neg hscalar, hreplacement] at hlonger
    have hle := hsmall n hlonger hn
    omega

/-- One, two and three bytes of a sequence have no room for a value that needs a byte more. -/
theorem segmentValue_lt {lead : UInt8} {tail : List UInt8} (hopens : opensRun lead = true)
    (hlen : tail.length + 1 ≤ segmentLength lead) (h3 : tail.length + 1 ≤ 3) :
    segmentValue (lead :: tail) < minimumValue (tail.length + 2) := by
  have hrun : tail.length + 1 ≤ onesRun lead := by
    rwa [segmentLength, if_pos hopens] at hlen
  -- the bits of the first byte and six of each other one
  have hroom : ∀ n ≤ 2, Nat.pow 2 (6 - n) * Nat.pow 0x40 n ≤ minimumValue (n + 2) := by decide
  rw [segmentValue, if_pos hopens, payload_eq]
  calc sequenceValue (onesRun lead) lead tail
      < Nat.pow 2 (7 - onesRun lead) * Nat.pow 0x40 tail.length := sequenceValue_lt _ lead tail
    _ ≤ Nat.pow 2 (6 - tail.length) * Nat.pow 0x40 tail.length :=
      Nat.mul_le_mul_right _ (Nat.pow_le_pow_right (by decide) (by omega))
    _ ≤ minimumValue (tail.length + 2) := hroom tail.length (by omega)

/-- **The character of a segment takes at most the bytes of the segment**, and one more for
`FF`. -/
theorem encodedLength_segmentChar_le_length {lead : UInt8} {tail : List UInt8}
    (hlen : tail.length + 1 ≤ segmentLength lead) :
    encodedLength (segmentChar (lead :: tail)) ≤
      (lead :: tail).length + (lead :: tail).count 0xFF := by
  by_cases hopens : opensRun lead = true
  · refine Nat.le_trans (encodedLength_segmentChar_le (Nat.le_add_left 1 _) fun h4 => ?_)
      (Nat.le_add_right _ _)
    exact segmentValue_lt hopens hlen (Nat.le_of_succ_le_succ h4)
  · rw [Bool.not_eq_true] at hopens
    -- the byte is a segment of its own
    have htail : tail = [] := by
      rw [segmentLength, hopens] at hlen
      exact List.length_eq_zero_iff.mp (by simpa using hlen)
    subst htail
    have hvalue : segmentValue [lead] = lead.toNat := by rw [segmentValue, hopens]; rfl
    -- it is ASCII or `FF`
    rcases announcedLength_eq_none_iff.mp (announcedLength_eq_none_iff_opensRun.mpr hopens) with
      hascii | hff
    · refine Nat.le_trans (encodedLength_segmentChar_le (Nat.le_refl 1) fun _ => ?_)
        (Nat.le_add_right _ _)
      rw [hvalue]
      exact hascii
    · obtain rfl : lead = 0xFF := UInt8.toNat_inj.mp hff
      decide

-- ---------------------------------------------------------------------------
-- All segments
-- ---------------------------------------------------------------------------

/-- Each segment takes a byte at least. -/
theorem length_segments_le (bytes : List UInt8) : (segments bytes).length ≤ bytes.length := by
  fun_induction segments bytes with
  | case1 => exact Nat.zero_le 0
  | case2 lead rest ih =>
    rw [List.length_drop] at ih
    rw [List.length_cons, List.length_cons]
    omega

/-- The bounds of the segments add up. -/
theorem length_encode_map_segmentChar_le (bytes : List UInt8) :
    (encode ((segments bytes).map segmentChar)).length ≤ bytes.length + bytes.count 0xFF := by
  fun_induction segments bytes with
  | case1 => exact Nat.zero_le 0
  | case2 lead rest ih =>
    -- the bytes are the first segment and what is behind it
    have hparts : lead :: rest = (lead :: rest.take (segmentLength lead - 1)) ++
        rest.drop (segmentLength lead - 1) := by
      rw [List.cons_append, List.take_append_drop]
    have hfirst : encodedLength (segmentChar (lead :: rest.take (segmentLength lead - 1))) ≤
        (lead :: rest.take (segmentLength lead - 1)).length +
          (lead :: rest.take (segmentLength lead - 1)).count 0xFF := by
      have hpos := segmentLength_pos lead
      have hle := List.length_take_le (segmentLength lead - 1) rest
      exact encodedLength_segmentChar_le_length (by omega)
    rw [List.map_cons, encode_cons, List.length_append, length_encodeChar, hparts,
      List.length_append, List.count_append]
    omega

/-- **Decoded text does not outgrow its bytes.** Lenient decoding gives at most as many characters
as there are bytes. Encoded again, the text takes at most as many bytes as there were and one more
for every `FF` among them, and so without `FF` no more than there were. -/
theorem length_decode_le (bytes : List UInt8) :
    (decode (.bytes bytes)).value.length ≤ bytes.length ∧
    (encode (decode (.bytes bytes)).value).length ≤ bytes.length + bytes.count 0xFF ∧
    (0xFF ∉ bytes → (encode (decode (.bytes bytes)).value).length ≤ bytes.length) := by
  have hbytes := length_encode_map_segmentChar_le bytes
  rw [value_decode]
  refine ⟨?_, hbytes, fun hff => ?_⟩
  · rw [List.length_map]
    exact length_segments_le bytes
  · rwa [List.count_eq_zero.mpr hff] at hbytes

/-- The bytes of a surrogate become a replacement character of the same size. -/
theorem length_encode_decode_surrogate :
    (0xFF : UInt8) ∉ [0xED, 0xA0, 0x80] ∧
    (encode (decode (.bytes [0xED, 0xA0, 0x80])).value).length ≤ 3 :=
  have hff : (0xFF : UInt8) ∉ [0xED, 0xA0, 0x80] := by decide
  ⟨hff, (length_decode_le [0xED, 0xA0, 0x80]).2.2 hff⟩

/-- Every `FF` may cost a byte. -/
example : (encode (decode (.bytes [0xFF, 0xFF])).value).length = 4 := by cbv

end BlockExplorer
