import BlockExplorer.Codec.Decoding
import BlockExplorer.Proofs.Codec.Bits

/-!
# BlockExplorer — lenient decoding by segments

What lenient decoding makes of any bytes, on exact numbers: a character for each
segment, and a report of how many segments have a value that is no character.
The scan takes one segment a step. The word in which it gathers a segment has
room for seven bytes, and no segment is longer (`length_of_mem_segments`), so
that it holds the exact value at every byte (`toNat_sequenceWord_eq_segmentValue`).

Main results:

* `scanLenient_eq` — the scan gives the characters of the segments and the
  number of faulty ones.
* `followsSegments_decode` — text and report of lenient decoding.
-/

namespace BlockExplorer

-- ---------------------------------------------------------------------------
-- Segments
-- ---------------------------------------------------------------------------

/-- A segment takes its first byte. -/
theorem segmentLength_pos (lead : UInt8) : 1 ≤ segmentLength lead := by
  unfold segmentLength opensRun
  split
  · next h =>
    simp only [Bool.and_eq_true, decide_eq_true_eq] at h
    exact h.1
  · exact Nat.le_refl 1

/-- No byte asks for more than seven. -/
theorem segmentLength_le (lead : UInt8) : segmentLength lead ≤ 7 := by
  unfold segmentLength opensRun
  split
  · next h =>
    simp only [Bool.and_eq_true, decide_eq_true_eq] at h
    exact h.2
  · decide

theorem segments_nil : segments [] = [] := by
  rw [segments]

/-- The first segment is what the first byte asks for, the others are those of the bytes behind it.
-/
theorem segments_cons (lead : UInt8) (rest : List UInt8) :
    segments (lead :: rest) =
      (lead :: rest.take (segmentLength lead - 1)) ::
        segments (rest.drop (segmentLength lead - 1)) := by
  rw [segments]

theorem segments_ne_nil {bytes : List UInt8} (h : bytes ≠ []) : segments bytes ≠ [] := by
  obtain ⟨lead, rest, rfl⟩ := List.exists_cons_of_ne_nil h
  rw [segments_cons]
  exact List.cons_ne_nil _ _

/-- No byte is lost between the segments. -/
theorem flatten_segments (bytes : List UInt8) : (segments bytes).flatten = bytes := by
  -- the induction follows the cutting: each step takes one segment off the front
  fun_induction segments bytes with
  | case1 => rfl
  | case2 lead rest ih =>
    rw [List.flatten_cons, ih, List.cons_append, List.take_append_drop]

/-- A segment has the length that its first byte asks for, unless the bytes end before. -/
theorem length_of_mem_segments {bytes tail : List UInt8} {lead : UInt8}
    (h : lead :: tail ∈ segments bytes) : tail.length + 1 ≤ segmentLength lead := by
  fun_induction segments bytes with
  | case1 => cases h
  | case2 first rest ih =>
    rcases List.mem_cons.mp h with heq | hrest
    · obtain ⟨rfl, rfl⟩ := List.cons.inj heq
      have hle := List.length_take_le (segmentLength lead - 1) rest
      have hpos := segmentLength_pos lead
      omega
    · exact ih hrest

/-- Behind a byte that announces a length at most six bytes belong to it. -/
theorem length_take_announced {lead : UInt8} {k : Nat} (h : announcedLength lead = some k)
    (rest : List UInt8) : (rest.take (k - 1)).length ≤ 6 := by
  have h7 := (announcedLength_eq_some_iff.mp h).2.1
  have hle := List.length_take_le (k - 1) rest
  omega

/-- **The word of a segment loses no bit**: as long as there are at most seven bytes, it is the
value that their bits write. -/
theorem toNat_sequenceWord_eq_segmentValue {lead : UInt8} {tail : List UInt8}
    (hopens : opensRun lead = true) (hlen : tail.length ≤ 6) :
    (sequenceWord (onesRun lead) lead tail).toNat = segmentValue (lead :: tail) := by
  rw [toNat_sequenceWord hlen, segmentValue, if_pos hopens, payload_eq]

-- ---------------------------------------------------------------------------
-- The character of a segment
-- ---------------------------------------------------------------------------

/-- The scalar values are the code points that characters can have. -/
theorem isScalar_iff {n : Nat} : isScalar n = true ↔ n.isValidChar := by
  unfold isScalar Nat.isValidChar
  simp only [Bool.or_eq_true, Bool.and_eq_true, decide_eq_true_eq]
  omega

/-- The decoder finds a character for every scalar value, and for no other number. -/
theorem scalar?_eq (n : Nat) : scalar? n = if isScalar n then some (Char.ofNat n) else none := by
  by_cases hvalid : n.isValidChar
  · rw [scalar?, dif_pos hvalid, if_pos (isScalar_iff.mpr hvalid), Char.ofNat, dif_pos hvalid]
  · rw [scalar?, dif_neg hvalid, if_neg fun h => hvalid (isScalar_iff.mp h)]

theorem isScalar_byte (byte : UInt8) : isScalar byte.toNat = true := by
  have hlt := byte.toNat_lt
  exact isScalar_iff.mpr (.inl (by omega))

/-- A segment that opens a run stands for the character that the decoder finds in its word, or for
the replacement. -/
theorem segmentChar_of_opensRun {lead : UInt8} {tail : List UInt8}
    (hopens : opensRun lead = true) (hlen : tail.length ≤ 6) :
    segmentChar (lead :: tail) = (sequenceChar? (onesRun lead) lead tail).getD replacement := by
  rw [sequenceChar?, toNat_sequenceWord_eq_segmentValue hopens hlen, scalar?_eq, segmentChar]
  split <;> rfl

/-- A segment that opens a run is at fault when the decoder finds no character in its word. -/
theorem isScalar_of_opensRun {lead : UInt8} {tail : List UInt8}
    (hopens : opensRun lead = true) (hlen : tail.length ≤ 6) :
    isScalar (segmentValue (lead :: tail)) = (sequenceChar? (onesRun lead) lead tail).isSome := by
  rw [sequenceChar?, toNat_sequenceWord_eq_segmentValue hopens hlen, scalar?_eq]
  split
  · next h => rw [h]; rfl
  · next h => rw [Bool.not_eq_true] at h; rw [h]; rfl

/-- The first segment is looked at by itself, and the others are those of the bytes behind it. -/
theorem faultySegments_cons (lead : UInt8) (rest : List UInt8) :
    faultySegments (lead :: rest) =
      if isScalar (segmentValue (lead :: rest.take (segmentLength lead - 1))) then
        faultySegments (rest.drop (segmentLength lead - 1))
      else (lead :: rest.take (segmentLength lead - 1)) ::
        faultySegments (rest.drop (segmentLength lead - 1)) := by
  rw [faultySegments, segments_cons, List.filter_cons]
  cases isScalar (segmentValue (lead :: rest.take (segmentLength lead - 1))) <;> rfl

-- ---------------------------------------------------------------------------
-- The scan
-- ---------------------------------------------------------------------------

theorem segmentLength_of_announced {lead : UInt8} {k : Nat} (h : announcedLength lead = some k) :
    segmentLength lead = k := by
  obtain ⟨hopens, hrun⟩ := announcedLength_eq_some_iff_onesRun.mp h
  rw [segmentLength, if_pos hopens, hrun]

/-- A first byte that announces a length gives one character, and one fault unless its sequence
spells that character. -/
theorem segments_of_announced {lead : UInt8} {k : Nat} (hk : announcedLength lead = some k)
    (rest : List UInt8) :
    (segments (lead :: rest)).map segmentChar =
      (sequenceChar? k lead (rest.take (k - 1))).getD replacement ::
        (segments (rest.drop (k - 1))).map segmentChar ∧
    (faultySegments (lead :: rest)).length = (faultySegments (rest.drop (k - 1))).length +
      if (sequenceChar? k lead (rest.take (k - 1))).isSome then 0 else 1 := by
  obtain ⟨hopens, rfl⟩ := announcedLength_eq_some_iff_onesRun.mp hk
  have htail : (rest.take (onesRun lead - 1)).length ≤ 6 := length_take_announced hk rest
  rw [segments_cons, faultySegments_cons, segmentLength_of_announced hk, List.map_cons,
    segmentChar_of_opensRun hopens htail, isScalar_of_opensRun hopens htail]
  refine ⟨rfl, ?_⟩
  split <;> rfl

/-- **The scan goes by segments**: it gives one character for each, and counts those whose value
is no character. -/
theorem scanLenient_eq (bytes : List UInt8) :
    scanLenient bytes = ((segments bytes).map segmentChar, (faultySegments bytes).length) := by
  -- the cases are those of the scan: no length, a character found, and none found
  fun_induction scanLenient bytes with
  | case1 => simp [segments, faultySegments]
  | case2 lead rest hnone after ih =>
    -- a byte that opens no run is a segment of its own
    have hopens := announcedLength_eq_none_iff_opensRun.mp hnone
    have hlen : segmentLength lead = 1 := by rw [segmentLength, hopens]; rfl
    have hvalue : segmentValue [lead] = lead.toNat := by rw [segmentValue, hopens]; rfl
    have hchar : segmentChar [lead] = charOfByte lead := by
      rw [segmentChar, hvalue, if_pos (isScalar_byte lead)]
      rfl
    rw [segments_cons, faultySegments_cons, hlen, Nat.sub_self, List.take_zero, List.drop_zero,
      hvalue, if_pos (isScalar_byte lead), List.map_cons, hchar]
    show (charOfByte lead :: (scanLenient rest).1, (scanLenient rest).2) = _
    rw [ih]
  | case3 lead rest k hk after c hc ih =>
    obtain ⟨hchars, hfaulty⟩ := segments_of_announced hk rest
    rw [hchars, hfaulty, hc]
    show (c :: (scanLenient _).1, (scanLenient _).2) = _
    rw [ih]
    rfl
  | case4 lead rest k hk after hnone ih =>
    obtain ⟨hchars, hfaulty⟩ := segments_of_announced hk rest
    rw [hchars, hfaulty, hnone]
    show (replacement :: (scanLenient _).1, (scanLenient _).2 + 1) = _
    rw [ih]
    rfl

-- ---------------------------------------------------------------------------
-- Decoding
-- ---------------------------------------------------------------------------

/-- The text of lenient decoding has a character for each segment. -/
theorem value_decode (bytes : List UInt8) :
    (decode (.bytes bytes)).value = (segments bytes).map segmentChar := by
  rw [decode, decodeLenient, scanLenient_eq]

/-- What lenient decoding makes of bytes, by the segments of these. -/
structure FollowsSegments (bytes : List UInt8) (decoded : Logged CodecEvent Text) : Prop where
  /-- The segments are the input, cut. -/
  parts : (segments bytes).flatten = bytes
  text : decoded.value = (segments bytes).map segmentChar
  /-- At every byte of a segment the word has the exact value of the bytes so far. -/
  exact : ∀ lead tail, lead :: tail ∈ segments bytes → opensRun lead = true → ∀ n,
    (sequenceWord (onesRun lead) lead (tail.take n)).toNat = segmentValue (lead :: tail.take n)
  silent : faultySegments bytes = [] → decoded.events = []
  /-- The one report is of the length of the input and of how many segments are at fault. -/
  reported : faultySegments bytes ≠ [] →
    decoded.events = [.lossyDecode bytes.length (faultySegments bytes).length]
  level : ∀ e ∈ decoded.events, e.level = .debug

/-- **Lenient decoding follows the segments of its input**, whatever the bytes are. -/
theorem followsSegments_decode (bytes : List UInt8) :
    FollowsSegments bytes (decode (.bytes bytes)) := by
  have hdecode : decode (.bytes bytes) = ⟨(segments bytes).map segmentChar,
      if (faultySegments bytes).length = 0 then []
      else [.lossyDecode bytes.length (faultySegments bytes).length]⟩ := by
    rw [decode, decodeLenient, scanLenient_eq]
  rw [hdecode]
  refine ⟨flatten_segments bytes, rfl, ?_, ?_, ?_, ?_⟩
  · intro lead tail hmem hopens n
    have hlen := length_of_mem_segments hmem
    -- also a front of the segment has at most seven bytes
    have hle := segmentLength_le lead
    have htail := List.length_take_le' n tail
    exact toNat_sequenceWord_eq_segmentValue hopens (by omega)
  · intro hnil
    rw [hnil]
    rfl
  · intro hne
    exact if_neg fun hlen => hne (List.length_eq_zero_iff.mp hlen)
  · intro e he
    split at he
    · cases he
    · rw [List.mem_singleton.mp he]
      rfl

/-- A lead byte of seven whose value is too large, a surrogate, a lone continuation byte, a
replacement character, and a byte that is its own value. -/
example : decode (.bytes [0xFE, 0x84, 0x80, 0x80, 0x80, 0x80, 0xC1, 0xED, 0xA0, 0x80, 0x81, 0xEF,
    0xBF, 0xBD, 0xFF]) = ⟨['\uFFFD', '\uFFFD', '\x01', '\uFFFD', '\u00FF'],
      [.lossyDecode 15 2]⟩ := by cbv

end BlockExplorer
