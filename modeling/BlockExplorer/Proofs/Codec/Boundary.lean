import BlockExplorer.Proofs.Codec.Fault
import BlockExplorer.Proofs.Codec.Lenient

/-!
# BlockExplorer — decoding from a boundary on

Both decoders go through their input once and look at nothing behind them, so
that bytes decode in parts wherever one part ends together with a sequence. Of
lenient decoding this is said by the bytes that the last segment is still owed
(`owed`): the segments of two parts together are those of the first part with
the bytes owed to it, and those of what is left of the second (`segments_append`).
At most six bytes are ever owed. In strict decoding the bytes before move the
offset of an error and nothing else (`scanStrict_add`).

If the second part is the encoding of a text, the bytes owed may end inside a
character. What is left of that one are continuation bytes, each a segment of
its own, and behind them the next character begins (`exists_segments_drop_encode`).

Main results:

* `decode_append_and_decodeStrict_append` — either decoder on two parts, by what
  it makes of each.
* `exists_decode_append_encode` — whatever stands before an encoded text, lenient
  decoding loses at most six characters of it.
-/

namespace BlockExplorer

-- ---------------------------------------------------------------------------
-- Bytes owed
-- ---------------------------------------------------------------------------

/-- How many bytes a segment lacks of those that its first byte asks for. -/
def lacking : List UInt8 → Nat
  | [] => 0
  | lead :: tail => segmentLength lead - 1 - tail.length

/-- How many bytes the last segment lacks: none where the bytes do not end inside a segment. -/
def owed (bytes : List UInt8) : Nat :=
  ((segments bytes).getLast?.map lacking).getD 0

/-- The first segment is owed bytes if it takes all there are, and then it is the last one. -/
theorem owed_cons_of_le {lead : UInt8} {rest : List UInt8}
    (h : rest.length ≤ segmentLength lead - 1) :
    owed (lead :: rest) = segmentLength lead - 1 - rest.length := by
  rw [owed, segments_cons, List.take_of_length_le h, List.drop_of_length_le h, segments_nil]
  rfl

/-- Otherwise the first segment is complete, and the last one is among the others. -/
theorem owed_cons_of_lt {lead : UInt8} {rest : List UInt8}
    (h : segmentLength lead - 1 < rest.length) :
    owed (lead :: rest) = owed (rest.drop (segmentLength lead - 1)) := by
  have hne : rest.drop (segmentLength lead - 1) ≠ [] := by
    rw [ne_eq, List.drop_eq_nil_iff]
    omega
  obtain ⟨first, others, hsegments⟩ := List.exists_cons_of_ne_nil (segments_ne_nil hne)
  rw [owed, owed, segments_cons, hsegments, List.getLast?_cons_cons]

/-- At most six bytes are owed. -/
theorem owed_le (bytes : List UInt8) : owed bytes ≤ 6 := by
  unfold owed
  cases (segments bytes).getLast? with
  | none => exact Nat.zero_le 6
  | some segment =>
    cases segment with
    | nil => exact Nat.zero_le 6
    | cons lead tail =>
      show segmentLength lead - 1 - tail.length ≤ 6
      have hle := segmentLength_le lead
      omega

/-- **The segments of two parts.** The last segment of the first part takes the bytes that it is
owed, as far as there are any, and no other byte of the second part has to do with the first. -/
theorem segments_append (front rest : List UInt8) :
    segments (front ++ rest) =
      segments (front ++ rest.take (owed front)) ++ segments (rest.drop (owed front)) := by
  -- the induction takes the segments off the first part one by one
  fun_induction segments front with
  | case1 =>
    rw [owed, segments_nil]
    simp [segments_nil]
  | case2 lead tail ih =>
    simp only [List.cons_append, segments_cons]
    by_cases h : tail.length ≤ segmentLength lead - 1
    · -- the first segment goes on in the second part, or ends just before it
      have htake : ∀ more : List UInt8, (tail ++ more).take (segmentLength lead - 1) =
          tail ++ more.take (segmentLength lead - 1 - tail.length) := fun more => by
        rw [List.take_append, List.take_of_length_le h]
      have hdrop : ∀ more : List UInt8, (tail ++ more).drop (segmentLength lead - 1) =
          more.drop (segmentLength lead - 1 - tail.length) := fun more => by
        rw [List.drop_append, List.drop_of_length_le h, List.nil_append]
      rw [owed_cons_of_le h, htake, hdrop, htake, hdrop, List.take_take, Nat.min_self,
        List.drop_of_length_le (List.length_take_le _ _), segments_nil, List.nil_append]
    · have hlt : segmentLength lead - 1 < tail.length := Nat.lt_of_not_le h
      have htake : ∀ more : List UInt8, (tail ++ more).take (segmentLength lead - 1) =
          tail.take (segmentLength lead - 1) := fun more =>
        List.take_append_of_le_length (Nat.le_of_lt hlt)
      have hdrop : ∀ more : List UInt8, (tail ++ more).drop (segmentLength lead - 1) =
          tail.drop (segmentLength lead - 1) ++ more := fun more =>
        List.drop_append_of_le_length (Nat.le_of_lt hlt)
      rw [owed_cons_of_lt hlt, htake, hdrop, htake, hdrop, ih]

-- ---------------------------------------------------------------------------
-- Offsets
-- ---------------------------------------------------------------------------

/-- The same error, `n` bytes further on. -/
def CodecError.movedBy (n : Nat) : CodecError → CodecError
  | unexpectedContinuation offset byte => unexpectedContinuation (n + offset) byte
  | invalidLeadingByte offset byte => invalidLeadingByte (n + offset) byte
  | truncated offset expected available => truncated (n + offset) expected available
  | invalidContinuation offset byte => invalidContinuation (n + offset) byte
  | overlong offset value => overlong (n + offset) value
  | invalidCodePoint offset value => invalidCodePoint (n + offset) value
  | invalidByteLiteral token => invalidByteLiteral token

/-- Reading a sequence uses the offset for the place of an error only. -/
theorem readSequence_add (n offset k : Nat) (lead : UInt8) (rest : List UInt8) :
    readSequence (n + offset) k lead rest =
      (readSequence offset k lead rest).mapError (·.movedBy n) := by
  unfold readSequence
  dsimp only
  split
  · next i hi =>
    rw [Nat.add_assoc, Nat.add_assoc, ← Nat.add_assoc offset]
    rfl
  split
  · rfl
  split
  · rfl
  cases scalar? (sequenceValue k lead (rest.take (k - 1))) <;> rfl

/-- **The offset of the first byte goes into the offset of an error** and into nothing else. -/
theorem scanStrict_add (n offset : Nat) (bytes : List UInt8) :
    scanStrict (n + offset) bytes = (scanStrict offset bytes).mapError (·.movedBy n) := by
  -- case by case the same branch is taken at either offset
  fun_induction scanStrict offset bytes with
  | case1 =>
    rw [scanStrict]
    rfl
  | case2 offset lead rest hnone hlt ih =>
    rw [scanStrict, hnone]
    dsimp only
    rw [if_pos hlt, Nat.add_assoc, ih, exceptMapError_map]
  | case3 offset lead rest hnone hlt =>
    rw [scanStrict, hnone]
    exact if_neg hlt
  | case4 offset lead rest hone =>
    rw [scanStrict, hone]
    rfl
  | case5 offset lead rest k hk h1 h4 e hread =>
    rw [scanStrict, hk]
    dsimp only
    rw [if_neg h1, if_pos h4, readSequence_add, hread]
    rfl
  | case6 offset lead rest k hk h1 h4 c hread ih =>
    rw [scanStrict, hk]
    dsimp only
    rw [if_neg h1, if_pos h4, readSequence_add, hread, exceptMapError_map, ← ih, ← Nat.add_assoc]
    rfl
  | case7 offset lead rest k hk h1 h4 =>
    rw [scanStrict, hk]
    dsimp only
    rw [if_neg h1, if_neg h4]
    rfl

-- ---------------------------------------------------------------------------
-- Two parts
-- ---------------------------------------------------------------------------

/-- **Decoding in parts.** Where the bytes of the first part end together with a segment, lenient
decoding makes of both what it makes of each. Behind the encoding of a text strict decoding makes
of any bytes what it makes of them alone: the texts follow each other, and an error is the same
error as far on as the encoding is long. -/
theorem decode_append_and_decodeStrict_append (front rest : List UInt8) (t : Text) :
    (owed front = 0 →
      (decode (.bytes (front ++ rest))).value =
        (decode (.bytes front)).value ++ (decode (.bytes rest)).value) ∧
    (decodeStrict (encode t ++ rest)).value =
      match (decodeStrict rest).value with
      | .ok u => .ok (t ++ u)
      | .error e => .error (e.movedBy (encode t).length) := by
  constructor
  · intro howed
    have hsegments := segments_append front rest
    rw [howed, List.take_zero, List.append_nil, List.drop_zero] at hsegments
    rw [value_decode, value_decode, value_decode, hsegments, List.map_append]
  · have hscan := scanStrict_encode_append 0 t rest
    rw [Nat.zero_add, ← length_encode, ← Nat.add_zero (encode t).length, scanStrict_add] at hscan
    unfold decodeStrict textOfBytes
    rw [hscan]
    cases scanStrict 0 rest <;> rfl

/-- A first part that is no well-formed text but ends together with a segment, and a second part
that is cut off. -/
theorem decode_append_malformed :
    owed [0x81, 0xC3, 0x41] = 0 ∧
    (decode (.bytes ([0x81, 0xC3, 0x41] ++ [0xE2, 0x82]))).value =
      (decode (.bytes [0x81, 0xC3, 0x41])).value ++ (decode (.bytes [0xE2, 0x82])).value :=
  have howed : owed [0x81, 0xC3, 0x41] = 0 := by
    rw [owed_cons_of_lt (by decide)]
    show owed [0xC3, 0x41] = 0
    rw [owed_cons_of_le (by decide)]
    rfl
  ⟨howed, (decode_append_and_decodeStrict_append [0x81, 0xC3, 0x41] [0xE2, 0x82] []).1 howed⟩

-- ---------------------------------------------------------------------------
-- Behind damage
-- ---------------------------------------------------------------------------

/-- The segments of an encoded text stand for its characters. -/
theorem map_segmentChar_segments_encode (t : Text) :
    (segments (encode t)).map segmentChar = t := by
  have hscan := scanLenient_encode t
  rw [scanLenient_eq] at hscan
  exact (Prod.mk.inj hscan).1

/-- Continuation bytes at the front are segments one by one. -/
theorem segments_append_of_continuation {front : List UInt8}
    (h : ∀ byte ∈ front, isContinuation byte = true) (rest : List UInt8) :
    segments (front ++ rest) = front.map (fun byte => [byte]) ++ segments rest := by
  induction front with
  | nil => rfl
  | cons byte front ih =>
    rw [List.forall_mem_cons] at h
    have hlen : segmentLength byte = 1 :=
      segmentLength_of_announced (isTail_iff_announced.mp (isTail_iff.mpr h.1))
    rw [List.cons_append, segments_cons, hlen, Nat.sub_self, List.take_zero, List.drop_zero,
      ih h.2]
    rfl

/-- Behind the first byte a character has continuation bytes only. -/
theorem isContinuation_of_mem_drop_encodeChar {c : Char} {n : Nat} (hn : 1 ≤ n) :
    ∀ byte ∈ (encodeChar c).drop n, isContinuation byte = true := by
  intro byte hbyte
  obtain ⟨m, rfl⟩ := Nat.exists_eq_add_of_le' hn
  rcases encodeChar_cases c with ⟨lead, -, -, henc⟩ | ⟨k, lead, tail, hs, henc⟩
  · rw [henc, List.drop_succ_cons, List.drop_nil] at hbyte
    cases hbyte
  · rw [henc, List.drop_succ_cons] at hbyte
    exact hs.continued byte (List.mem_of_mem_drop hbyte)

/-- **The scan finds back to the characters.** If bytes are missing from the front of an encoded
text, then of the segments of the others the first few are for the rest of a character, and those
behind them are the segments of a text that lacks no more characters than there are bytes
missing. -/
theorem exists_segments_drop_encode (t : Text) (n : Nat) :
    ∃ k front, k ≤ n ∧ segments ((encode t).drop n) = front ++ segments (encode (t.drop k)) := by
  induction t generalizing n with
  | nil =>
    refine ⟨0, [], Nat.zero_le n, ?_⟩
    rw [encode_nil, List.drop_nil]
    rfl
  | cons c t ih =>
    have hpos : 1 ≤ (encodeChar c).length := List.length_pos_iff.mpr (encodeChar_ne_nil c)
    -- bytes are missing from the first character only, or all of it is missing
    rcases Nat.lt_or_ge n (encodeChar c).length with hlt | hge
    · rcases Nat.eq_zero_or_pos n with rfl | hn
      · exact ⟨0, [], Nat.le_refl 0, rfl⟩
      · -- the character is cut: what is left of it has no first byte
        refine ⟨1, ((encodeChar c).drop n).map (fun byte => [byte]), hn, ?_⟩
        rw [encode_cons, List.drop_append_of_le_length (Nat.le_of_lt hlt),
          segments_append_of_continuation (isContinuation_of_mem_drop_encodeChar hn)]
        rfl
    · obtain ⟨k, front, hk, hsegments⟩ := ih (n - (encodeChar c).length)
      refine ⟨k + 1, front, by omega, ?_⟩
      rw [encode_cons, List.drop_append, List.drop_of_length_le hge, List.nil_append, hsegments]
      rfl

/-- **Damage costs at most six characters.** Whatever bytes stand before the encoding of a text,
lenient decoding gives back the text behind some other characters, but for at most six at its
front. -/
theorem exists_decode_append_encode (garbage : List UInt8) (t : Text) :
    ∃ (front : Text) (lost : Nat), lost ≤ 6 ∧
      (decode (.bytes (garbage ++ encode t))).value = front ++ t.drop lost := by
  obtain ⟨k, cut, hk, hsegments⟩ := exists_segments_drop_encode t (owed garbage)
  have hle := owed_le garbage
  -- the segments in front are those of the garbage, with the bytes owed to it, and those of the
  -- character that this cuts
  refine ⟨(segments (garbage ++ (encode t).take (owed garbage)) ++ cut).map segmentChar, k,
    by omega, ?_⟩
  rw [value_decode, segments_append, hsegments, ← List.append_assoc, List.map_append,
    map_segmentChar_segments_encode]

/-- A first byte of seven takes six characters of one byte, and no fewer are lost. -/
example : (decode (.bytes (0xFE :: encode ['1', '2', '3', '4', '5', '6', '7']))).value =
    ['\uFFFD', '7'] := by cbv

end BlockExplorer
