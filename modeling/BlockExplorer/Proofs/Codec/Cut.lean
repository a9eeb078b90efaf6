import BlockExplorer.Proofs.Codec.Boundary

/-!
# BlockExplorer — cutting encoded text

The bytes of a text may be cut at any index, as where they arrive in blocks. An
index is either a boundary, with whole characters on both sides, or it falls into
the bytes of one character (`isBoundary_or_fallsInto`). In the second case the
first part ends in a sequence that is too short, and the second begins in the
middle of one, with a continuation byte. So strict decoding tells from either
part alone that a character was cut, and where.

Main result: `decodeStrict_take_and_drop_encode`.
-/

namespace BlockExplorer

-- ---------------------------------------------------------------------------
-- Where an index falls
-- ---------------------------------------------------------------------------

/-- The index in the bytes of the text has whole characters on both of its sides. -/
def IsBoundary (t : Text) (k : Nat) : Prop :=
  ∃ u v, t = u ++ v ∧ (encode u).length = k

/-- The index falls into the bytes of the character `c` of the text, which begin at the index
`start`. -/
def FallsInto (t : Text) (k : Nat) (c : Char) (start : Nat) : Prop :=
  ∃ u v, t = u ++ c :: v ∧ (encode u).length = start ∧ start < k ∧ k < start + encodedLength c

/-- A character more in front moves a boundary on by the length of the character. -/
theorem IsBoundary.cons {t : Text} {k : Nat} (h : IsBoundary t k) (c : Char) :
    IsBoundary (c :: t) (encodedLength c + k) := by
  obtain ⟨u, v, rfl, rfl⟩ := h
  refine ⟨c :: u, v, rfl, ?_⟩
  rw [encode_cons, List.length_append, length_encodeChar]

/-- A character more in front moves an index inside a character on by its length. -/
theorem FallsInto.cons {t : Text} {k start : Nat} {d : Char} (h : FallsInto t k d start)
    (c : Char) : FallsInto (c :: t) (encodedLength c + k) d (encodedLength c + start) := by
  obtain ⟨u, v, rfl, rfl, hafter, hbefore⟩ := h
  refine ⟨c :: u, v, rfl, ?_, by omega, by omega⟩
  rw [encode_cons, List.length_append, length_encodeChar]

/-- **An index is a boundary or falls into a character.** The induction is on the text: its first
character has the index at its front, inside it or behind it. -/
theorem isBoundary_or_fallsInto {t : Text} {k : Nat} (hk : k ≤ (encode t).length) :
    IsBoundary t k ∨ ∃ c start, FallsInto t k c start := by
  induction t generalizing k with
  | nil => exact .inl ⟨[], [], rfl, (Nat.le_zero.mp hk).symm⟩
  | cons c t ih =>
    rw [encode_cons, List.length_append, length_encodeChar] at hk
    -- the index is inside the first character or behind it
    rcases Nat.lt_or_ge k (encodedLength c) with hlt | hge
    · rcases Nat.eq_zero_or_pos k with rfl | hpos
      · exact .inl ⟨[], c :: t, rfl, rfl⟩
      · exact .inr ⟨c, 0, [], t, rfl, rfl, hpos, by omega⟩
    · obtain ⟨n, rfl⟩ := Nat.exists_eq_add_of_le hge
      rcases ih (k := n) (by omega) with h | ⟨d, start, h⟩
      · exact .inl (h.cons c)
      · exact .inr ⟨d, encodedLength c + start, h.cons c⟩

-- ---------------------------------------------------------------------------
-- One character
-- ---------------------------------------------------------------------------

/-- A character that is cut has a sequence of several bytes. -/
theorem spells_of_cut {c : Char} {n : Nat} (hpos : 0 < n) (hlt : n < encodedLength c) :
    ∃ lead tail, Spells (encodedLength c) lead tail c ∧ encodeChar c = lead :: tail := by
  have hlen := length_encodeChar c
  rcases encodeChar_cases c with ⟨lead, -, -, henc⟩ | ⟨k, lead, tail, hs, henc⟩
  · rw [henc, List.length_singleton] at hlen
    omega
  · rw [henc, List.length_cons, hs.complete] at hlen
    exact ⟨lead, tail, hlen ▸ hs, henc⟩

/-- The first bytes of a character are a sequence that ends too early. -/
theorem scanStrict_take_encodeChar {c : Char} {n : Nat} (hpos : 0 < n)
    (hlt : n < encodedLength c) (offset : Nat) :
    scanStrict offset ((encodeChar c).take n) =
      .error (.truncated offset (encodedLength c) n) := by
  obtain ⟨lead, tail, hs, henc⟩ := spells_of_cut hpos hlt
  obtain ⟨m, rfl⟩ := Nat.exists_eq_add_of_le' hpos
  have h2 := hs.two_le
  have hcomplete := hs.complete
  have hlen : (lead :: tail.take m).length = m + 1 := by
    rw [List.length_cons, List.length_take]
    omega
  have hcontinued : Continued (encodedLength c) (lead :: tail.take m) := by
    rw [continued_iff (by omega)]
    intro byte hbyte
    exact hs.continued byte (List.mem_of_mem_take (List.mem_of_mem_take hbyte))
  -- the bytes that are left have no other fault than their number
  have hfault : SequenceFault offset lead (tail.take m)
      (.truncated offset (encodedLength c) (lead :: tail.take m).length) :=
    .truncated (announces_iff.mpr ⟨hs.announced, h2, hs.le_four, rfl⟩) hcontinued (by omega)
  rw [henc, List.take_succ_cons, scanStrict_of_fault hfault, hlen]

/-- The other bytes of a character begin with a continuation byte. -/
theorem scanStrict_drop_encodeChar_append {c : Char} {n : Nat} (hpos : 0 < n)
    (hlt : n < (encodeChar c).length) (offset : Nat) (rest : List UInt8) :
    scanStrict offset ((encodeChar c).drop n ++ rest) =
      .error (.unexpectedContinuation offset (encodeChar c)[n]) := by
  have hbyte := isContinuation_of_mem_drop_encodeChar (c := c) hpos (encodeChar c)[n]
    (by rw [List.drop_eq_getElem_cons hlt]; exact List.mem_cons_self)
  rw [List.drop_eq_getElem_cons hlt, List.cons_append]
  exact scanStrict_of_fault (.unexpectedContinuation (isTail_iff.mpr hbyte))

-- ---------------------------------------------------------------------------
-- Both parts
-- ---------------------------------------------------------------------------

/-- At a boundary both parts are encodings. -/
theorem decodeStrict_of_isBoundary {t : Text} {k : Nat} (h : IsBoundary t k) :
    ∃ u v, u ++ v = t ∧ (decodeStrict ((encode t).take k)).value = .ok u ∧
      (decodeStrict ((encode t).drop k)).value = .ok v := by
  obtain ⟨u, v, rfl, rfl⟩ := h
  refine ⟨u, v, rfl, ?_, ?_⟩
  · rw [encode_append, List.take_left, decodeStrict_encode]
  · rw [encode_append, List.drop_left, decodeStrict_encode]

/-- Inside a character both parts are refused, each for its own reason. -/
theorem decodeStrict_of_fallsInto {t : Text} {k start : Nat} {c : Char}
    (h : FallsInto t k c start) :
    ∃ byte, (encode t)[k]? = some byte ∧
      (decodeStrict ((encode t).take k)).value =
        .error (.truncated start (encodedLength c) (k - start)) ∧
      (decodeStrict ((encode t).drop k)).value = .error (.unexpectedContinuation 0 byte) := by
  obtain ⟨u, v, rfl, rfl, hafter, hbefore⟩ := h
  obtain ⟨n, rfl⟩ := Nat.exists_eq_add_of_le (Nat.le_of_lt hafter)
  have hpos : 0 < n := by omega
  have hlt : n < (encodeChar c).length := by
    rw [length_encodeChar]
    omega
  have henc : encode (u ++ c :: v) = encode u ++ (encodeChar c ++ encode v) := by
    rw [encode_append, encode_cons]
  -- what stands before the character is accepted, so that its offset is the length of that
  refine ⟨(encodeChar c)[n], ?_, ?_, ?_⟩
  · rw [henc, List.getElem?_append_right (Nat.le_add_right _ _), Nat.add_sub_cancel_left,
      List.getElem?_append_left hlt, List.getElem?_eq_getElem hlt]
  · rw [decodeStrict_eq_error_iff, henc, List.take_length_add_append,
      List.take_append_of_le_length (Nat.le_of_lt hlt), scanStrict_encode_append,
      scanStrict_take_encodeChar hpos (by omega), Nat.zero_add, ← length_encode,
      Nat.add_sub_cancel_left]
    rfl
  · rw [decodeStrict_eq_error_iff, henc, List.drop_length_add_append,
      List.drop_append_of_le_length (Nat.le_of_lt hlt),
      scanStrict_drop_encodeChar_append hpos hlt]

/-- **Cutting the bytes of a text.** At a boundary strict decoding accepts both parts, and their
texts make up the whole. Any other index falls into a character, which one can see in either part:
the first is cut off at the bytes of this character, as many as stand before the index, and the
second begins with a continuation byte. -/
theorem decodeStrict_take_and_drop_encode (t : Text) {k : Nat} (hk : k ≤ (encode t).length) :
    (IsBoundary t k → ∃ u v, u ++ v = t ∧
      (decodeStrict ((encode t).take k)).value = .ok u ∧
      (decodeStrict ((encode t).drop k)).value = .ok v) ∧
    (¬ IsBoundary t k ↔ ∃ c start, FallsInto t k c start) ∧
    ∀ c start, FallsInto t k c start → ∃ byte, (encode t)[k]? = some byte ∧
      (decodeStrict ((encode t).take k)).value =
        .error (.truncated start (encodedLength c) (k - start)) ∧
      (decodeStrict ((encode t).drop k)).value = .error (.unexpectedContinuation 0 byte) := by
  refine ⟨decodeStrict_of_isBoundary, ⟨?_, ?_⟩, fun c start => decodeStrict_of_fallsInto⟩
  · exact (isBoundary_or_fallsInto hk).resolve_left
  · rintro ⟨c, start, hinto⟩ hboundary
    -- the second part is accepted at a boundary, and refused elsewhere
    obtain ⟨u, v, -, -, haccept⟩ := decodeStrict_of_isBoundary hboundary
    obtain ⟨byte, -, -, hrefuse⟩ := decodeStrict_of_fallsInto hinto
    rw [haccept] at hrefuse
    cases hrefuse

/-- The cut takes the last byte from a character of three, which stands behind one of two. -/
theorem decodeStrict_take_and_drop_euro :
    4 ≤ (encode ['é', '€']).length ∧ FallsInto ['é', '€'] 4 '€' 2 ∧
    (decodeStrict ((encode ['é', '€']).take 4)).value = .error (.truncated 2 3 2) ∧
    (decodeStrict ((encode ['é', '€']).drop 4)).value =
      .error (.unexpectedContinuation 0 0xAC) := by
  have hk : 4 ≤ (encode ['é', '€']).length := by decide
  have hinto : FallsInto ['é', '€'] 4 '€' 2 :=
    ⟨['é'], [], rfl, by decide, by decide, by decide⟩
  obtain ⟨byte, hbyte, hfront, hback⟩ :=
    (decodeStrict_take_and_drop_encode ['é', '€'] hk).2.2 '€' 2 hinto
  have hlast : (encode ['é', '€'])[4]? = some 0xAC := by decide
  obtain rfl : 0xAC = byte := Option.some.inj (hlast.symm.trans hbyte)
  exact ⟨hk, hinto, hfront, hback⟩

end BlockExplorer
