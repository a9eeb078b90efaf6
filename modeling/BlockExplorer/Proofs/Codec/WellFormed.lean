import BlockExplorer.Codec.WellFormed
import BlockExplorer.Proofs.Codec.RoundTrip

/-!
# BlockExplorer — strict decoding and the table of well-formed bytes

Strict decoding never looks at the table: it counts leading ones, checks the
first two bits of the other bytes, and compares the value that it has gathered
with a minimum and with the ranges of scalar values. That both accept the same
bytes is shown for one sequence (`isTableSequence_iff`), where for each length
the ranges of the table and the conditions on the value are the same linear
facts about the bytes. A concatenation of such sequences is then the encoding of
a text, and encodings are what strict decoding accepts.

Main results:

* `isTableSequence_iff` — the sequences of the table are the encodings of single
  characters.
* `wellFormed_iff_encode` — well-formed bytes are the encodings of texts.
* `exists_decodeStrict_iff_wellFormed` — strict decoding succeeds exactly on
  well-formed bytes.
-/

namespace BlockExplorer

-- ---------------------------------------------------------------------------
-- One sequence
-- ---------------------------------------------------------------------------

@[simp] theorem fitsRow_nil : fitsRow [] [] = true := rfl

@[simp] theorem fitsRow_nil_cons (byte : UInt8) (bytes : List UInt8) :
    fitsRow [] (byte :: bytes) = false := rfl

@[simp] theorem fitsRow_cons_nil (range : UInt8 × UInt8) (row : List (UInt8 × UInt8)) :
    fitsRow (range :: row) [] = false := rfl

/-- A byte fits the range at its place, and the bytes behind it fit the rest of the row. -/
@[simp] theorem fitsRow_cons (range : UInt8 × UInt8) (row : List (UInt8 × UInt8)) (byte : UInt8)
    (bytes : List UInt8) :
    fitsRow (range :: row) (byte :: bytes) = true ↔
      (range.1.toNat ≤ byte.toNat ∧ byte.toNat ≤ range.2.toNat) ∧ fitsRow row bytes = true := by
  simp only [fitsRow, Bool.and_eq_true, decide_eq_true_eq, UInt8.le_iff_toNat_le]

/-- Bytes spell some character when each has its form and the value that they carry is a scalar
value that no shorter sequence could carry. -/
theorem exists_spells_iff {k : Nat} {lead : UInt8} {tail : List UInt8}
    (hk : tail.length + 1 = k) :
    (∃ j c, Spells j lead tail c) ↔
      (2 ≤ k ∧ k ≤ 4) ∧
      (0x100 ≤ lead.toNat + Nat.pow 2 (8 - k) ∧ lead.toNat + Nat.pow 2 (7 - k) < 0x100) ∧
      (∀ byte ∈ tail, byte.toNat = 0x80 + tailBits byte) ∧
      minimumValue k ≤ sequenceValue k lead tail ∧ (sequenceValue k lead tail).isValidChar := by
  constructor
  · rintro ⟨j, c, hs⟩
    -- the length of the sequence is that of its bytes
    obtain rfl : j = k := by rw [← hs.complete, hk]
    obtain ⟨-, h7, hones⟩ := announcedLength_eq_some_iff.mp hs.announced
    refine ⟨⟨hs.two_le, hs.le_four⟩, (leadingOnes_eq_iff h7).mp hones, ?_, ?_, ?_⟩
    · intro byte hbyte
      exact isContinuation_iff.mp (hs.continued byte hbyte)
    · rw [hs.value]
      exact hs.shortest
    · rw [hs.value]
      exact c.valid
  · rintro ⟨⟨h2, h4⟩, hlead, htail, hmin, hvalid⟩
    -- the character is the one whose code point the bytes carry
    have hones := (leadingOnes_eq_iff (by omega)).mpr hlead
    have hvalue : sequenceValue k lead tail = (Char.ofNatAux _ hvalid).toNat := rfl
    refine ⟨k, Char.ofNatAux _ hvalid,
      announcedLength_eq_some_iff.mpr ⟨by omega, by omega, hones⟩, h2, h4, hk, ?_, ?_, hvalue⟩
    · intro byte hbyte
      exact isContinuation_iff.mpr (htail byte hbyte)
    · rw [← hvalue]
      exact hmin

/-- Several bytes are a sequence of the table when they spell a character. -/
theorem isTableSequence_iff_spells {lead : UInt8} {tail : List UInt8} (h : tail ≠ []) :
    isTableSequence (lead :: tail) = true ↔ ∃ k c, Spells k lead tail c := by
  rw [exists_spells_iff rfl]
  unfold isTableSequence sequenceTable
  rcases tail with _ | ⟨a, _ | ⟨b, _ | ⟨d, _ | ⟨e, tail⟩⟩⟩⟩
  · exact absurd rfl h
  -- no row has five ranges, and no sequence has five bytes
  case cons.cons.cons.cons => simp
  -- for two, three and four bytes both sides are ranges of single bytes
  all_goals
    simp only [List.any_cons, List.any_nil, Bool.or_eq_true, fitsRow_cons, fitsRow_nil,
      fitsRow_nil_cons, fitsRow_cons_nil, List.length_cons, List.length_nil, Bool.false_eq_true,
      and_false, and_true, or_false, false_or, List.mem_cons, List.not_mem_nil, forall_eq_or_imp,
      forall_eq, minimumValue, sequenceValue, List.foldl_cons, List.foldl_nil, leadBits, tailBits,
      Nat.isValidChar, UInt8.reduceToNat, Nat.reduceAdd, Nat.reduceSub, Nat.pow_eq, Nat.reducePow]
    omega

/-- The sequences of one byte are the ASCII bytes. -/
theorem isTableSequence_singleton {lead : UInt8} :
    isTableSequence [lead] = true ↔ lead.toNat < 0x80 := by
  unfold isTableSequence sequenceTable
  simp only [List.any_cons, List.any_nil, Bool.or_eq_true, fitsRow_cons, fitsRow_nil,
    fitsRow_cons_nil, Bool.false_eq_true, and_false, and_true, or_false, UInt8.reduceToNat]
  omega

/-- **The sequences of the table are the encodings of single characters.** -/
theorem isTableSequence_iff {bytes : List UInt8} :
    isTableSequence bytes = true ↔ ∃ c, encodeChar c = bytes := by
  -- no byte, one byte, and several bytes, which have to spell a character
  match bytes with
  | [] =>
    constructor
    · intro h
      cases h
    · rintro ⟨c, hc⟩
      exact absurd hc (encodeChar_ne_nil c)
  | [lead] =>
    rw [isTableSequence_singleton]
    constructor
    · intro h
      exact ⟨charOfByte lead, encodeChar_charOfByte h⟩
    · rintro ⟨c, hc⟩
      rcases encodeChar_iff.mp hc with ⟨hlt, -, -⟩ | ⟨k, hs⟩
      · exact hlt
      · exact absurd rfl hs.tail_ne_nil
  | lead :: a :: tail =>
    rw [isTableSequence_iff_spells (List.cons_ne_nil a tail)]
    constructor
    · rintro ⟨k, c, hs⟩
      exact ⟨c, hs.encodeChar_eq⟩
    · rintro ⟨c, hc⟩
      rcases encodeChar_iff.mp hc with ⟨-, hnil, -⟩ | ⟨k, hs⟩
      · cases hnil
      · exact ⟨k, c, hs⟩

/-- A surrogate has no sequence. -/
example : isTableSequence [0xED, 0xA0, 0x80] = false := by decide

-- ---------------------------------------------------------------------------
-- Concatenations
-- ---------------------------------------------------------------------------

/-- Well-formed bytes are the encodings of texts: the characters of the text are those of the
sequences. -/
theorem wellFormed_iff_encode {bytes : List UInt8} : WellFormed bytes ↔ ∃ t, encode t = bytes := by
  constructor
  · rintro ⟨sequences, hall, rfl⟩
    -- each sequence gives one character of the text
    induction sequences with
    | nil => exact ⟨[], rfl⟩
    | cons s sequences ih =>
      obtain ⟨c, hc⟩ := isTableSequence_iff.mp (hall s (List.mem_cons_self ..))
      obtain ⟨t, ht⟩ := ih fun s' hs' => hall s' (List.mem_cons_of_mem _ hs')
      exact ⟨c :: t, by rw [encode_cons, hc, ht, List.flatten_cons]⟩
  · rintro ⟨t, rfl⟩
    refine ⟨t.map encodeChar, ?_, rfl⟩
    intro s hs
    obtain ⟨c, -, hc⟩ := List.mem_map.mp hs
    exact isTableSequence_iff.mpr ⟨c, hc⟩

/-- **Strict decoding accepts exactly the well-formed bytes.** -/
theorem exists_decodeStrict_iff_wellFormed (bytes : List UInt8) :
    (∃ t, (decodeStrict bytes).value = .ok t) ↔ WellFormed bytes := by
  rw [wellFormed_iff_encode]
  constructor
  · rintro ⟨t, ht⟩
    exact ⟨t, encode_of_decodeStrict ht⟩
  · rintro ⟨t, rfl⟩
    exact ⟨t, decodeStrict_encode t⟩

end BlockExplorer
