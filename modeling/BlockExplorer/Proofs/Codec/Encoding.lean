import BlockExplorer.Proofs.Codec.Bits
import Mathlib.Algebra.GroupWithZero.Nat
import Mathlib.Data.List.Forall2

/-!
# BlockExplorer — the encoding is standard UTF-8

The encoder divides a code point by powers of two and chooses the number of
bytes by a range. That this is UTF-8 is said twice: the bytes of a character are
the one shortest form of its code point, markers and binary digits, and they are
the bytes that Lean's own strings have. A form of several bytes that is not too
long spells its character (`spells_of_isForm`), and to be too long is to carry
less than the smallest value for its length, since every form of `k` bytes is
below the smallest value for `k + 1` (`lt_minimumValue_of_isForm`).

Main results:

* `isShortestForm_iff` — the bytes of a character are its only shortest form.
* `encode_isShortest_and_appends` — a text is encoded by the shortest forms of
  its characters in order, behind what a buffer holds, and with as many bytes as
  its characters take.
-/

namespace BlockExplorer

-- ---------------------------------------------------------------------------
-- Forms
-- ---------------------------------------------------------------------------

/-- One byte is a form of the ASCII code points, each of its own. -/
theorem isForm_singleton_iff {n : Nat} {lead : UInt8} :
    IsForm n [lead] ↔ lead.toNat < 0x80 ∧ lead.toNat = n := by
  -- no leading one means below the marker of continuation bytes
  have hones : onesRun lead = 0 ↔ lead.toNat < 0x80 := by
    rw [onesRun_eq, leadingOnes_eq_iff (by decide)]
    simp only [Nat.sub_zero, Nat.pow_eq, Nat.reducePow]
    omega
  have hvalue : payload 0 lead [] = lead.toNat % 0x80 := payload_eq 0 lead []
  constructor
  · rintro ⟨lead', tail, heq, -, hrun, -, hpayload⟩
    obtain ⟨rfl, rfl⟩ := List.cons.inj heq
    rw [if_pos rfl] at hrun
    rw [hrun, hvalue] at hpayload
    have hlt := hones.mp hrun
    omega
  · rintro ⟨hlt, rfl⟩
    have hrun := hones.mpr hlt
    refine ⟨lead, [], rfl, Nat.zero_le 3, hrun, fun _ h => absurd h List.not_mem_nil, ?_⟩
    rw [hrun, hvalue]
    omega

/-- A form of several bytes, in the terms of the decoders. -/
theorem isForm_cons_iff {n : Nat} {lead : UInt8} {tail : List UInt8} (htail : tail ≠ []) :
    IsForm n (lead :: tail) ↔
      tail.length ≤ 3 ∧ announcedLength lead = some (tail.length + 1) ∧
      (∀ byte ∈ tail, isContinuation byte = true) ∧
      sequenceValue (tail.length + 1) lead tail = n := by
  have hpos := List.length_pos_iff.mpr htail
  have hannounced : tail.length ≤ 3 →
      (announcedLength lead = some (tail.length + 1) ↔ onesRun lead = tail.length + 1) := by
    intro hlen
    rw [announcedLength_eq_some_iff, ← onesRun_eq]
    omega
  constructor
  · rintro ⟨lead', tail', heq, hlen, hrun, hcontinued, hpayload⟩
    obtain ⟨rfl, rfl⟩ := List.cons.inj heq
    rw [if_neg htail] at hrun
    rw [hrun, payload_eq] at hpayload
    exact ⟨hlen, (hannounced hlen).mpr hrun,
      fun byte hbyte => isContinuation_iff_onesRun.mpr (hcontinued byte hbyte), hpayload⟩
  · rintro ⟨hlen, hlead, hcontinued, hvalue⟩
    have hrun := (hannounced hlen).mp hlead
    refine ⟨lead, tail, rfl, hlen, ?_, ?_, ?_⟩
    · rw [if_neg htail]
      exact hrun
    · intro byte hbyte
      exact isContinuation_iff_onesRun.mp (hcontinued byte hbyte)
    · rw [hrun, payload_eq]
      exact hvalue

theorem length_of_isForm {n : Nat} {bytes : List UInt8} (h : IsForm n bytes) :
    1 ≤ bytes.length ∧ bytes.length ≤ 4 := by
  obtain ⟨lead, tail, rfl, hlen, -⟩ := h
  rw [List.length_cons]
  omega

/-- A byte more is needed for the numbers that no form of `k` bytes carries. -/
theorem lt_minimumValue_of_isForm {n : Nat} {bytes : List UInt8} (h : IsForm n bytes)
    (hlen : bytes.length < 4) : n < minimumValue (bytes.length + 1) := by
  match bytes with
  | [] =>
    have hpos := (length_of_isForm h).1
    rw [List.length_nil] at hpos
    omega
  | [lead] =>
    obtain ⟨hlt, rfl⟩ := isForm_singleton_iff.mp h
    exact hlt
  | [lead, a] =>
    obtain ⟨-, -, -, rfl⟩ := (isForm_cons_iff (List.cons_ne_nil a [])).mp h
    have hlt := sequenceValue_lt 2 lead [a]
    simpa [minimumValue] using hlt
  | [lead, a, b] =>
    obtain ⟨-, -, -, rfl⟩ := (isForm_cons_iff (List.cons_ne_nil a [b])).mp h
    have hlt := sequenceValue_lt 3 lead [a, b]
    simpa [minimumValue] using hlt
  | _ :: _ :: _ :: _ :: tail =>
    simp only [List.length_cons] at hlen
    omega

-- ---------------------------------------------------------------------------
-- The form of a character
-- ---------------------------------------------------------------------------

/-- The encoder writes a form of the code point. -/
theorem isForm_encodeChar (c : Char) : IsForm c.toNat (encodeChar c) := by
  rcases encodeChar_cases c with ⟨lead, hlt, rfl, henc⟩ | ⟨k, lead, tail, hs, henc⟩
  · rw [henc, isForm_singleton_iff]
    exact ⟨hlt, (toNat_charOfByte lead).symm⟩
  · have hlen := hs.complete
    have h4 := hs.le_four
    rw [henc, isForm_cons_iff hs.tail_ne_nil, hlen]
    exact ⟨by omega, hs.announced, hs.continued, hs.value⟩

/-- The number of bytes of a character, by the smallest values. -/
theorem minimumValue_le_iff {c : Char} {k : Nat} (h2 : 2 ≤ k) (h4 : k ≤ 4) :
    minimumValue k ≤ c.toNat ↔ k ≤ encodedLength c := by
  unfold encodedLength
  match k, h2, h4 with
  | 2, _, _ | 3, _, _ | 4, _, _ =>
    unfold minimumValue
    grind

/-- A form of several bytes that is no longer than the encoding spells the character. -/
theorem spells_of_isForm {c : Char} {lead : UInt8} {tail : List UInt8} (htail : tail ≠ [])
    (h : IsForm c.toNat (lead :: tail)) (hlen : tail.length + 1 ≤ encodedLength c) :
    Spells (tail.length + 1) lead tail c := by
  have hpos := List.length_pos_iff.mpr htail
  obtain ⟨h3, hlead, hcontinued, hvalue⟩ := (isForm_cons_iff htail).mp h
  exact ⟨hlead, by omega, by omega, rfl, hcontinued,
    (minimumValue_le_iff (by omega) (by omega)).mpr hlen, hvalue⟩

/-- No form of a code point is shorter than the encoding. -/
theorem encodedLength_le_of_isForm {c : Char} {bytes : List UInt8} (h : IsForm c.toNat bytes) :
    encodedLength c ≤ bytes.length := by
  obtain ⟨hpos, hle⟩ := length_of_isForm h
  by_contra hlt
  have h4 : encodedLength c ≤ 4 := by
    rw [← length_encodeChar]
    exact (length_of_isForm (isForm_encodeChar c)).2
  -- a character with more bytes has the smallest value for one byte more, and the form is below it
  have hbelow := lt_minimumValue_of_isForm h (by omega)
  have habove : minimumValue (bytes.length + 1) ≤ c.toNat :=
    (minimumValue_le_iff (by omega) (by omega)).mpr (by omega)
  omega

/-- **The bytes of a character are the shortest form of its code point**, and it has no other. -/
theorem isShortestForm_iff {c : Char} {bytes : List UInt8} :
    IsShortestForm c.toNat bytes ↔ encodeChar c = bytes := by
  constructor
  · rintro ⟨hform, hshortest⟩
    have hle : bytes.length ≤ encodedLength c := by
      rw [← length_encodeChar]
      exact hshortest _ (isForm_encodeChar c)
    -- a shortest form is no longer than the encoding, so it spells the character
    match bytes with
    | [] =>
      have hpos := (length_of_isForm hform).1
      rw [List.length_nil] at hpos
      omega
    | [lead] =>
      obtain ⟨hlt, hvalue⟩ := isForm_singleton_iff.mp hform
      have hc : charOfByte lead = c := by
        rw [← Char.toNat_inj, toNat_charOfByte, hvalue]
      rw [← hc, encodeChar_charOfByte hlt]
    | lead :: a :: tail =>
      exact (spells_of_isForm (List.cons_ne_nil a tail) hform hle).encodeChar_eq
  · rintro rfl
    refine ⟨isForm_encodeChar c, fun other hother => ?_⟩
    rw [length_encodeChar]
    exact encodedLength_le_of_isForm hother

/-- A form of `U+0000` that is not its shortest. -/
example : IsForm 0 [0xC0, 0x80] :=
  ⟨0xC0, [0x80], rfl, by decide, by decide, List.forall_mem_singleton.mpr (by decide), by decide⟩

/-- The encoder writes the bytes that a string has for the character. -/
theorem encodeChar_eq_utf8EncodeChar (c : Char) : encodeChar c = String.utf8EncodeChar c := by
  have hlt := toNat_lt_of_char c
  have hval : c.val.toNat = c.toNat := rfl
  -- both sides divide by the same powers, in the same four ranges
  unfold encodeChar continuationByte
  rw [String.utf8EncodeChar, hval]
  grind

-- ---------------------------------------------------------------------------
-- Texts
-- ---------------------------------------------------------------------------

/-- A buffer keeps what it holds and gets the bytes of the text behind it. -/
theorem toList_encodeInto (t : Text) (buffer : Array UInt8) :
    (encodeInto t buffer).toList = buffer.toList ++ encode t := by
  unfold encodeInto
  induction t generalizing buffer with
  | nil => simp
  | cons c t ih =>
    rw [List.foldl_cons, ih, encode_cons, ← List.append_assoc]
    simp

/-- The shortest forms of the characters of a text are their encodings. -/
theorem forall₂_isShortestForm_iff {t : Text} {forms : List (List UInt8)} :
    List.Forall₂ (fun c form => IsShortestForm c.toNat form) t forms ↔
      t.map encodeChar = forms := by
  simp only [isShortestForm_iff]
  rw [← List.forall₂_map_left_iff (R := Eq), List.forall₂_eq_eq_eq]

theorem byteLength_eq_sum (t : Text) : byteLength t = (t.map encodedLength).sum := by
  induction t with
  | nil => rfl
  | cons c t ih => rw [byteLength, ih, List.map_cons, List.sum_cons]

/-- **The encoding of a text is standard UTF-8.** It is made of the shortest forms of the
characters in their order, and it is what a string of the same characters has as its bytes; it is
put behind what a buffer holds; it goes along with concatenation, and its length is that of the
characters together. -/
theorem encode_isShortest_and_appends (t u : Text) (bytes : List UInt8) (buffer : Array UInt8) :
    (encode t = bytes ↔ ∃ forms, List.Forall₂ (fun c form => IsShortestForm c.toNat form) t forms ∧
      forms.flatten = bytes) ∧
    (String.ofList t).toUTF8 = (encode t).toByteArray ∧
    (encodeInto t buffer).toList = buffer.toList ++ encode t ∧
    encode (t ++ u) = encode t ++ encode u ∧
    (encode t).length = (t.map encodedLength).sum := by
  refine ⟨?_, ?_, toList_encodeInto t buffer, encode_append t u, ?_⟩
  · constructor
    · rintro rfl
      exact ⟨t.map encodeChar, forall₂_isShortestForm_iff.mpr rfl, rfl⟩
    · rintro ⟨forms, hforms, rfl⟩
      rw [← forall₂_isShortestForm_iff.mp hforms]
      rfl
  · have hbytes : encode t = t.flatMap String.utf8EncodeChar := by
      rw [← funext encodeChar_eq_utf8EncodeChar]
      rfl
    rw [hbytes]
    rfl
  · rw [length_encode, byteLength_eq_sum]

end BlockExplorer
