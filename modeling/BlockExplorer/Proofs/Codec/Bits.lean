import BlockExplorer.Codec.Bits
import BlockExplorer.Proofs.Codec.Sequence

/-!
# BlockExplorer — bits and remainders

The decoders count leading ones with comparisons and gather payloads with
remainders. On lists of bits the same things are the run of ones at the front of
a byte (`onesRun_eq`) and binary digits (`payload_eq`).
-/

namespace BlockExplorer

-- ---------------------------------------------------------------------------
-- Binary digits
-- ---------------------------------------------------------------------------

/-- Digits behind others: the value of those is moved up by the width. -/
theorem foldl_lowBits (width : Nat) (byte : UInt8) (value : Nat) :
    (lowBits width byte).foldl (fun value digit => value * 2 + digit.toNat) value =
      value * Nat.pow 2 width + byte.toNat % Nat.pow 2 width := by
  induction width generalizing value with
  | zero => simp [lowBits, Nat.mod_one]
  | succ width ih =>
    have hpow : Nat.pow 2 (width + 1) = Nat.pow 2 width * 2 := rfl
    -- the highest of the digits counts as much as all values that the lower ones can have
    have hmod : byte.toNat % Nat.pow 2 (width + 1) = byte.toNat % Nat.pow 2 width +
        Nat.pow 2 width * (byte.toNat.testBit width).toNat := by
      rw [hpow, Nat.mod_mul, Nat.toNat_testBit]
      rfl
    rw [lowBits, List.foldl_cons, ih, hmod, hpow, Nat.add_mul, Nat.mul_assoc value,
      Nat.mul_comm 2, Nat.mul_comm (Bool.toNat _)]
    omega

/-- The digits of further bytes move the value as the decoders do, by six places a byte. -/
theorem foldl_flatMap_lowBits (tail : List UInt8) (value : Nat) :
    (tail.flatMap (lowBits 6)).foldl (fun value digit => value * 2 + digit.toNat) value =
      tail.foldl (fun value byte => value * 0x40 + tailBits byte) value := by
  induction tail generalizing value with
  | nil => rfl
  | cons byte tail ih =>
    rw [List.flatMap_cons, List.foldl_append, foldl_lowBits, ih]
    rfl

/-- **The payload in binary digits is what the decoders gather.** -/
theorem payload_eq (ones : Nat) (lead : UInt8) (tail : List UInt8) :
    payload ones lead tail = sequenceValue ones lead tail := by
  rw [payload, ofBits, List.foldl_append, foldl_lowBits, foldl_flatMap_lowBits, Nat.zero_mul,
    Nat.zero_add]
  rfl

/-- Six bits a byte leave the value below the next multiple of the power of `0x40` that they fill.
-/
theorem foldl_tailBits_lt (tail : List UInt8) (value : Nat) :
    tail.foldl (fun value byte => value * 0x40 + tailBits byte) value <
      (value + 1) * Nat.pow 0x40 tail.length := by
  induction tail generalizing value with
  | nil =>
    show value < (value + 1) * 1
    omega
  | cons byte tail ih =>
    -- the induction is on the bytes from the front, with the value so far as the start
    have hbyte := tailBits_lt byte
    calc tail.foldl (fun value byte => value * 0x40 + tailBits byte) (value * 0x40 + tailBits byte)
        < (value * 0x40 + tailBits byte + 1) * Nat.pow 0x40 tail.length := ih _
      _ ≤ (value + 1) * 0x40 * Nat.pow 0x40 tail.length := Nat.mul_le_mul_right _ (by omega)
      _ = (value + 1) * (Nat.pow 0x40 tail.length * 0x40) := by
        rw [Nat.mul_assoc, Nat.mul_comm 0x40]

/-- What stood before the further bytes is moved up by six places for each, and nothing is taken
away. -/
theorem le_foldl_tailBits (tail : List UInt8) (value : Nat) :
    value * Nat.pow 0x40 tail.length ≤
      tail.foldl (fun value byte => value * 0x40 + tailBits byte) value := by
  induction tail generalizing value with
  | nil =>
    show value * 1 ≤ value
    omega
  | cons byte tail ih =>
    calc value * (Nat.pow 0x40 tail.length * 0x40)
        = value * 0x40 * Nat.pow 0x40 tail.length := by
          rw [Nat.mul_comm (Nat.pow 0x40 tail.length), Nat.mul_assoc]
      _ ≤ (value * 0x40 + tailBits byte) * Nat.pow 0x40 tail.length :=
        Nat.mul_le_mul_right _ (Nat.le_add_right _ _)
      _ ≤ tail.foldl (fun value byte => value * 0x40 + tailBits byte)
          (value * 0x40 + tailBits byte) := ih _

/-- A sequence has room for `7 - k` bits in its first byte and for six in every other. -/
theorem sequenceValue_lt (k : Nat) (lead : UInt8) (tail : List UInt8) :
    sequenceValue k lead tail < Nat.pow 2 (7 - k) * Nat.pow 0x40 tail.length :=
  Nat.lt_of_lt_of_le (foldl_tailBits_lt tail _) (Nat.mul_le_mul_right _ (leadBits_lt k lead))

-- ---------------------------------------------------------------------------
-- Runs of ones
-- ---------------------------------------------------------------------------

/-- The thresholds up to a byte are as many as the ones that it begins with. -/
theorem onesRun_eq (byte : UInt8) : onesRun byte = leadingOnes byte := by
  -- there are only 256 bytes
  have hall : ∀ n < 0x100, onesRun (UInt8.ofNat n) = leadingOnes (UInt8.ofNat n) := by
    decide +kernel
  have hbyte := hall byte.toNat byte.toNat_lt
  rwa [UInt8.ofNat_toNat] at hbyte

/-- A byte opens a run when it announces a length, and this is the length of the run. -/
theorem opensRun_iff {lead : UInt8} :
    opensRun lead = true ↔ announcedLength lead = some (onesRun lead) := by
  rw [announcedLength_eq_some_iff, onesRun_eq, opensRun, onesRun_eq]
  simp

/-- The announced length is the number of ones that a byte begins with, if a zero ends them. -/
theorem announcedLength_eq_some_iff_onesRun {lead : UInt8} {k : Nat} :
    announcedLength lead = some k ↔ opensRun lead = true ∧ onesRun lead = k := by
  rw [announcedLength_eq_some_iff, opensRun, onesRun_eq]
  simp only [Bool.and_eq_true, decide_eq_true_eq]
  omega

/-- A byte announces nothing when it begins with a zero, and when it has no zero. -/
theorem announcedLength_eq_none_iff_opensRun {lead : UInt8} :
    announcedLength lead = none ↔ opensRun lead = false := by
  rw [← Bool.not_eq_true, opensRun_iff]
  cases h : announcedLength lead with
  | none => simp
  | some k => simp [(announcedLength_eq_some_iff_onesRun.mp h).2]

/-- A further byte is marked by one one and a zero. -/
theorem isContinuation_iff_onesRun {byte : UInt8} :
    isContinuation byte = true ↔ onesRun byte = 1 := by
  rw [onesRun_eq, leadingOnes_eq_iff (by decide), isContinuation_iff]
  unfold tailBits
  simp only [Nat.reduceSub, Nat.pow_eq, Nat.reducePow]
  omega

end BlockExplorer
