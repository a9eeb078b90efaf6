import BlockExplorer.Proofs.Codec.Encoding
import BlockExplorer.Proofs.Codec.RoundTrip
import BlockExplorer.Text.Basic
import Mathlib.Data.List.Lex

/-!
# BlockExplorer — encoding and order

Encoded texts compare as the texts do: byte by byte in the one order, code point
by code point in the other, and a text is the front of another exactly when its
bytes are the front of the other's bytes. So whoever sorts texts by their bytes
has sorted them by code points.

Two characters are told apart within their bytes, whatever is behind these
(`AlwaysBefore`). A longer sequence has the greater first byte
(`toNat_lt_of_announced`). In two sequences of one length the first byte carries
the highest bits of the code point and every byte the bits below, so that the
first difference between the bytes decides between the code points
(`alwaysBefore_of_foldl_lt`).

Main results:

* `alwaysBefore_encodeChar` — a smaller character has the smaller bytes.
* `bytesBefore_encode_iff_and_prefix_iff` — order and fronts of texts are those
  of their encodings.
-/

namespace BlockExplorer

-- ---------------------------------------------------------------------------
-- The order of byte sequences
-- ---------------------------------------------------------------------------

/-- The first bytes come before the second: the byte at the first difference is smaller, or the
first end where the second go on. -/
def BytesBefore (xs ys : List UInt8) : Prop :=
  List.Lex (fun x y : UInt8 => x.toNat < y.toNat) xs ys

instance : DecidableRel BytesBefore := fun xs ys =>
  inferInstanceAs (Decidable (List.Lex (fun x y : UInt8 => x.toNat < y.toNat) xs ys))

theorem not_bytesBefore_self (xs : List UInt8) : ¬ BytesBefore xs xs :=
  List.lex_irrefl (fun x : UInt8 => Nat.lt_irrefl x.toNat) xs

theorem BytesBefore.not_symm {xs ys : List UInt8} (h : BytesBefore xs ys) :
    ¬ BytesBefore ys xs := fun h' =>
  not_bytesBefore_self xs (List.lex_trans (fun h₁ h₂ => Nat.lt_trans h₁ h₂) h h')

/-- The first bytes come before the second, and they do so whatever is put behind either. -/
def AlwaysBefore (xs ys : List UInt8) : Prop :=
  ∀ rest rest', BytesBefore (xs ++ rest) (ys ++ rest')

theorem alwaysBefore_of_lt {x y : UInt8} (h : x.toNat < y.toNat) (xs ys : List UInt8) :
    AlwaysBefore (x :: xs) (y :: ys) := fun _ _ => .rel h

theorem AlwaysBefore.cons {xs ys : List UInt8} (h : AlwaysBefore xs ys) (byte : UInt8) :
    AlwaysBefore (byte :: xs) (byte :: ys) := fun rest rest' => .cons (h rest rest')

-- ---------------------------------------------------------------------------
-- Sequences
-- ---------------------------------------------------------------------------

/-- What the bytes so far have decided, no further bytes change. -/
theorem foldl_tailBits_lt_foldl {v w : Nat} {xs ys : List UInt8} (hlen : xs.length = ys.length)
    (h : v < w) :
    xs.foldl (fun value byte => value * 0x40 + tailBits byte) v <
      ys.foldl (fun value byte => value * 0x40 + tailBits byte) w := by
  calc xs.foldl (fun value byte => value * 0x40 + tailBits byte) v
      < (v + 1) * Nat.pow 0x40 xs.length := foldl_tailBits_lt xs v
    _ ≤ w * Nat.pow 0x40 ys.length := by
      rw [hlen]
      exact Nat.mul_le_mul_right _ h
    _ ≤ ys.foldl (fun value byte => value * 0x40 + tailBits byte) w := le_foldl_tailBits ys w

/-- Bytes `x` and `y` that compare as the values do with which they begin to gather, and further
bytes as many behind the one as behind the other: the smaller number has the smaller bytes. -/
theorem alwaysBefore_of_foldl_lt {x y : UInt8} {v w : Nat} {xs ys : List UInt8}
    (hlt : v < w → x.toNat < y.toNat) (heq : v = w → x = y) (hlen : xs.length = ys.length)
    (hxs : ∀ byte ∈ xs, isContinuation byte = true)
    (hys : ∀ byte ∈ ys, isContinuation byte = true)
    (h : xs.foldl (fun value byte => value * 0x40 + tailBits byte) v <
      ys.foldl (fun value byte => value * 0x40 + tailBits byte) w) :
    AlwaysBefore (x :: xs) (y :: ys) := by
  induction xs generalizing x y v w ys with
  | nil =>
    obtain rfl := List.length_eq_zero_iff.mp hlen.symm
    exact alwaysBefore_of_lt (hlt h) [] []
  | cons a xs ih =>
    obtain ⟨b, ys, rfl⟩ := List.exists_cons_of_length_eq_add_one hlen.symm
    rw [List.forall_mem_cons] at hxs hys
    -- the values so far decide, unless they are the same
    rcases Nat.lt_trichotomy v w with hvw | hvw | hvw
    · exact alwaysBefore_of_lt (hlt hvw) _ _
    · -- the bytes are the same, and the next ones compare as the values that they lead to
      have ha := isContinuation_iff.mp hxs.1
      have hb := isContinuation_iff.mp hys.1
      obtain rfl := heq hvw
      refine (ih (v := v * 0x40 + tailBits a) (w := w * 0x40 + tailBits b) ?_ ?_
        (Nat.succ.inj hlen) hxs.2 hys.2 h).cons x
      · intro hnext
        omega
      · intro hnext
        exact UInt8.toNat_inj.mp (by omega)
    · exact absurd h (Nat.lt_asymm (foldl_tailBits_lt_foldl hlen.symm hvw))

/-- A byte that announces more has more leading ones, and so it is greater. -/
theorem toNat_lt_of_announced {j k : Nat} {x y : UInt8} (hj : announcedLength x = some j)
    (hk : announcedLength y = some k) (h : j < k) : x.toNat < y.toNat := by
  obtain ⟨-, hj7, hx⟩ := announcedLength_eq_some_iff.mp hj
  obtain ⟨-, hk7, hy⟩ := announcedLength_eq_some_iff.mp hk
  rw [leadingOnes_eq_iff hj7] at hx
  rw [leadingOnes_eq_iff hk7] at hy
  -- the marker of `y` is no smaller than the first byte behind the markers of length `j`
  have hpow : Nat.pow 2 (8 - k) ≤ Nat.pow 2 (7 - j) :=
    Nat.pow_le_pow_right (by decide) (by omega)
  omega

/-- Of two sequences of one length that of the smaller character comes first. -/
theorem Spells.alwaysBefore {k : Nat} {x y : UInt8} {xs ys : List UInt8} {c d : Char}
    (hc : Spells k x xs c) (hd : Spells k y ys d) (h : c.toNat < d.toNat) :
    AlwaysBefore (x :: xs) (y :: ys) := by
  have hx := toNat_of_announced hc.announced
  have hy := toNat_of_announced hd.announced
  have hlen : xs.length = ys.length := Nat.succ.inj (hc.complete.trans hd.complete.symm)
  -- two markers of one length leave the payloads to compare
  refine alwaysBefore_of_foldl_lt (v := leadBits k x) (w := leadBits k y) ?_ ?_ hlen hc.continued
    hd.continued ?_
  · intro hbits
    omega
  · intro hbits
    exact UInt8.toNat_inj.mp (by omega)
  · calc sequenceValue k x xs = c.toNat := hc.value
      _ < d.toNat := h
      _ = sequenceValue k y ys := hd.value.symm

-- ---------------------------------------------------------------------------
-- Characters
-- ---------------------------------------------------------------------------

/-- A greater code point takes no fewer bytes. -/
theorem encodedLength_le_encodedLength {c d : Char} (h : c.toNat ≤ d.toNat) :
    encodedLength c ≤ encodedLength d := by
  unfold encodedLength
  grind

/-- **A smaller character has the smaller bytes**, and the bytes of neither run on into what is
behind them before the two differ. -/
theorem alwaysBefore_encodeChar {c d : Char} (h : c.toNat < d.toNat) :
    AlwaysBefore (encodeChar c) (encodeChar d) := by
  have hlen := encodedLength_le_encodedLength (Nat.le_of_lt h)
  rw [← length_encodeChar, ← length_encodeChar] at hlen
  rcases encodeChar_cases c with ⟨x, hx, rfl, hc⟩ | ⟨j, x, xs, hs, hc⟩
  · rcases encodeChar_cases d with ⟨y, hy, rfl, hd⟩ | ⟨k, y, ys, hs', hd⟩
    · rw [toNat_charOfByte, toNat_charOfByte] at h
      rw [hc, hd]
      exact alwaysBefore_of_lt h [] []
    · -- a byte that announces a length is above all of ASCII
      have hy : ¬ y.toNat < 0x80 := fun hlt => by
        have hnone := announcedLength_eq_none_iff.mpr (.inl hlt)
        rw [hs'.announced] at hnone
        cases hnone
      rw [hc, hd]
      exact alwaysBefore_of_lt (by omega) [] ys
  · rw [hc, List.length_cons, hs.complete] at hlen
    rcases encodeChar_cases d with ⟨y, hy, rfl, hd⟩ | ⟨k, y, ys, hs', hd⟩
    · have h2 := hs.two_le
      rw [hd, List.length_singleton] at hlen
      omega
    · rw [hd, List.length_cons, hs'.complete] at hlen
      rw [hc, hd]
      -- lengths that differ are told by the first byte, and the same length by the value
      rcases Nat.lt_or_eq_of_le hlen with hjk | rfl
      · exact alwaysBefore_of_lt (toNat_lt_of_announced hs.announced hs'.announced hjk) xs ys
      · exact hs.alwaysBefore hs' h

-- ---------------------------------------------------------------------------
-- Texts
-- ---------------------------------------------------------------------------

/-- Encoding keeps the order of texts. -/
theorem bytesBefore_encode_of_before {t u : Text} (h : Text.Before t u) :
    BytesBefore (encode t) (encode u) := by
  -- one case for a front, one for a first character in common, one for the first difference
  induction h with
  | @nil c u =>
    obtain ⟨lead, tail, hc⟩ := List.exists_cons_of_ne_nil (encodeChar_ne_nil c)
    rw [encode_nil, encode_cons, hc]
    exact .nil
  | @cons c t u _ ih =>
    rw [encode_cons, encode_cons]
    exact List.Lex.append_left _ ih (encodeChar c)
  | rel hlt =>
    rw [encode_cons, encode_cons]
    exact alwaysBefore_encodeChar hlt _ _

/-- What is read back from the bytes of a text begins with the text whose bytes are in front. -/
theorem prefix_of_encode_prefix {t u : Text} (h : encode t <+: encode u) : t <+: u := by
  obtain ⟨rest, hrest⟩ := h
  have hscan := scanStrict_encode 0 u
  rw [← hrest, scanStrict_encode_append] at hscan
  obtain ⟨v, -, hv⟩ := exceptMap_eq_ok_iff.mp hscan
  exact ⟨v, hv⟩

/-- **Encoding keeps order and fronts, in both directions.** One text comes before another by code
points exactly when its bytes come before the other's, and it is the front of the other exactly
when its bytes are. -/
theorem bytesBefore_encode_iff_and_prefix_iff (t u : Text) :
    (Text.Before t u ↔ BytesBefore (encode t) (encode u)) ∧
    (encode t <+: encode u ↔ t <+: u) := by
  refine ⟨⟨bytesBefore_encode_of_before, fun h => ?_⟩, prefix_of_encode_prefix, ?_⟩
  · -- texts are totally ordered, and the other two cases are no case for the bytes
    by_contra hnot
    by_cases heq : t = u
    · rw [heq] at h
      exact not_bytesBefore_self _ h
    · exact h.not_symm (bytesBefore_encode_of_before (Text.before_of_not_before hnot heq))
  · rintro ⟨v, rfl⟩
    rw [encode_append]
    exact List.prefix_append _ _

/-- The bytes also keep the order where pairs of surrogates would not. -/
example : BytesBefore (encode ['\uFFFD', 'b']) (encode ['😀', 'a']) := by decide

end BlockExplorer
