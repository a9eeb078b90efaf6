import BlockExplorer.Codec.WellFormed
import BlockExplorer.Proofs.Codec.Bits
import BlockExplorer.Proofs.Codec.RoundTrip
import Mathlib.Logic.ExistsUnique

/-!
# BlockExplorer — the errors of strict decoding

Strict decoding fails at the first sequence that is at fault, and its error says
which of the faults that is. Reading one sequence of an announced length fails
with the fault that it has (`readSequence_of_fault`), and with nothing else
(`fault_of_readSequence`). The bytes before it are the encoding of a text, and no
character at all is encoded by the bytes that a fault starts with
(`not_encodeChar_of_fault`), so that nothing longer is accepted.

Main results:

* `scanStrict_of_fault`, `exists_fault_of_scanStrict` — the scan fails with the
  fault of its first sequence, and wherever it fails a sequence is at fault.
* `decodeStrict_eq_error_iff_fault` — the error of strict decoding is the fault
  behind the longest part that it accepts, and there is one such part.
-/

namespace BlockExplorer

-- ---------------------------------------------------------------------------
-- The terms of the decoder
-- ---------------------------------------------------------------------------

/-- The bytes behind a first one are the continuation bytes of the decoder. -/
theorem isTail_iff {byte : UInt8} : IsTail byte ↔ isContinuation byte = true := by
  -- both say that the byte is its six bits plus `0x80`
  rw [isContinuation_iff]
  unfold IsTail tailBits
  omega

/-- The ranges of first bytes are the announced lengths that the decoder takes. -/
theorem announces_iff {lead : UInt8} {k smallest : Nat} :
    Announces lead k smallest ↔
      announcedLength lead = some k ∧ 2 ≤ k ∧ k ≤ 4 ∧ smallest = minimumValue k := by
  constructor
  · rintro (⟨low, high⟩ | ⟨low, high⟩ | ⟨low, high⟩)
    all_goals
      rw [announcedLength_eq_some_iff, leadingOnes_eq_iff (by decide)]
      simp only [Nat.reduceSub, Nat.pow_eq, Nat.reducePow, minimumValue, and_true]
      omega
  · rintro ⟨hlead, h2, h4, rfl⟩
    rw [announcedLength_eq_some_iff] at hlead
    obtain ⟨-, h7, hones⟩ := hlead
    rw [leadingOnes_eq_iff h7] at hones
    -- the range of the marker is that of the first bytes, length by length
    match k, h2, h4 with
    | 2, _, _ | 3, _, _ | 4, _, _ =>
      simp only [Nat.reduceSub, Nat.pow_eq, Nat.reducePow] at hones
      constructor <;> omega

theorem Announces.eq {lead : UInt8} {k l smallest least : Nat} (h : Announces lead k smallest)
    (h' : Announces lead l least) : k = l ∧ smallest = least := by
  cases h <;> cases h' <;> omega

/-- Up to an index behind the first byte the bytes are continuation bytes. -/
theorem continued_succ_iff {n : Nat} {lead : UInt8} {tail : List UInt8} :
    Continued (n + 1) (lead :: tail) ↔ ∀ byte ∈ tail.take n, isContinuation byte = true := by
  constructor
  · intro h byte hbyte
    obtain ⟨i, hi⟩ := List.mem_iff_getElem?.mp hbyte
    rw [List.getElem?_take] at hi
    split at hi
    · next hlt => exact isTail_iff.mp (h (i + 1) byte (by omega) (by omega) hi)
    · cases hi
  · intro h i byte hpos hlt hbyte
    obtain ⟨j, rfl⟩ := Nat.exists_eq_add_of_le' hpos
    refine isTail_iff.mpr (h byte (List.mem_iff_getElem?.mpr ⟨j, ?_⟩))
    rw [List.getElem?_take, if_pos (by omega)]
    exact hbyte

/-- Inside a sequence of `k` bytes there are `k - 1` behind the first. -/
theorem continued_iff {k : Nat} (hk : 1 ≤ k) {lead : UInt8} {tail : List UInt8} :
    Continued k (lead :: tail) ↔ ∀ byte ∈ tail.take (k - 1), isContinuation byte = true := by
  obtain ⟨n, rfl⟩ := Nat.exists_eq_add_of_le' hk
  exact continued_succ_iff

/-- The values of which no character comes, once they are no smaller than the length asks for. -/
theorem isOutside_iff {k : Nat} {lead : UInt8} {tail : List UInt8} (h2 : 2 ≤ k) (h4 : k ≤ 4)
    (hlen : tail.length = k - 1) (hneeded : minimumValue k ≤ sequenceValue k lead tail) :
    IsOutside k (sequenceValue k lead tail) ↔ scalar? (sequenceValue k lead tail) = none := by
  have hlt := sequenceValue_lt k lead tail
  rw [scalar?_eq_none_iff]
  unfold IsOutside Nat.isValidChar
  rw [hlen] at hlt
  -- two bytes have no room for a surrogate, and three have none for a number above the code points
  match k, h2, h4 with
  | 2, _, _ | 3, _, _ | 4, _, _ =>
    simp only [Nat.reduceSub, Nat.pow_eq, Nat.reducePow, Nat.reduceMul, minimumValue] at hlt hneeded
    omega

-- ---------------------------------------------------------------------------
-- Reading one sequence
-- ---------------------------------------------------------------------------

section OneSequence

variable {offset k : Nat} {lead : UInt8} {tail : List UInt8}

/-- A sequence without a bad byte is judged by its length and then by its value. -/
theorem readSequence_of_continued
    (h : ∀ byte ∈ tail.take (k - 1), isContinuation byte = true) :
    readSequence offset k lead tail =
      if (tail.take (k - 1)).length + 1 < k then
        .error (.truncated offset k ((tail.take (k - 1)).length + 1))
      else if sequenceValue k lead (tail.take (k - 1)) < minimumValue k then
        .error (.overlong offset (sequenceValue k lead (tail.take (k - 1))))
      else
        (scalar? (sequenceValue k lead (tail.take (k - 1)))).elim
          (.error (.invalidCodePoint offset (sequenceValue k lead (tail.take (k - 1))))) .ok := by
  have hnone : (tail.take (k - 1)).findIdx? (fun byte => !isContinuation byte) = none := by
    rw [List.findIdx?_eq_none_iff]
    intro byte hbyte
    rw [h byte hbyte]
    rfl
  unfold readSequence
  simp only [hnone]
  cases scalar? (sequenceValue k lead (tail.take (k - 1))) <;> rfl

/-- The first bad byte is the error, whatever else is wrong. -/
theorem readSequence_of_bad {i : Nat} {byte : UInt8} (hi : i < k - 1)
    (hbyte : tail[i]? = some byte) (hbad : isContinuation byte = false)
    (hbefore : ∀ byte ∈ tail.take i, isContinuation byte = true) :
    readSequence offset k lead tail = .error (.invalidContinuation (offset + 1 + i) byte) := by
  obtain ⟨hlt, hget⟩ := List.getElem?_eq_some_iff.mp hbyte
  have htake : (tail.take (k - 1))[i]? = some byte := by
    rw [List.getElem?_take, if_pos hi, hbyte]
  -- the index is the first at fault among the bytes that are looked at
  have hfind : (tail.take (k - 1)).findIdx? (fun byte => !isContinuation byte) = some i := by
    rw [List.findIdx?_eq_some_iff_getElem]
    refine ⟨by rw [List.length_take]; omega, ?_, fun j hj => ?_⟩
    · rw [List.getElem_take, hget, hbad]
      rfl
    · have hgood := hbefore tail[j] (List.mem_take_iff_getElem.mpr ⟨j, by omega, rfl⟩)
      rw [List.getElem_take, hgood]
      exact Bool.false_ne_true
  unfold readSequence
  simp only [hfind, List.getD_eq_getElem?_getD, htake, Option.getD_some]

/-- There is a first bad byte below an index, or there is none. -/
theorem exists_bad_or_continued (n : Nat) (tail : List UInt8) :
    (∃ i byte, i < n ∧ tail[i]? = some byte ∧ isContinuation byte = false ∧
      ∀ byte ∈ tail.take i, isContinuation byte = true) ∨
    ∀ byte ∈ tail.take n, isContinuation byte = true := by
  cases hfind : (tail.take n).findIdx? (fun byte => !isContinuation byte) with
  | none =>
    right
    simpa using List.findIdx?_eq_none_iff.mp hfind
  | some i =>
    obtain ⟨hlt, hbad, hbefore⟩ := List.findIdx?_eq_some_iff_getElem.mp hfind
    have hlen := hlt
    rw [List.length_take] at hlen
    rw [List.getElem_take] at hbad
    refine .inl ⟨i, tail[i], by omega, List.getElem?_eq_getElem _, by simpa using hbad, ?_⟩
    intro byte hbyte
    obtain ⟨j, hj, rfl⟩ := List.mem_take_iff_getElem.mp hbyte
    have hgood := hbefore j (by omega)
    rw [List.getElem_take] at hgood
    simpa using hgood

/-- Reading a sequence of an announced length fails with the fault that it has. -/
theorem readSequence_of_fault {smallest : Nat} {e : CodecError} (hk : Announces lead k smallest)
    (h : SequenceFault offset lead tail e) : readSequence offset k lead tail = .error e := by
  obtain ⟨-, h2, h4, -⟩ := announces_iff.mp hk
  -- a fault of the first byte alone is none of an announced length; the others are found in the
  -- order of the checks
  cases h with
  | unexpectedContinuation hlead =>
    unfold IsTail at hlead
    cases hk <;> omega
  | invalidLeadingByte hlead => cases hk <;> omega
  | invalidContinuation hlead hfirst hwithin hbyte hfault hbefore =>
    obtain ⟨rfl, rfl⟩ := hk.eq hlead
    obtain ⟨i, rfl⟩ := Nat.exists_eq_add_of_le' hfirst
    rw [isTail_iff, Bool.not_eq_true] at hfault
    rw [readSequence_of_bad (i := i) (by omega) hbyte hfault (continued_succ_iff.mp hbefore),
      Nat.add_assoc, Nat.add_comm 1]
  | truncated hlead hcontinued hends =>
    obtain ⟨rfl, rfl⟩ := hk.eq hlead
    rw [List.length_cons] at hends
    have htake : tail.take (k - 1) = tail := List.take_of_length_le (by omega)
    rw [readSequence_of_continued ((continued_iff (by omega)).mp hcontinued), htake,
      if_pos hends, List.length_cons]
  | @overlong _ _ value hlead hcontinued hcomplete hvalue hsmall =>
    obtain ⟨rfl, rfl⟩ := hk.eq hlead
    rw [payload_eq] at hvalue
    rw [readSequence_of_continued ((continued_iff (by omega)).mp hcontinued), hvalue,
      if_neg (by rw [List.length_take]; simp only [List.length_cons] at hcomplete; omega),
      if_pos (by rw [← (announces_iff.mp hk).2.2.2]; exact hsmall)]
  | @invalidCodePoint _ _ value hlead hcontinued hcomplete hvalue hneeded houtside =>
    obtain ⟨rfl, rfl⟩ := hk.eq hlead
    rw [List.length_cons] at hcomplete
    rw [payload_eq] at hvalue
    rw [(announces_iff.mp hk).2.2.2] at hneeded
    have hlen : (tail.take (k - 1)).length = k - 1 := by rw [List.length_take]; omega
    rw [← hvalue] at houtside hneeded
    rw [readSequence_of_continued ((continued_iff (by omega)).mp hcontinued),
      if_neg (by omega), if_neg (by omega), (isOutside_iff h2 h4 hlen hneeded).mp houtside, hvalue,
      Option.elim_none]

/-- Reading a sequence fails with nothing but a fault that it has. -/
theorem fault_of_readSequence {smallest : Nat} {e : CodecError} (hk : Announces lead k smallest)
    (h : readSequence offset k lead tail = .error e) : SequenceFault offset lead tail e := by
  obtain ⟨-, h2, h4, hsmallest⟩ := announces_iff.mp hk
  -- a bad byte goes before everything else
  rcases exists_bad_or_continued (k - 1) tail with ⟨i, byte, hi, hbyte, hbad, hbefore⟩ | hall
  · rw [readSequence_of_bad hi hbyte hbad hbefore] at h
    cases h
    rw [Nat.add_assoc, Nat.add_comm 1]
    refine .invalidContinuation hk (Nat.le_add_left 1 i) (by omega) hbyte ?_
      (continued_succ_iff.mpr hbefore)
    rw [isTail_iff, hbad]
    exact Bool.false_ne_true
  · have hcontinued : Continued k (lead :: tail) := (continued_iff (by omega)).mpr hall
    have hlen := List.length_take (i := k - 1) (l := tail)
    rw [readSequence_of_continued hall] at h
    -- the checks come in the order of the faults
    split at h
    · next hends =>
      cases h
      have htake : tail.take (k - 1) = tail := List.take_of_length_le (by omega)
      rw [htake] at hends ⊢
      exact .truncated hk hcontinued hends
    next hcomplete =>
    have hcomplete' : k ≤ (lead :: tail).length := by
      rw [List.length_cons]
      omega
    split at h
    · next hsmall =>
      cases h
      exact .overlong hk hcontinued hcomplete' (payload_eq ..) (hsmallest ▸ hsmall)
    next hneeded =>
    cases hscalar : scalar? (sequenceValue k lead (tail.take (k - 1))) with
    | none =>
      rw [hscalar] at h
      cases h
      exact .invalidCodePoint hk hcontinued hcomplete' (payload_eq ..) (by omega)
        ((isOutside_iff h2 h4 (by omega) (by omega)).mpr hscalar)
    | some c =>
      rw [hscalar] at h
      cases h

end OneSequence

-- ---------------------------------------------------------------------------
-- The scan
-- ---------------------------------------------------------------------------

section Scan

variable {offset : Nat} {lead : UInt8} {tail : List UInt8} {e : CodecError}

/-- A byte that can only stand behind a first one announces one byte. -/
theorem isTail_iff_announced : IsTail lead ↔ announcedLength lead = some 1 := by
  rw [announcedLength_eq_some_iff, leadingOnes_eq_iff (by decide)]
  unfold IsTail
  simp only [Nat.reduceSub, Nat.pow_eq, Nat.reducePow]
  omega

/-- From `F8` on a first byte announces more than four bytes. -/
theorem le_of_announced {k : Nat} (hk : announcedLength lead = some k) :
    0xF8 ≤ lead.toNat ↔ 4 < k := by
  obtain ⟨h1, h7, hones⟩ := announcedLength_eq_some_iff.mp hk
  rw [leadingOnes_eq_iff h7] at hones
  match k, h1, h7 with
  | 1, _, _ | 2, _, _ | 3, _, _ | 4, _, _ | 5, _, _ | 6, _, _ | 7, _, _ =>
    simp only [Nat.reduceSub, Nat.pow_eq, Nat.reducePow] at hones
    omega

/-- A fault is that of the first byte, or it is found by reading a sequence of two to four bytes. -/
theorem SequenceFault.cases_lead (h : SequenceFault offset lead tail e) :
    (IsTail lead ∧ e = .unexpectedContinuation offset lead) ∨
    (0xF8 ≤ lead.toNat ∧ e = .invalidLeadingByte offset lead) ∨
    ∃ k, Announces lead k (minimumValue k) := by
  have hannounces : ∀ {k smallest}, Announces lead k smallest →
      ∃ k, Announces lead k (minimumValue k) := by
    intro k smallest hk
    exact ⟨k, (announces_iff.mp hk).2.2.2 ▸ hk⟩
  cases h with
  | unexpectedContinuation hlead => exact .inl ⟨hlead, rfl⟩
  | invalidLeadingByte hlead => exact .inr (.inl ⟨hlead, rfl⟩)
  | invalidContinuation hlead => exact .inr (.inr (hannounces hlead))
  | truncated hlead => exact .inr (.inr (hannounces hlead))
  | overlong hlead => exact .inr (.inr (hannounces hlead))
  | invalidCodePoint hlead => exact .inr (.inr (hannounces hlead))

/-- **The scan fails with the fault of its first sequence.** -/
theorem scanStrict_of_fault (h : SequenceFault offset lead tail e) :
    scanStrict offset (lead :: tail) = .error e := by
  rcases h.cases_lead with ⟨hlead, rfl⟩ | ⟨hlead, rfl⟩ | ⟨k, hk⟩
  · -- a continuation byte announces a length of one
    rw [scanStrict, isTail_iff_announced.mp hlead]
    exact if_pos rfl
  · -- a byte from `F8` on announces more than four bytes, or nothing at all
    have hascii : ¬ lead < 0x80 := fun hlt => by
      have hlt' : lead.toNat < 0x80 := UInt8.lt_iff_toNat_lt.mp hlt
      omega
    rw [scanStrict]
    cases hk : announcedLength lead with
    | none => exact if_neg hascii
    | some k =>
      have h4 := (le_of_announced hk).mp hlead
      dsimp only
      rw [if_neg (by omega), if_neg (by omega)]
  · obtain ⟨hannounced, h2, h4, -⟩ := announces_iff.mp hk
    rw [scanStrict, hannounced]
    dsimp only
    rw [if_neg (by omega), if_pos h4, readSequence_of_fault hk h]

/-- **Wherever the scan fails a sequence is at fault**, and what it has passed is the encoding of a
text. -/
theorem exists_fault_of_scanStrict {bytes : List UInt8} (h : scanStrict offset bytes = .error e) :
    ∃ t lead tail, bytes = encode t ++ lead :: tail ∧
      SequenceFault (offset + (encode t).length) lead tail e := by
  fun_induction scanStrict offset bytes with
  | case1 => cases h
  | case2 offset lead rest _ hlt ih =>
    -- an ASCII byte is passed
    obtain ⟨t, bad, tail, rfl, hfault⟩ := ih (exceptMap_eq_error_iff.mp h)
    have henc := encodeChar_charOfByte (UInt8.lt_iff_toNat_lt.mp hlt)
    refine ⟨charOfByte lead :: t, bad, tail, ?_, ?_⟩
    · rw [encode_cons, henc]
      rfl
    · rw [encode_cons, henc, List.singleton_append, List.length_cons, Nat.add_comm _ 1,
        ← Nat.add_assoc]
      exact hfault
  | case3 offset lead rest hnone hascii =>
    cases h
    have hascii' : ¬ lead.toNat < 0x80 := fun hlt => hascii (UInt8.lt_iff_toNat_lt.mpr hlt)
    have hlead := announcedLength_eq_none_iff.mp hnone
    exact ⟨[], lead, rest, rfl, .invalidLeadingByte (by omega)⟩
  | case4 offset lead rest hone =>
    cases h
    exact ⟨[], lead, rest, rfl, .unexpectedContinuation (isTail_iff_announced.mpr hone)⟩
  | case5 offset lead rest k hk h1 h4 e' hread =>
    cases h
    have hpos := (announcedLength_eq_some_iff.mp hk).1
    have hannounces := announces_iff.mpr ⟨hk, by omega, h4, rfl⟩
    exact ⟨[], lead, rest, rfl, fault_of_readSequence hannounces hread⟩
  | case6 offset lead rest k hk h1 h4 c hread ih =>
    -- a sequence that spells a character is passed
    obtain ⟨t, bad, tail, hrest, hfault⟩ := ih (exceptMap_eq_error_iff.mp h)
    have hpos := (announcedLength_eq_some_iff.mp hk).1
    have hs := (readSequence_eq_ok_iff hk (by omega) h4).mp hread
    refine ⟨c :: t, bad, tail, ?_, ?_⟩
    · rw [encode_cons, hs.encodeChar_eq, List.append_assoc, ← hrest, List.cons_append,
        List.take_append_drop]
    · rw [encode_cons, hs.encodeChar_eq, List.length_append, List.length_cons, hs.complete,
        ← Nat.add_assoc]
      exact hfault
  | case7 offset lead rest k hk h1 h4 =>
    cases h
    exact ⟨[], lead, rest, rfl, .invalidLeadingByte ((le_of_announced hk).mpr (by omega))⟩

/-- **No character is encoded by the bytes that a fault starts with.** -/
theorem not_encodeChar_of_fault (h : SequenceFault offset lead tail e) (c : Char) :
    ¬ encodeChar c <+: lead :: tail := by
  rintro ⟨rest, hrest⟩
  rcases encodeChar_cases c with ⟨lead', hlt, -, henc⟩ | ⟨k, lead', tail', hs, henc⟩
  · rw [henc, List.singleton_append, List.cons.injEq] at hrest
    obtain ⟨rfl, rfl⟩ := hrest
    -- an ASCII byte is not at fault
    have hnone := announcedLength_eq_none_iff.mpr (.inl hlt)
    rcases h.cases_lead with ⟨hlead, -⟩ | ⟨hlead, -⟩ | ⟨k, hk⟩
    · rw [isTail_iff_announced.mp hlead] at hnone
      cases hnone
    · omega
    · rw [(announces_iff.mp hk).1] at hnone
      cases hnone
  · rw [henc, List.cons_append, List.cons.injEq] at hrest
    obtain ⟨rfl, rfl⟩ := hrest
    have hk := announces_iff.mpr ⟨hs.announced, hs.two_le, hs.le_four, rfl⟩
    have hlen := hs.complete
    -- the sequence is read, and so it has no fault
    have hread : readSequence offset k lead' (tail' ++ rest) = .ok c := by
      rw [readSequence_eq_ok_iff hs.announced hs.two_le hs.le_four,
        show k - 1 = tail'.length by omega, List.take_left]
      exact hs
    rw [readSequence_of_fault hk h] at hread
    cases hread

end Scan

-- ---------------------------------------------------------------------------
-- Decoding
-- ---------------------------------------------------------------------------

/-- The error of strict decoding is that of the scan from the first byte. -/
theorem decodeStrict_eq_error_iff {bytes : List UInt8} {e : CodecError} :
    (decodeStrict bytes).value = .error e ↔ scanStrict 0 bytes = .error e := by
  unfold decodeStrict textOfBytes
  cases scanStrict 0 bytes with
  | ok t => simp
  | error e' => exact Iff.rfl

/-- The bytes are cut behind the longest part from their front that strict decoding accepts, which
is the encoding of a text. -/
structure AcceptedCut (bytes : List UInt8) (t : Text) (rest : List UInt8) : Prop where
  parts : bytes = encode t ++ rest
  longest : ∀ front u, front <+: bytes → (decodeStrict front).value = .ok u →
    front.length ≤ (encode t).length

/-- In front of a fault the bytes are cut behind what is accepted. -/
theorem acceptedCut_of_fault {bytes tail : List UInt8} {t : Text} {offset : Nat} {lead : UInt8}
    {e : CodecError} (hparts : bytes = encode t ++ lead :: tail)
    (h : SequenceFault offset lead tail e) : AcceptedCut bytes t (lead :: tail) := by
  refine ⟨hparts, fun front u hfront haccept => Nat.le_of_not_lt fun hlonger => ?_⟩
  -- a longer part has the encoding of the text in front, and behind it another encoding
  obtain ⟨more, rfl⟩ : encode t <+: front :=
    List.prefix_of_prefix_length_le ⟨_, hparts.symm⟩ hfront (by omega)
  have hscan := decodeStrict_eq_ok_iff.mp haccept
  rw [scanStrict_encode_append] at hscan
  obtain ⟨v, hv, -⟩ := exceptMap_eq_ok_iff.mp hscan
  rw [hparts, ← encode_of_scanStrict hv, List.prefix_append_right_inj] at hfront
  cases v with
  | nil =>
    rw [← encode_of_scanStrict hv, encode_nil, List.append_nil] at hlonger
    omega
  | cons c v =>
    rw [encode_cons] at hfront
    exact not_encodeChar_of_fault h c ((List.prefix_append _ _).trans hfront)

/-- Any bytes can be cut like that: behind all of them, or in front of the first fault. -/
theorem exists_acceptedCut (bytes : List UInt8) : ∃ t rest, AcceptedCut bytes t rest := by
  -- all of the bytes are accepted, or a sequence is at fault
  cases hscan : scanStrict 0 bytes with
  | ok t =>
    have henc := encode_of_scanStrict hscan
    refine ⟨t, [], by rw [henc, List.append_nil], fun front u hfront _ => ?_⟩
    rw [henc]
    exact hfront.length_le
  | error e =>
    obtain ⟨t, lead, tail, hparts, hfault⟩ := exists_fault_of_scanStrict hscan
    exact ⟨t, lead :: tail, acceptedCut_of_fault hparts hfault⟩

/-- The longest part that is accepted is one part, with one text. -/
theorem AcceptedCut.eq {bytes rest rest' : List UInt8} {t t' : Text}
    (h : AcceptedCut bytes t rest) (h' : AcceptedCut bytes t' rest') : t = t' ∧ rest = rest' := by
  -- either part is accepted, and so neither is longer
  have hle := h'.longest _ t ⟨rest, h.parts.symm⟩ (decodeStrict_encode t)
  have hge := h.longest _ t' ⟨rest', h'.parts.symm⟩ (decodeStrict_encode t')
  obtain ⟨henc, hrest⟩ := List.append_inj (h.parts.symm.trans h'.parts) (by omega)
  have ht := decodeStrict_encode t
  rw [henc, decodeStrict_encode t', Except.ok.injEq] at ht
  exact ⟨ht.symm, hrest⟩

/-- **The error of strict decoding is the first fault.** Any bytes have one longest part that is
accepted; decoding fails with an error exactly when the sequence behind that part is at fault and
the error says how, with its offset counted from the front of all bytes. -/
theorem decodeStrict_eq_error_iff_fault (bytes : List UInt8) (e : CodecError) :
    (∃! cut : Text × List UInt8, AcceptedCut bytes cut.1 cut.2) ∧
    ((decodeStrict bytes).value = .error e ↔ ∃ t lead tail,
      AcceptedCut bytes t (lead :: tail) ∧ SequenceFault (encode t).length lead tail e) := by
  constructor
  · obtain ⟨t, rest, hcut⟩ := exists_acceptedCut bytes
    refine ⟨(t, rest), hcut, ?_⟩
    rintro ⟨t', rest'⟩ hcut'
    obtain ⟨rfl, rfl⟩ := hcut.eq hcut'
    rfl
  · rw [decodeStrict_eq_error_iff]
    constructor
    · intro hscan
      obtain ⟨t, lead, tail, hparts, hfault⟩ := exists_fault_of_scanStrict hscan
      rw [Nat.zero_add] at hfault
      exact ⟨t, lead, tail, acceptedCut_of_fault hparts hfault, hfault⟩
    · rintro ⟨t, lead, tail, hcut, hfault⟩
      rw [hcut.parts, scanStrict_encode_append, Nat.zero_add, ← length_encode,
        scanStrict_of_fault hfault]
      rfl

/-- A bad byte comes before the end of input, which comes before a value that is too small. -/
example : (decodeStrict [0x41, 0xF0, 0x80, 0xC0]).value = .error (.invalidContinuation 3 0xC0) ∧
    (decodeStrict [0x41, 0xF0, 0x80, 0x80]).value = .error (.truncated 1 4 3) ∧
    (decodeStrict [0x41, 0xF0, 0x80, 0x80, 0x80]).value = .error (.overlong 1 0) := by cbv

end BlockExplorer
