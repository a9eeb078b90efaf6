import BlockExplorer.Proofs.Except
import BlockExplorer.Proofs.Request.Spelling

/-!
# BlockExplorer — percent decoding in one pass

A value is decoded by a look at each `%` in turn, then by a change of its plus
signs, then by a replacement of its escapes. `scan` does the work of all three in
one pass from left to right that ends at the first `%` without two digits. The
two agree (`scan_eq`): the digits of an escape are neither `%` nor `+`, so no
escape holds the beginning of another, and the change of plus signs neither makes
nor breaks one.

Main result: `decodeValue_eq_decodeInOnePass`, together with which place a
malformed escape is reported at, and how many octets there are otherwise.
-/

namespace BlockExplorer.Percent

-- ---------------------------------------------------------------------------
-- The pass
-- ---------------------------------------------------------------------------

/-- The byte of `+`. -/
def plus : UInt8 := 0x2B

/-- The byte of a space. -/
def space : UInt8 := 0x20

/-- The value of a byte as a digit of base 16: its place among the digits with small or with capital
letters. -/
def hexValue? (byte : UInt8) : Option Nat :=
  ("0123456789abcdef".toList.idxOf? (charOfByte byte)).or
    ("0123456789ABCDEF".toList.idxOf? (charOfByte byte))

/-- A plus sign is read as a space, and any other byte as itself. -/
def plain (byte : UInt8) : UInt8 :=
  if byte = plus then space else byte

/-- Reads bytes from left to right; the first has place `offset`. A `%` and two digits are the octet
that the digits denote, and the first `%` without them ends the pass at its place. -/
def scan (offset : Nat) : List UInt8 → Except Nat (List UInt8)
  | [] => .ok []
  | byte :: rest =>
    if byte = mark then
      match rest with
      | high :: low :: behind =>
        match hexValue? high, hexValue? low with
        | some h, some l => (scan (offset + 3) behind).map (UInt8.ofNat (16 * h + l) :: ·)
        | _, _ => .error offset
      | _ => .error offset
    else
      (scan (offset + 1) rest).map (plain byte :: ·)

/-- Decodes the raw value of the parameter `key` in one pass over its bytes. -/
def decodeInOnePass (key raw : Text) : Logged CodecEvent (Except QueryError Text) :=
  match scan 0 (encode raw) with
  | .error offset => pure (.error (.malformedEscape key offset))
  | .ok octets => Except.mapError (.invalidText key) <$> decodeStrict octets

/-- The bytes begin with two digits of base 16. -/
def OpensDigits (bytes : List UInt8) : Prop :=
  ∃ high low behind, bytes = high :: low :: behind ∧
    (hexValue? high).isSome ∧ (hexValue? low).isSome

/-- At this place of the bytes stands a `%` that two digits do not follow. -/
def BareAt (bytes : List UInt8) (place : Nat) : Prop :=
  ∃ rest, bytes.drop place = mark :: rest ∧ ¬ OpensDigits rest

/-- This is the first place of the bytes at which a `%` lacks its two digits. -/
def FirstBareAt (bytes : List UInt8) (place : Nat) : Prop :=
  BareAt bytes place ∧ ∀ earlier < place, ¬ BareAt bytes earlier

-- ---------------------------------------------------------------------------
-- Digits
-- ---------------------------------------------------------------------------

/-- The place among the digits is the value of the digit. -/
theorem hexValue?_eq_some_iff {byte : UInt8} {n : Nat} :
    hexValue? byte = some n ↔ HexDigit n (charOfByte byte) := by
  have hsmall : ∀ p ∈ "0123456789abcdef".toList.zipIdx,
      ("0123456789abcdef".toList.idxOf? p.1).or ("0123456789ABCDEF".toList.idxOf? p.1) =
        some p.2 := by
    decide
  have hcapital : ∀ p ∈ "0123456789ABCDEF".toList.zipIdx,
      ("0123456789abcdef".toList.idxOf? p.1).or ("0123456789ABCDEF".toList.idxOf? p.1) =
        some p.2 := by
    decide
  constructor
  · intro h
    rw [hexValue?, Option.or_eq_some_iff] at h
    -- a digit stands among the small letters, or only among the capital ones
    rcases h with h | ⟨-, h⟩
    all_goals obtain ⟨hlt, hget, -⟩ := List.idxOf?_eq_some_iff.mp h
    · exact .inl (List.getElem?_eq_some_iff.mpr ⟨hlt, hget⟩)
    · exact .inr (List.getElem?_eq_some_iff.mpr ⟨hlt, hget⟩)
  · rintro (h | h)
    · exact hsmall _ (List.mk_mem_zipIdx_iff_getElem?.mpr h)
    · exact hcapital _ (List.mk_mem_zipIdx_iff_getElem?.mpr h)

/-- The digits of the scans are those of the pass. -/
theorem digit?_eq_hexValue? (byte : UInt8) : digit? byte = hexValue? byte := by
  apply Option.ext
  intro n
  rw [hexValue?_eq_some_iff]
  exact hexDigit?_eq_some_iff

/-- A byte that is read as a digit differs from one that is not. -/
theorem ne_of_hexValue? {byte other : UInt8} {n : Nat} (h : hexValue? byte = some n)
    (hother : hexValue? other = none) : byte ≠ other := by
  rintro rfl
  rw [hother] at h
  cases h

theorem ne_mark_of_hexValue? {byte : UInt8} {n : Nat} (h : hexValue? byte = some n) :
    byte ≠ mark :=
  ne_of_hexValue? h (by decide)

theorem plain_of_hexValue? {byte : UInt8} {n : Nat} (h : hexValue? byte = some n) :
    plain byte = byte :=
  if_neg (ne_of_hexValue? h (by decide))

theorem octet?_of_hexValues {high low : UInt8} {h l : Nat} (hhigh : hexValue? high = some h)
    (hlow : hexValue? low = some l) (rest : List UInt8) :
    octet? (high :: low :: rest) = some (UInt8.ofNat (16 * h + l)) := by
  rw [← digit?_eq_hexValue?] at hhigh hlow
  exact octet?_cons_cons hhigh hlow rest

/-- There is no octet where two digits are missing. -/
theorem octet?_eq_none_iff {bytes : List UInt8} : octet? bytes = none ↔ ¬ OpensDigits bytes := by
  rw [← not_iff_not, not_not, ← ne_eq, Option.ne_none_iff_isSome]
  constructor
  · intro h
    unfold octet? at h
    split at h
    · next high low behind =>
      split at h
      · next hhigh hlow =>
        rw [digit?_eq_hexValue?] at hhigh hlow
        exact ⟨high, low, behind, rfl, by rw [hhigh]; rfl, by rw [hlow]; rfl⟩
      · cases h
    · cases h
  · rintro ⟨high, low, behind, rfl, hhigh, hlow⟩
    obtain ⟨h, hhigh⟩ := Option.isSome_iff_exists.mp hhigh
    obtain ⟨l, hlow⟩ := Option.isSome_iff_exists.mp hlow
    rw [octet?_of_hexValues hhigh hlow]
    rfl

-- ---------------------------------------------------------------------------
-- The first malformed escape
-- ---------------------------------------------------------------------------

theorem bareAt_cons_zero {byte : UInt8} {rest : List UInt8} :
    BareAt (byte :: rest) 0 ↔ byte = mark ∧ octet? rest = none := by
  rw [octet?_eq_none_iff]
  constructor
  · rintro ⟨rest', heq, hbare⟩
    obtain ⟨rfl, rfl⟩ := List.cons.inj heq
    exact ⟨rfl, hbare⟩
  · rintro ⟨rfl, hbare⟩
    exact ⟨rest, rfl, hbare⟩

theorem bareAt_cons_succ {byte : UInt8} {rest : List UInt8} {place : Nat} :
    BareAt (byte :: rest) (place + 1) ↔ BareAt rest place :=
  Iff.rfl

theorem not_bareAt_nil (place : Nat) : ¬ BareAt [] place := by
  rintro ⟨rest, heq, -⟩
  rw [List.drop_nil] at heq
  cases heq

/-- The first such place is looked for behind a byte that is in order. -/
theorem firstBareAt_cons_succ {byte : UInt8} {rest : List UInt8} {place : Nat}
    (h : ¬ BareAt (byte :: rest) 0) :
    FirstBareAt (byte :: rest) (place + 1) ↔ FirstBareAt rest place := by
  constructor
  · intro hfirst
    refine ⟨bareAt_cons_succ.mp hfirst.1, ?_⟩
    intro earlier hlt hbare
    exact hfirst.2 (earlier + 1) (by omega) (bareAt_cons_succ.mpr hbare)
  · intro hfirst
    refine ⟨bareAt_cons_succ.mpr hfirst.1, ?_⟩
    intro earlier hlt hbare
    cases earlier with
    | zero => exact h hbare
    | succ earlier => exact hfirst.2 earlier (by omega) (bareAt_cons_succ.mp hbare)

/-- The check looks at one `%` after the other; the induction is on the bytes. -/
theorem malformed?_eq_some_iff {offset place : Nat} {bytes : List UInt8} :
    malformed? offset bytes = some place ↔ ∃ n, place = offset + n ∧ FirstBareAt bytes n := by
  induction bytes generalizing offset with
  | nil => exact ⟨(nomatch ·), fun ⟨n, _, hfirst⟩ => absurd hfirst.1 (not_bareAt_nil n)⟩
  | cons byte rest ih =>
    by_cases hbare : byte = mark ∧ octet? rest = none
    · have hzero := bareAt_cons_zero.mpr hbare
      rw [malformed?, if_pos hbare]
      constructor
      · intro h
        cases h
        exact ⟨0, rfl, hzero, fun _ hlt => absurd hlt (Nat.not_lt_zero _)⟩
      · rintro ⟨n, rfl, hfirst⟩
        have hn : n = 0 := by
          by_contra hn
          exact hfirst.2 0 (by omega) hzero
        rw [hn, Nat.add_zero]
    · have hzero : ¬ BareAt (byte :: rest) 0 := fun h => hbare (bareAt_cons_zero.mp h)
      rw [malformed?, if_neg hbare, ih]
      constructor
      · rintro ⟨n, rfl, hfirst⟩
        exact ⟨n + 1, by omega, (firstBareAt_cons_succ hzero).mpr hfirst⟩
      · rintro ⟨n, rfl, hfirst⟩
        cases n with
        | zero => exact absurd hfirst.1 hzero
        | succ n => exact ⟨n, by omega, (firstBareAt_cons_succ hzero).mp hfirst⟩

theorem exists_firstBareAt {bytes : List UInt8} {place : Nat} (h : BareAt bytes place) :
    ∃ first, FirstBareAt bytes first := by
  induction place using Nat.strongRecOn with
  | _ place ih =>
    -- an earlier place, if there is one, leads to the first
    by_cases hearlier : ∃ earlier < place, BareAt bytes earlier
    · obtain ⟨earlier, hlt, hbare⟩ := hearlier
      exact ih earlier hlt hbare
    · exact ⟨place, h, fun earlier hlt hbare => hearlier ⟨earlier, hlt, hbare⟩⟩

-- ---------------------------------------------------------------------------
-- The pass agrees with the three steps
-- ---------------------------------------------------------------------------

theorem plain_ne_mark {byte : UInt8} (h : byte ≠ mark) : plain byte ≠ mark := by
  unfold plain
  split
  · decide
  · exact h

/-- The bytes of a character change as the character does. -/
theorem encodeChar_plain (c : Char) :
    encodeChar (if c = '+' then ' ' else c) = (encodeChar c).map plain := by
  by_cases hc : c = '+'
  · rw [hc]
    decide
  · have hplain : ∀ byte ∈ encodeChar c, plain byte = byte := by
      intro byte hbyte
      apply if_neg
      rintro rfl
      exact hc (eq_charOfByte_of_mem hbyte (by decide))
    rw [if_neg hc, List.map_congr_left hplain, List.map_id']

/-- Only `+` itself has the byte of `+`, so the change may be made byte by byte. -/
theorem encode_plusToSpace (t : Text) : encode (plusToSpace t) = (encode t).map plain := by
  induction t with
  | nil => rfl
  | cons c t ih =>
    rw [encode_cons, List.map_append, ← encodeChar_plain, ← ih]
    rfl

/-- The check stops at a `%` without two digits. -/
theorem malformed?_of_not_opensDigits {rest : List UInt8} (h : ¬ OpensDigits rest) (offset : Nat) :
    malformed? offset (mark :: rest) = some offset := by
  rw [malformed?, if_pos ⟨rfl, octet?_eq_none_iff.mpr h⟩]

/-- **One pass does what the check and the replacements do**, on any bytes. -/
theorem scan_eq (offset : Nat) (bytes : List UInt8) :
    scan offset bytes =
      match malformed? offset bytes with
      | some place => .error place
      | none => .ok (decodeBytes (bytes.map plain)) := by
  have hmark : plain mark = mark := by decide
  -- the cases of the pass: the end, an escape, a `%` without digits, without two bytes, and another
  -- byte
  fun_induction scan offset bytes with
  | case1 => rw [malformed?, List.map_nil, decodeBytes]
  | case2 offset high low behind h l hlow hhigh ih =>
    have hoctet := octet?_of_hexValues hhigh hlow
    rw [malformed?_escape (ne_mark_of_hexValue? hhigh) (ne_mark_of_hexValue? hlow) hoctet, ih]
    simp only [List.map_cons, hmark, plain_of_hexValue? hhigh, plain_of_hexValue? hlow,
      decodeBytes_escape hoctet]
    cases malformed? (offset + 3) behind <;> rfl
  | case3 offset high low behind hnone =>
    have hbare : ¬ OpensDigits (high :: low :: behind) := by
      rintro ⟨_, _, _, heq, hhigh, hlow⟩
      cases heq
      obtain ⟨h, hhigh⟩ := Option.isSome_iff_exists.mp hhigh
      obtain ⟨l, hlow⟩ := Option.isSome_iff_exists.mp hlow
      exact hnone h l hhigh hlow
    rw [malformed?_of_not_opensDigits hbare]
  | case4 offset rest hshort =>
    have hbare : ¬ OpensDigits rest := by
      rintro ⟨high, low, behind, heq, -⟩
      exact hshort high low behind heq
    rw [malformed?_of_not_opensDigits hbare]
  | case5 offset byte rest hbyte ih =>
    rw [malformed?_cons_of_ne hbyte, ih, List.map_cons,
      decodeBytes_cons_of_ne (plain_ne_mark hbyte)]
    cases malformed? (offset + 1) rest <;> rfl

/-- The pass ends at the first `%` without two digits, and nowhere else. -/
theorem scan_eq_error_iff {bytes : List UInt8} {place : Nat} :
    scan 0 bytes = .error place ↔ FirstBareAt bytes place := by
  have hfirst : malformed? 0 bytes = some place ↔ FirstBareAt bytes place := by
    rw [malformed?_eq_some_iff]
    simp
  rw [scan_eq, ← hfirst]
  cases malformed? 0 bytes <;> simp

/-- Each escape is one octet in place of three bytes, and no `%` is left over. -/
theorem length_of_scan {offset : Nat} {bytes octets : List UInt8}
    (h : scan offset bytes = .ok octets) :
    octets.length + 2 * bytes.count mark = bytes.length := by
  -- the `%` of an escape is counted once, its digits are none
  fun_induction scan offset bytes generalizing octets with
  | case1 =>
    cases h
    rfl
  | case2 offset high low behind h' l hlow hhigh ih =>
    obtain ⟨octets, hscan, rfl⟩ := exceptMap_eq_ok_iff.mp h
    have hlen := ih hscan
    rw [List.count_cons_self, List.count_cons_of_ne (ne_mark_of_hexValue? hhigh),
      List.count_cons_of_ne (ne_mark_of_hexValue? hlow)]
    simp only [List.length_cons]
    omega
  | case3 => cases h
  | case4 => cases h
  | case5 offset byte rest hbyte ih =>
    obtain ⟨octets, hscan, rfl⟩ := exceptMap_eq_ok_iff.mp h
    have hlen := ih hscan
    rw [List.count_cons_of_ne hbyte]
    simp only [List.length_cons]
    omega

/-- There are as many bytes of `%` as there are characters. -/
theorem count_mark_encode (t : Text) : (encode t).count mark = t.count '%' := by
  induction t with
  | nil => rfl
  | cons c t ih =>
    rw [encode_cons, List.count_append, ih]
    by_cases hc : c = '%'
    · have hone : (encodeChar '%').count mark = 1 := by decide
      rw [hc, hone, List.count_cons_self, Nat.add_comm]
    · rw [List.count_eq_zero.mpr (mark_notMem_encodeChar hc), List.count_cons_of_ne hc,
        Nat.zero_add]

theorem decodeValue_eq (key raw : Text) : decodeValue key raw = decodeInOnePass key raw := by
  rw [decodeValue, decodeInOnePass, scan_eq, ← encode_plusToSpace]
  cases malformed? 0 (encode raw) with
  | some offset => rfl
  | none =>
    simp only [map_eq_pure_bind]
    refine congrArg (decodeStrict _ >>= ·) (funext fun result => ?_)
    cases result <;> rfl

/-- A malformed escape is reported for the first `%` without two digits. -/
theorem value_eq_malformedEscape_iff {key raw : Text} {place : Nat} :
    (decodeValue key raw).value = .error (.malformedEscape key place) ↔
      FirstBareAt (encode raw) place := by
  rw [decodeValue_eq, decodeInOnePass, ← scan_eq_error_iff]
  cases scan 0 (encode raw) with
  | error offset => simp
  | ok octets =>
    -- the octets are decoded, which gives errors of another kind
    refine iff_of_false ?_ (nomatch ·)
    intro h
    have hvalue : (decodeStrict octets).value.mapError (QueryError.invalidText key) =
        .error (.malformedEscape key place) := h
    cases hoctets : (decodeStrict octets).value <;> simp [hoctets, Except.mapError] at hvalue

theorem exists_scan {bytes : List UInt8} (h : ∀ place, ¬ BareAt bytes place) :
    ∃ octets, scan 0 bytes = .ok octets := by
  cases hscan : scan 0 bytes with
  | error place => exact absurd (scan_eq_error_iff.mp hscan).1 (h place)
  | ok octets => exact ⟨octets, rfl⟩

/-- **A value is decoded in one pass.** If some `%` has no two digits behind it, the first such is
reported and nothing is decoded. Otherwise the octets of the pass are those that the replacements
give, one for each byte of the value but for an escape, which is three bytes. -/
theorem decodeValue_eq_decodeInOnePass (key raw : Text) :
    decodeValue key raw = decodeInOnePass key raw ∧
    (∀ place, (decodeValue key raw).value = .error (.malformedEscape key place) ↔
      FirstBareAt (encode raw) place) ∧
    ((∃ place, BareAt (encode raw) place) →
      ∃ first, decodeValue key raw = pure (.error (.malformedEscape key first))) ∧
    ((∀ place, ¬ BareAt (encode raw) place) →
      ∃ octets, scan 0 (encode raw) = .ok octets ∧
        decodeBytes (encode (plusToSpace raw)) = octets ∧
        octets.length + 2 * raw.count '%' = (encode raw).length) := by
  refine ⟨decodeValue_eq key raw, ?_, ?_, ?_⟩
  · intro place
    exact value_eq_malformedEscape_iff
  · rintro ⟨place, hbare⟩
    obtain ⟨first, hfirst⟩ := exists_firstBareAt hbare
    refine ⟨first, ?_⟩
    rw [decodeValue_eq, decodeInOnePass, scan_eq_error_iff.mpr hfirst]
  · intro hnone
    obtain ⟨octets, hscan⟩ := exists_scan hnone
    have hlen := length_of_scan hscan
    rw [count_mark_encode] at hlen
    refine ⟨octets, hscan, ?_, hlen⟩
    rw [scan_eq, ← encode_plusToSpace] at hscan
    -- the pass came to the end, so that the check found nothing
    split at hscan
    · cases hscan
    · exact Except.ok.inj hscan

/-- The place counts bytes, and an escape that is cut off ends the pass. -/
example : scan 0 (encode "é%2b+%4".toList) = .error 6 := by cbv

end BlockExplorer.Percent
