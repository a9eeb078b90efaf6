import BlockExplorer.Proofs.Codec.ByteLiteral

/-!
# BlockExplorer — reading byte lists that were shown

A list shown in decimal is read back as it is. In base 16 bytes are shown as two
digits without a mark, and it is the mark that tells a reader of the base. With
it before every token the list is read back, whatever separators are put between
the tokens (`readToken_mark_hex`). Without it the digits are read in base 10:
a byte with a letter among its digits is refused, and any other becomes the
number with these digits (`readToken_hex_eq_ok_iff`), so that only the bytes up
to 9 stay what they were.

Main results:

* `parse_render_and_spaced` — what is shown can be read back, and so no two lists
  are shown alike.
* `parse_render_hex_iff` — what becomes of a list in base 16 without marks.
-/

namespace BlockExplorer

-- ---------------------------------------------------------------------------
-- Two digits
-- ---------------------------------------------------------------------------

namespace Numeral

/-- A byte has two digits in base 16, and these are their values. -/
theorem hexDigits_lt (byte : UInt8) : byte.toNat / 16 < 16 ∧ byte.toNat % 16 < 16 := by
  have hlt : byte.toNat < 256 := byte.toNat_lt
  omega

/-- In base 16 a byte is shown by its two halves. -/
theorem hex_two (byte : UInt8) :
    hex 2 byte.toNat =
      [Nat.digitChar (byte.toNat / 16), Nat.digitChar (byte.toNat % 16)] := by
  by_cases hsmall : byte.toNat < 16
  · -- one digit, and a zero to fill up
    rw [hex, Nat.toDigits_of_lt_base hsmall, Nat.div_eq_of_lt hsmall, Nat.mod_eq_of_lt hsmall]
    rfl
  · rw [hex, Nat.toDigits_of_base_le (by decide) (Nat.le_of_not_lt hsmall),
      Nat.toDigits_of_lt_base (hexDigits_lt byte).1]
    rfl

/-- The digit that is written for a value is a digit of this value. -/
theorem isDigit_digitChar {base d : Nat} (hbase : base ≤ 16) (hd : d < base) :
    IsDigit base d (Nat.digitChar d) :=
  digit?_eq_some_iff.mp (digit?_digitChar hbase hd)

/-- A digit of base 16 is one of another base only if it is below that base. -/
theorem lt_of_isDigit_digitChar {base d d' : Nat} (hd : d < 16)
    (h : IsDigit base d' (Nat.digitChar d)) : d < base := by
  have hvalue := (isDigit_digitChar (Nat.le_refl 16) hd).2.value
  rw [h.2.value] at hvalue
  obtain rfl := Option.some.inj hvalue
  exact h.1

theorem denotes_two {base a b : Nat} (hbase : base ≤ 16) (ha : a < base) (hb : b < base) :
    Denotes base [Nat.digitChar a, Nat.digitChar b] (a * base + b) :=
  .concat (.digit (isDigit_digitChar hbase ha)) (isDigit_digitChar hbase hb)

end Numeral

namespace ByteList

/-- The digits of a byte in base 16 are a word, and open no brackets. -/
theorem plain_hex (byte : UInt8) : Numeral.hex 2 byte.toNat ≠ [] ∧
    ∀ c ∈ Numeral.hex 2 byte.toNat, isSeparator c = false ∧ c ≠ '[' := by
  have hall : ∀ d < 16, isSeparator (Nat.digitChar d) = false ∧ Nat.digitChar d ≠ '[' := by
    decide
  rw [Numeral.hex_two, List.forall_mem_cons, List.forall_mem_singleton]
  obtain ⟨hhigh, hlow⟩ := Numeral.hexDigits_lt byte
  exact ⟨List.cons_ne_nil _ _, hall _ hhigh, hall _ hlow⟩

theorem notMem_hex (byte : UInt8) {c : Char} (h : ∀ d < 16, c ≠ Nat.digitChar d) :
    c ∉ Numeral.hex 2 byte.toNat := by
  rw [Numeral.hex_two, List.mem_cons, List.mem_singleton, not_or]
  exact ⟨h _ (Numeral.hexDigits_lt byte).1, h _ (Numeral.hexDigits_lt byte).2⟩

-- ---------------------------------------------------------------------------
-- The tokens of a list
-- ---------------------------------------------------------------------------

/-- Without brackets around a text its tokens are its words. -/
theorem tokens_of_notMem {t : Text} (h : '[' ∉ t) :
    tokens t = (Text.split isSeparator t).filter (· ≠ []) := by
  have hblank : ∀ c, Text.isBlank c = true → isSeparator c = true := fun c hc => by
    rw [isSeparator, hc, Bool.or_true]
  obtain ⟨front, back, hparts, -⟩ := Text.trims_trim t
  have hbare : body (Text.trim t) = Text.trim t := by
    refine body_of_unbracketed (.bare fun inner hinner => h ?_)
    rw [hparts, hinner]
    simp
  rw [tokens, hbare, Text.words_trim hblank]

/-- **The tokens of a text that is put together**, with brackets around it or without. -/
theorem tokens_of_spaced {us : List Text} {t : Text} (h : Text.Spaced isSeparator us t)
    (hus : ∀ u ∈ us, u ≠ [] ∧ ∀ c ∈ u, isSeparator c = false ∧ c ≠ '[') :
    tokens t = us ∧ tokens ('[' :: (t ++ [']'])) = us := by
  have hwords := Text.words_of_spaced h fun u hu =>
    ⟨(hus u hu).1, fun c hc => ((hus u hu).2 c hc).1⟩
  -- a bracket would be a separator or stand in a token
  have hbracket : '[' ∉ t := by
    intro hmem
    rcases h.mem hmem with hsep | ⟨u, hu, hc⟩
    · exact absurd hsep (by decide)
    · exact ((hus u hu).2 _ hc).2 rfl
  have hbrackets := tokens_brackets (List.forall_mem_nil _) t
  rw [List.append_nil] at hbrackets
  exact ⟨(tokens_of_notMem hbracket).trans hwords, hbrackets.trans hwords⟩

/-- The tokens of a list in base 16 are the digits of its bytes. -/
theorem tokens_render_hex (bytes : List UInt8) :
    tokens (render .hex bytes) = bytes.map fun b => Numeral.hex 2 b.toNat := by
  have hblank : ∀ c ∈ [' '], isSeparator c = true := List.forall_mem_singleton.mpr rfl
  refine (tokens_of_spaced (Text.spaced_join hblank (List.cons_ne_nil _ _) _) ?_).1
  intro u hu
  obtain ⟨byte, -, rfl⟩ := List.mem_map.mp hu
  exact plain_hex byte

-- ---------------------------------------------------------------------------
-- With marks
-- ---------------------------------------------------------------------------

/-- Behind a mark two digits are read in their base. -/
theorem readToken_mark_hex (byte : UInt8) :
    readToken (['0', 'x'] ++ Numeral.hex 2 byte.toNat) = .ok byte := by
  have hdigits : Numeral.Denotes 16 (Numeral.hex 2 byte.toNat)
      (byte.toNat / 16 * 16 + byte.toNat % 16) := by
    obtain ⟨hhigh, hlow⟩ := Numeral.hexDigits_lt byte
    rw [Numeral.hex_two]
    exact Numeral.denotes_two (Nat.le_refl 16) hhigh hlow
  rw [Nat.div_add_mod'] at hdigits
  have hliteral : IsLiteral (['0', 'x'] ++ ([] ++ Numeral.hex 2 byte.toNat)) byte.toNat :=
    .literal .small (.inl rfl) hdigits (Nat.le_of_lt_succ byte.toNat_lt)
  exact readToken_eq_ok_iff.mpr hliteral

/-- With a mark before each, the digits of the bytes are read as the bytes. -/
theorem mapM_readToken_mark_hex (bytes : List UInt8) :
    ((bytes.map fun b => Numeral.hex 2 b.toNat).map (['0', 'x'] ++ ·)).mapM readToken =
      .ok bytes := by
  rw [exceptMapM_eq_ok_iff, List.forall₂_map_left_iff, List.forall₂_map_left_iff,
    List.forall₂_same]
  exact fun byte _ => readToken_mark_hex byte

/-- **Marks tell the base.** A list in base 16 with a mark before every token is read back. -/
theorem parse_of_spaced_marks {bytes : List UInt8} {t : Text}
    (h : Text.Spaced isSeparator ((tokens (render .hex bytes)).map (['0', 'x'] ++ ·)) t) :
    parse t = .ok bytes ∧ parse ('[' :: (t ++ [']'])) = .ok bytes := by
  rw [tokens_render_hex] at h
  obtain ⟨hbare, hbrackets⟩ := tokens_of_spaced h fun u hu => by
    obtain ⟨v, hv, rfl⟩ := List.mem_map.mp hu
    obtain ⟨byte, -, rfl⟩ := List.mem_map.mp hv
    have hmark : ∀ c ∈ ['0', 'x'], isSeparator c = false ∧ c ≠ '[' := by
      rw [List.forall_mem_cons, List.forall_mem_singleton]
      decide
    exact ⟨List.cons_ne_nil _ _, List.forall_mem_append.mpr ⟨hmark, (plain_hex byte).2⟩⟩
  rw [parse, parse, hbare, hbrackets]
  exact ⟨mapM_readToken_mark_hex bytes, mapM_readToken_mark_hex bytes⟩

/-- **Lists that are shown can be read back.** In decimal a list is read back as it stands. In base
16 it is read back with a mark before every token, and any separators between them, in brackets or
not. So no two lists are shown alike. -/
theorem parse_render_and_spaced (bytes : List UInt8) :
    parse (render .decimal bytes) = .ok bytes ∧
      (∀ t, Text.Spaced isSeparator ((tokens (render .hex bytes)).map (['0', 'x'] ++ ·)) t →
        parse t = .ok bytes ∧ parse ('[' :: (t ++ [']'])) = .ok bytes) ∧
      ∀ format other, render format other = render format bytes → other = bytes := by
  have hdecimal : ∀ bytes, parse (render .decimal bytes) = .ok bytes := fun bytes => by
    have hback := parse_render_decimal (List.forall_mem_nil _) bytes
    rwa [List.append_nil] at hback
  refine ⟨hdecimal bytes, fun t => parse_of_spaced_marks, fun format other h => ?_⟩
  cases format with
  | decimal =>
    have hback := hdecimal other
    rw [h, hdecimal bytes] at hback
    exact (Except.ok.inj hback).symm
  | hex =>
    -- the same tokens, and so the same list with marks
    have htokens := congrArg tokens h
    rw [tokens_render_hex, tokens_render_hex] at htokens
    have hback := mapM_readToken_mark_hex other
    rw [htokens, mapM_readToken_mark_hex] at hback
    exact (Except.ok.inj hback).symm

/-- The bytes of the euro sign, in decimal, and with marks and several separators between them. -/
theorem parse_render_and_spaced_euro :
    parse (render .decimal [226, 130, 172]) = .ok [226, 130, 172] ∧
      parse "0xe2,\t 0x82 ,0xac".toList = .ok [226, 130, 172] ∧
      parse "[0xe2,\t 0x82 ,0xac]".toList = .ok [226, 130, 172] := by
  obtain ⟨hdecimal, hspaced, -⟩ := parse_render_and_spaced [226, 130, 172]
  have htext : Text.Spaced isSeparator
      ((tokens (render .hex [226, 130, 172])).map (['0', 'x'] ++ ·))
      "0xe2,\t 0x82 ,0xac".toList := by
    have hfirst : ∀ c ∈ [',', '\t', ' '], isSeparator c = true := List.all_eq_true.mp rfl
    have hsecond : ∀ c ∈ [' ', ','], isSeparator c = true := List.all_eq_true.mp rfl
    have hlast : Text.Spaced isSeparator [['0', 'x', '8', '2'], ['0', 'x', 'a', 'c']]
        (['0', 'x', '8', '2'] ++ ([' ', ','] ++ ['0', 'x', 'a', 'c'])) :=
      .cons hsecond (by decide) .singleton
    exact .cons hfirst (by decide) hlast
  exact ⟨hdecimal, hspaced _ htext⟩

-- ---------------------------------------------------------------------------
-- Without marks
-- ---------------------------------------------------------------------------

/-- The digits of the byte in base 16 are digits of base 10 as well. -/
def HasDecimalDigits (byte : UInt8) : Prop :=
  byte.toNat / 16 ≤ 9 ∧ byte.toNat % 16 ≤ 9

/-- The number with the digits of the byte in base 16, in base 10. -/
def decimalReading (byte : UInt8) : Nat :=
  10 * (byte.toNat / 16) + byte.toNat % 16

/-- A literal without signs and letters of marks is a numeral in base 10. -/
theorem IsLiteral.denotes_of_notMem {token : Text} {n : Nat} (h : IsLiteral token n)
    (hplus : '+' ∉ token) (hsmall : 'x' ∉ token) (hcapital : 'X' ∉ token) :
    Numeral.Denotes 10 token n := by
  obtain ⟨hmark, hsign, hdigits, -⟩ := h
  cases hmark with
  | none =>
    rcases hsign with rfl | rfl
    · exact hdigits
    · exact absurd (by simp) hplus
  | small => exact absurd (by simp) hsmall
  | capital => exact absurd (by simp) hcapital

/-- **Without a mark two digits of base 16 are read in base 10**, if they can be. -/
theorem readToken_hex_eq_ok_iff {byte read : UInt8} :
    readToken (Numeral.hex 2 byte.toNat) = .ok read ↔
      HasDecimalDigits byte ∧ decimalReading byte = read.toNat := by
  rw [readToken_eq_ok_iff]
  constructor
  · intro h
    -- there is neither mark nor sign, so the digits are those of a decimal numeral
    have hdenotes := h.denotes_of_notMem (notMem_hex byte (by decide))
      (notMem_hex byte (by decide)) (notMem_hex byte (by decide))
    rw [Numeral.hex_two] at hdenotes
    obtain ⟨_, hfirst⟩ := hdenotes.exists_digit (List.mem_cons_self ..)
    obtain ⟨_, hsecond⟩ := hdenotes.exists_digit (List.mem_cons_of_mem _ (List.mem_cons_self ..))
    have hfirst := Numeral.lt_of_isDigit_digitChar (Numeral.hexDigits_lt byte).1 hfirst
    have hsecond := Numeral.lt_of_isDigit_digitChar (Numeral.hexDigits_lt byte).2 hsecond
    have hvalue := (Numeral.denotes_two (by decide) hfirst hsecond).unique hdenotes
    rw [Nat.mul_comm] at hvalue
    exact ⟨⟨Nat.le_of_lt_succ hfirst, Nat.le_of_lt_succ hsecond⟩, hvalue⟩
  · rintro ⟨⟨hfirst, hsecond⟩, hvalue⟩
    have hdenotes : Numeral.Denotes 10 (Numeral.hex 2 byte.toNat)
        (byte.toNat / 16 * 10 + byte.toNat % 16) := by
      rw [Numeral.hex_two]
      exact Numeral.denotes_two (by decide) (Nat.lt_succ_of_le hfirst) (Nat.lt_succ_of_le hsecond)
    rw [Nat.mul_comm, ← decimalReading, hvalue] at hdenotes
    have hliteral : IsLiteral ([] ++ ([] ++ Numeral.hex 2 byte.toNat)) read.toNat :=
      .literal .none (.inl rfl) hdenotes (Nat.le_of_lt_succ read.toNat_lt)
    exact hliteral

/-- Two digits of base 10 are below 256. -/
theorem HasDecimalDigits.decimalReading_lt {byte : UInt8} (h : HasDecimalDigits byte) :
    decimalReading byte < 256 := by
  obtain ⟨hfirst, hsecond⟩ := h
  rw [decimalReading]
  omega

/-- The digits of a byte are read in base 10 if they are digits of it. -/
theorem exists_readToken_hex_iff {byte : UInt8} :
    (∃ read, readToken (Numeral.hex 2 byte.toNat) = .ok read) ↔ HasDecimalDigits byte := by
  constructor
  · rintro ⟨read, h⟩
    exact (readToken_hex_eq_ok_iff.mp h).1
  · intro h
    have hread := UInt8.toNat_ofNat_of_lt' h.decimalReading_lt
    exact ⟨UInt8.ofNat (decimalReading byte), readToken_hex_eq_ok_iff.mpr ⟨h, hread.symm⟩⟩

/-- Otherwise the error shows both digits. -/
theorem readToken_hex_eq_error_iff {byte : UInt8} {e : CodecError} :
    readToken (Numeral.hex 2 byte.toNat) = .error e ↔ ¬ HasDecimalDigits byte ∧
      e = .invalidByteLiteral
        [Nat.digitChar (byte.toNat / 16), Nat.digitChar (byte.toNat % 16)] := by
  rw [readToken_eq_error_iff, ← exists_readToken_iff, exists_readToken_hex_iff, Numeral.hex_two]

/-- Only the bytes up to 9 have the same digits in both bases. -/
theorem decimalReading_eq_iff {byte : UInt8} :
    (HasDecimalDigits byte ∧ decimalReading byte = byte.toNat) ↔ byte.toNat ≤ 9 := by
  rw [HasDecimalDigits, decimalReading]
  omega

/-- Reading a list in base 16 reads the digits of its bytes one after the other. -/
theorem parse_render_hex (bytes : List UInt8) :
    parse (render .hex bytes) = bytes.mapM fun b => readToken (Numeral.hex 2 b.toNat) := by
  rw [parse, tokens_render_hex, List.mapM_map]
  rfl

/-- A list in base 16 is read if all digits are of base 10, and each byte becomes the number with
its digits. -/
theorem parse_render_hex_eq_ok_iff {bytes read : List UInt8} :
    parse (render .hex bytes) = .ok read ↔
      (∀ b ∈ bytes, HasDecimalDigits b) ∧ bytes.map decimalReading = read.map UInt8.toNat := by
  have hvalues : List.Forall₂ (fun b r => decimalReading b = r.toNat) bytes read ↔
      bytes.map decimalReading = read.map UInt8.toNat := by
    rw [← List.forall₂_eq_eq_eq, List.forall₂_map_left_iff, List.forall₂_map_right_iff]
  rw [parse_render_hex, exceptMapM_eq_ok_iff, ← hvalues, ← List.forall₂_and_left]
  simp only [readToken_hex_eq_ok_iff]

/-- **A list in base 16 without marks is read in base 10.** That is possible if all the digits are
digits of base 10, and each byte becomes the number with its digits; the list comes back if there
are no bytes above 9. Otherwise the error is the first byte with a letter. -/
theorem parse_render_hex_iff (bytes : List UInt8) :
    ((∃ read, parse (render .hex bytes) = .ok read) ↔ ∀ b ∈ bytes, HasDecimalDigits b) ∧
      (∀ read, parse (render .hex bytes) = .ok read ↔
        (∀ b ∈ bytes, HasDecimalDigits b) ∧
          bytes.map decimalReading = read.map UInt8.toNat) ∧
      (parse (render .hex bytes) = .ok bytes ↔ ∀ b ∈ bytes, b.toNat ≤ 9) ∧
      (∀ e, parse (render .hex bytes) = .error e ↔ ∃ front b back,
        bytes = front ++ b :: back ∧ (∀ a ∈ front, HasDecimalDigits a) ∧
        ¬ HasDecimalDigits b ∧ e = .invalidByteLiteral
          [Nat.digitChar (b.toNat / 16), Nat.digitChar (b.toNat % 16)]) := by
  -- when it is read, as what, when it comes back, and with which error it is refused
  refine ⟨⟨?_, fun h => ?_⟩, fun read => parse_render_hex_eq_ok_iff, ?_, fun e => ?_⟩
  · rintro ⟨read, h⟩
    exact (parse_render_hex_eq_ok_iff.mp h).1
  · refine ⟨bytes.map fun b => UInt8.ofNat (decimalReading b),
      parse_render_hex_eq_ok_iff.mpr ⟨h, ?_⟩⟩
    rw [List.map_map, List.map_inj_left]
    exact fun b hb => (UInt8.toNat_ofNat_of_lt' (h b hb).decimalReading_lt).symm
  · rw [parse_render_hex_eq_ok_iff, List.map_inj_left, ← forall₂_and]
    simp only [← decimalReading_eq_iff]
  · rw [parse_render_hex, exceptMapM_eq_error_iff]
    simp only [exists_readToken_hex_iff, readToken_hex_eq_error_iff]

/-- The bytes 16 and 153, shown as `10 99`. -/
example : parse (render .hex [0x10, 0x99]) = .ok [10, 99] := by rfl

end ByteList

end BlockExplorer
