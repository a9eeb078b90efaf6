import Mathlib.Data.List.Forall2
import BlockExplorer.Proofs.Codec.RoundTrip
import BlockExplorer.Proofs.Request.Percent
import BlockExplorer.Proofs.Request.Reading

/-!
# BlockExplorer — spellings of a query

A text can be written as a raw value in many ways: character by character,
either as it is, or as a plus sign for a space, or with an escape for each of
its bytes. `WritesText` says which raw values write a text, without computing
any. All of them are read alike: the check for malformed escapes passes over
them, and the bytes that are left after decoding are those of the text. Both are
said with arbitrary bytes behind the spelling (`ReadsAs`), so that spellings may
be put one after the other.

Main results:

* `decodeValue_of_writesText` — every spelling of a text decodes to it.
* `parse_join_of_writesPairs` — a query that is put together from spellings is
  read as the last value of each key.
-/

namespace BlockExplorer

-- ---------------------------------------------------------------------------
-- Spellings
-- ---------------------------------------------------------------------------

namespace Percent

/-- The character is the digit `n` of base 16, as a small or as a capital letter. -/
def HexDigit (n : Nat) (c : Char) : Prop :=
  "0123456789abcdef".toList[n]? = some c ∨ "0123456789ABCDEF".toList[n]? = some c

/-- An escape of a byte. -/
inductive WritesByte (byte : UInt8) : Text → Prop where
  | escape {high low : Char} (hhigh : HexDigit (byte.toNat / 16) high)
      (hlow : HexDigit (byte.toNat % 16) low) : WritesByte byte ['%', high, low]

/-- The ways to write a character. -/
inductive WritesChar : Char → Text → Prop where
  | literal {c : Char} (hc : c ∉ ['%', '+', '&', '=']) : WritesChar c [c]
  | plus : WritesChar ' ' ['+']
  | escapes {c : Char} {raws : List Text}
      (h : List.Forall₂ WritesByte (encodeChar c) raws) : WritesChar c raws.flatten

/-- The raw value writes the text, each of its characters in some way. -/
inductive WritesText : Text → Text → Prop where
  | nil : WritesText [] []
  | cons {c : Char} {t raw raws : Text} (hc : WritesChar c raw) (h : WritesText t raws) :
      WritesText (c :: t) (raw ++ raws)

end Percent

namespace Query

/-- The piece writes the pair of a key, which is not on the list, and a value. -/
inductive WritesPair (redacted : List Text) : Text × Text → Text → Prop where
  | pair {key value raw : Text} (hfree : '&' ∉ key ∧ '=' ∉ key) (hkey : key ∉ redacted)
      (hraw : Percent.WritesText value raw) : WritesPair redacted (key, value) (key ++ '=' :: raw)

end Query

namespace Percent

/-- A digit is read as its value. -/
theorem HexDigit.value {n : Nat} {c : Char} (h : HexDigit n c) :
    Numeral.hexDigit? c = some n := by
  have hsmall : ∀ p ∈ "0123456789abcdef".toList.zipIdx, Numeral.hexDigit? p.1 = some p.2 := by
    decide
  have hcapital : ∀ p ∈ "0123456789ABCDEF".toList.zipIdx, Numeral.hexDigit? p.1 = some p.2 := by
    decide
  rcases h with h | h
  · exact hsmall _ (List.mk_mem_zipIdx_iff_getElem?.mpr h)
  · exact hcapital _ (List.mk_mem_zipIdx_iff_getElem?.mpr h)

theorem HexDigit.plain {n : Nat} {c : Char} (h : HexDigit n c) : c ∉ ['%', '+', '&', '='] :=
  (ascii_of_hexDigit? h.value).2

/-- The digits that are read are the digits. -/
theorem hexDigit?_eq_some_iff {n : Nat} {c : Char} :
    Numeral.hexDigit? c = some n ↔ HexDigit n c := by
  refine ⟨fun h => ?_, HexDigit.value⟩
  -- a digit is a character of ASCII, and these are few
  have hall : ∀ m < 0x80, ∀ k ∈ Numeral.hexDigit? (Char.ofNat m),
      "0123456789abcdef".toList[k]? = some (Char.ofNat m) ∨
        "0123456789ABCDEF".toList[k]? = some (Char.ofNat m) := by
    decide
  have hlt := (ascii_of_hexDigit? h).1
  rw [← Char.ofNat_toNat c] at h ⊢
  exact hall _ hlt n h

theorem HexDigit.lt {n : Nat} {c : Char} (h : HexDigit n c) : n < 16 := by
  rcases h with h | h
  all_goals exact (List.getElem?_eq_some_iff.mp h).1

-- ---------------------------------------------------------------------------
-- Reading spellings
-- ---------------------------------------------------------------------------

/-- A raw value is read as bytes: whatever stands behind it, it holds no malformed escape, and its
part of the decoded bytes is as given. -/
structure ReadsAs (raw : Text) (bytes : List UInt8) : Prop where
  wellFormed : ∀ offset rest,
    malformed? offset (encode raw ++ rest) = malformed? (offset + (encode raw).length) rest
  decoded    : ∀ rest, decodeBytes (encode (plusToSpace raw) ++ rest) = bytes ++ decodeBytes rest

theorem readsAs_nil : ReadsAs [] [] where
  wellFormed _ _ := rfl
  decoded _ := rfl

/-- What stands one after the other is read one after the other. -/
theorem ReadsAs.append {raw raw' : Text} {bytes bytes' : List UInt8} (h : ReadsAs raw bytes)
    (h' : ReadsAs raw' bytes') : ReadsAs (raw ++ raw') (bytes ++ bytes') where
  wellFormed offset rest := by
    rw [encode_append, List.append_assoc, h.wellFormed, h'.wellFormed, List.length_append,
      Nat.add_assoc]
  decoded rest := by
    rw [plusToSpace, List.map_append, encode_append, List.append_assoc]
    rw [← plusToSpace, ← plusToSpace, h.decoded, h'.decoded, List.append_assoc]

/-- A character that is no `%` is read as the bytes of what it becomes. -/
theorem readsAs_char {c d : Char} (hc : c ≠ '%') (hd : d ≠ '%') (hplus : plusToSpace [c] = [d]) :
    ReadsAs [c] (encodeChar d) where
  wellFormed offset rest := by
    rw [encode_cons, encode_nil, List.append_nil]
    exact malformed?_append_of_notMem (mark_notMem_encodeChar hc) offset rest
  decoded rest := by
    rw [hplus, encode_cons, encode_nil, List.append_nil]
    exact decodeBytes_append_of_notMem (mark_notMem_encodeChar hd) rest

/-- An escape is read as its byte. -/
theorem readsAs_of_writesByte {byte : UInt8} {raw : Text} (h : WritesByte byte raw) :
    ReadsAs raw [byte] := by
  cases h with
  | @escape high low hhigh hlow =>
    obtain ⟨first, henc, hmark, hdigit⟩ := exists_byte_of_hexDigit? hhigh.value
    obtain ⟨second, henc', hmark', hdigit'⟩ := exists_byte_of_hexDigit? hlow.value
    have hoctet := octet?_of_digits hdigit hdigit'
    have hraw : encode ['%', high, low] = [mark, first, second] := by
      rw [encode_cons, encode_cons, encode_cons, henc, henc']
      rfl
    -- neither the `%` nor the digits are plus signs
    have hplain : plusToSpace ['%', high, low] = ['%', high, low] := by
      have hplus := hhigh.plain
      have hplus' := hlow.plain
      apply plusToSpace_of_notMem
      simp only [List.mem_cons, List.not_mem_nil, or_false, not_or] at hplus hplus' ⊢
      exact ⟨by decide, Ne.symm hplus.2.1, Ne.symm hplus'.2.1⟩
    constructor
    · intro offset rest
      rw [hraw]
      exact malformed?_escape hmark hmark' hoctet offset rest
    · intro rest
      rw [hplain, hraw]
      exact decodeBytes_escape hoctet rest

/-- The induction is on the bytes, with one escape for each. -/
theorem readsAs_flatten {bytes : List UInt8} {raws : List Text}
    (h : List.Forall₂ WritesByte bytes raws) : ReadsAs raws.flatten bytes := by
  induction h with
  | nil => exact readsAs_nil
  | cons hbyte _ ih => exact (readsAs_of_writesByte hbyte).append ih

/-- A character is read as its bytes, whichever way it is written. -/
theorem readsAs_of_writesChar {c : Char} {raw : Text} (h : WritesChar c raw) :
    ReadsAs raw (encodeChar c) := by
  cases h with
  | literal hc =>
    simp only [List.mem_cons, not_or] at hc
    exact readsAs_char hc.1 hc.1 (plusToSpace_of_notMem (by simpa using Ne.symm hc.2.1))
  | plus => exact readsAs_char (by decide) (by decide) rfl
  | escapes h => exact readsAs_flatten h

/-- A text is read as its bytes. -/
theorem readsAs_of_writesText {t raw : Text} (h : WritesText t raw) : ReadsAs raw (encode t) := by
  induction h with
  | nil => exact readsAs_nil
  | cons hc _ ih => exact (readsAs_of_writesChar hc).append ih

/-- **Every spelling of a text decodes to it.** -/
theorem decodeValue_of_writesText {t raw : Text} (h : WritesText t raw) (key : Text) :
    (decodeValue key raw).value = .ok t := by
  have hreads := readsAs_of_writesText h
  have hnone : malformed? 0 (encode raw) = none := by
    have := hreads.wellFormed 0 []
    rwa [List.append_nil, malformed?] at this
  have hbytes : decodeBytes (encode (plusToSpace raw)) = encode t := by
    have := hreads.decoded []
    rwa [List.append_nil, decodeBytes, List.append_nil] at this
  rw [decodeValue, hnone]
  simp only [Logged.value_bind, hbytes, decodeStrict_encode, Logged.value_pure]

-- ---------------------------------------------------------------------------
-- Spellings in a query
-- ---------------------------------------------------------------------------

theorem WritesByte.undivided {byte : UInt8} {raw : Text} (h : WritesByte byte raw) :
    '&' ∉ raw ∧ '=' ∉ raw := by
  cases h with
  | escape hhigh hlow =>
    have hhigh := hhigh.plain
    have hlow := hlow.plain
    simp only [List.mem_cons, List.not_mem_nil, or_false, not_or] at hhigh hlow ⊢
    exact ⟨⟨by decide, Ne.symm hhigh.2.2.1, Ne.symm hlow.2.2.1⟩,
      by decide, Ne.symm hhigh.2.2.2, Ne.symm hlow.2.2.2⟩

theorem undivided_append {t u : Text} (ht : '&' ∉ t ∧ '=' ∉ t) (hu : '&' ∉ u ∧ '=' ∉ u) :
    '&' ∉ t ++ u ∧ '=' ∉ t ++ u := by
  rw [List.mem_append, List.mem_append, not_or, not_or]
  exact ⟨⟨ht.1, hu.1⟩, ht.2, hu.2⟩

theorem undivided_flatten {bytes : List UInt8} {raws : List Text}
    (h : List.Forall₂ WritesByte bytes raws) : '&' ∉ raws.flatten ∧ '=' ∉ raws.flatten := by
  induction h with
  | nil => exact ⟨List.not_mem_nil, List.not_mem_nil⟩
  | cons hbyte _ ih => exact undivided_append hbyte.undivided ih

theorem WritesChar.undivided {c : Char} {raw : Text} (h : WritesChar c raw) :
    '&' ∉ raw ∧ '=' ∉ raw := by
  cases h with
  | literal hc =>
    simp only [List.mem_cons, List.not_mem_nil, or_false, not_or] at hc ⊢
    exact ⟨Ne.symm hc.2.2.1, Ne.symm hc.2.2.2⟩
  | plus => decide
  | escapes h => exact undivided_flatten h

/-- No spelling holds a character at which a query is cut. -/
theorem WritesText.undivided {t raw : Text} (h : WritesText t raw) : '&' ∉ raw ∧ '=' ∉ raw := by
  induction h with
  | nil => exact ⟨List.not_mem_nil, List.not_mem_nil⟩
  | cons hc _ ih => exact undivided_append hc.undivided ih

end Percent

namespace Query

variable {redacted : List Text} {ps : List (Text × Text)} {pieces : List Text}

theorem WritesPair.notMem {p : Text × Text} {piece : Text} (h : WritesPair redacted p piece) :
    '&' ∉ piece := by
  cases h with
  | pair hfree _ hraw =>
    have hvalue := hraw.undivided.1
    simp [hfree.1, hvalue]

/-- A piece that writes a pair gives its key and its value back. -/
theorem WritesPair.exists_raw {p : Text × Text} {piece : Text}
    (h : WritesPair redacted p piece) :
    ∃ raw, pair? piece = some (p.1, raw) ∧ (shownValue redacted p.1 raw).value = .ok p.2 := by
  cases h with
  | @pair key value raw hfree hkey hraw =>
    refine ⟨raw, ?_, ?_⟩
    · rw [pair?_append_cons key hraw.undivided.2, if_neg hfree.2]
    · rw [shownValue, if_neg hkey]
      exact Percent.decodeValue_of_writesText hraw key

theorem notMem_of_writesPairs (h : List.Forall₂ (WritesPair redacted) ps pieces) :
    ∀ piece ∈ pieces, '&' ∉ piece := by
  induction h with
  | nil => exact fun _ hpiece => absurd hpiece List.not_mem_nil
  | cons hp _ ih => exact List.forall_mem_cons.mpr ⟨hp.notMem, ih⟩

theorem pairs_join (h : ∀ piece ∈ pieces, '&' ∉ piece) :
    pairs (Text.join ['&'] pieces) = pieces.filterMap pair? := by
  cases pieces with
  | nil => rfl
  | cons piece pieces => rw [pairs, Text.split_join h]

/-- The induction is on the pairs; each sets one more value. -/
theorem collect_of_writesPairs (h : List.Forall₂ (WritesPair redacted) ps pieces)
    (params : Params) :
    (collect redacted (pieces.filterMap pair?) params).value = .ok (params.insertAll ps) := by
  induction h generalizing params with
  | nil => rfl
  | @cons p piece ps pieces hp _ ih =>
    obtain ⟨raw, hpair, hvalue⟩ := hp.exists_raw
    rw [List.filterMap_cons_some hpair, collect_cons_value, hvalue]
    exact ih (params.insert p.1 p.2)

/-- **Reading undoes writing.** A query that is put together from pairs, with any spelling of their
values, is read as the parameters that have the last value of each key and no other key. -/
theorem parse_join_of_writesPairs (h : List.Forall₂ (WritesPair redacted) ps pieces) :
    ∃ params, (parse redacted (Text.join ['&'] pieces)).value = .ok params ∧
      ∀ key, params.get? key = ps.reverse.lookup key := by
  refine ⟨Params.empty.insertAll ps, ?_, fun key => ?_⟩
  · rw [parse, pairs_join (notMem_of_writesPairs h)]
    exact collect_of_writesPairs h Params.empty
  · rw [Params.get?_insertAll, Params.get?_empty, Option.or_none]

/-- A key twice, the first time with a space as a plus sign and an escape in both cases of letters;
the others hold a character as it is and one that has to be escaped. -/
theorem parse_join_of_two_keys :
    List.Forall₂ (WritesPair ["pin".toList])
        [("a".toList, " é".toList), ("b%".toList, "€".toList), ("a".toList, "&".toList)]
        ["a=+%c3%A9".toList, "b%=€".toList, "a=%26".toList] ∧
      ∃ params, (parse ["pin".toList]
          (Text.join ['&'] ["a=+%c3%A9".toList, "b%=€".toList, "a=%26".toList])).value =
            .ok params ∧
        ∀ key, params.get? key =
          [("a".toList, " é".toList), ("b%".toList, "€".toList),
            ("a".toList, "&".toList)].reverse.lookup key := by
  have haccent : Percent.WritesChar 'é' ["%c3".toList, "%A9".toList].flatten :=
    .escapes (.cons (.escape (.inl rfl) (.inl rfl)) (.cons (.escape (.inr rfl) (.inl rfl)) .nil))
  have hampersand : Percent.WritesChar '&' ["%26".toList].flatten :=
    .escapes (.cons (.escape (.inl rfl) (.inl rfl)) .nil)
  have h : List.Forall₂ (WritesPair ["pin".toList])
      [("a".toList, " é".toList), ("b%".toList, "€".toList), ("a".toList, "&".toList)]
      ["a=+%c3%A9".toList, "b%=€".toList, "a=%26".toList] :=
    .cons (.pair (by decide) (by decide) (.cons .plus (.cons haccent .nil))) <|
      .cons (.pair (by decide) (by decide) (.cons (.literal (by decide)) .nil)) <|
      .cons (.pair (by decide) (by decide) (.cons hampersand .nil)) .nil
  exact ⟨h, parse_join_of_writesPairs h⟩

end Query

end BlockExplorer
