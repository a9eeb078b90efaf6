import BlockExplorer.Codec.ByteList
import BlockExplorer.Proofs.Except
import BlockExplorer.Proofs.Text.Numeral
import BlockExplorer.Proofs.Text.Words

/-!
# BlockExplorer — reading byte lists

A byte list in decimal is read back. Blanks around it are trimmed and the
brackets taken off, so that what is left are the numerals with a comma and a
blank between them. No numeral holds a separator (`isSeparator_of_mem_decimal`),
so that the tokens are the numerals, and each denotes its byte.

Main result: `parse_render_decimal`.
-/

namespace BlockExplorer

/-- Blanks around a text that begins and ends with other characters are trimmed, and no more. -/
theorem Text.trim_between {front back : Text} {c d : Char}
    (hfront : ∀ b ∈ front, isBlank b = true) (hback : ∀ b ∈ back, isBlank b = true)
    (hc : isBlank c = false) (hd : isBlank d = false) (inner : Text) :
    trim (front ++ (c :: (inner ++ [d]) ++ back)) = c :: (inner ++ [d]) := by
  refine trim_of_trims ⟨front, back, rfl, hfront, hback, ?_, ?_⟩
  · rintro _ ⟨⟩
    exact hc
  · rw [← List.cons_append, List.getLast?_concat]
    rintro _ ⟨⟩
    exact hd

namespace ByteList

/-- The brackets around a text are taken off. -/
theorem body_brackets (inner : Text) : body ('[' :: (inner ++ [']'])) = inner := by
  simp [body]

theorem isSeparator_of_mem_decimal {n : Nat} {c : Char} (h : c ∈ Numeral.decimal n) :
    isSeparator c = false := by
  obtain ⟨d, hd, rfl⟩ := Numeral.mem_toDigits (by decide) h
  have hall : ∀ d < 10, isSeparator (Nat.digitChar d) = false := by decide
  exact hall d hd

/-- What becomes of a token, by the number that its numeral is read as. -/
def ofNumber? (token : Text) : Option Nat → Except CodecError UInt8
  | some n => .ok (UInt8.ofNat n)
  | none => .error (.invalidByteLiteral token)

/-- A token without the letter of a mark is read in base 10. -/
theorem readToken_of_notMem {token : Text} (hsmall : 'x' ∉ token) (hcapital : 'X' ∉ token) :
    readToken token = ofNumber? token (Numeral.ofText? 10 255 token) := by
  unfold readToken
  split
  · exact absurd (by simp) hsmall
  · exact absurd (by simp) hcapital
  · rfl

/-- A decimal numeral has no mark of base 16, and denotes its byte. -/
theorem readToken_decimal (byte : UInt8) :
    readToken (Numeral.decimal byte.toNat) = .ok byte := by
  -- no digit is the letter of a mark
  have hletter : ∀ c, c.isDigit = false → c ∉ Numeral.decimal byte.toNat := by
    intro c hc hmem
    rw [Nat.isDigit_of_mem_toDigits (by decide) (by decide) hmem] at hc
    cases hc
  have hbyte : Numeral.ofText? 10 255 (Numeral.decimal byte.toNat) = some byte.toNat :=
    Numeral.ofText?_toDigits (by decide) (by decide) (Nat.le_of_lt_succ byte.toNat_lt)
  rw [readToken_of_notMem (hletter 'x' rfl) (hletter 'X' rfl), hbyte]
  exact congrArg Except.ok UInt8.ofNat_toNat

/-- The tokens of a text in brackets are the words inside, also with blanks behind the text. -/
theorem tokens_brackets {back : Text} (hback : ∀ c ∈ back, Text.isBlank c = true)
    (inner : Text) :
    tokens ('[' :: (inner ++ [']']) ++ back) =
      (Text.split isSeparator inner).filter (· ≠ []) := by
  have htrim : Text.trim ('[' :: (inner ++ [']']) ++ back) = '[' :: (inner ++ [']']) :=
    Text.trim_between (List.forall_mem_nil _) hback (by decide) (by decide) inner
  rw [tokens, htrim, body_brackets]

/-- The tokens of a list in decimal are its numerals, also with blanks behind the list. -/
theorem tokens_render_decimal {back : Text} (hback : ∀ c ∈ back, Text.isBlank c = true)
    (bytes : List UInt8) :
    tokens (render .decimal bytes ++ back) = bytes.map fun b => Numeral.decimal b.toNat := by
  have hbetween : ∀ c ∈ [',', ' '], isSeparator c = true := by
    rw [List.forall_mem_cons, List.forall_mem_singleton]
    exact ⟨rfl, rfl⟩
  rw [render, List.append_assoc ['['], List.singleton_append, tokens_brackets hback]
  -- the numerals are words with separators between them
  refine Text.words_of_spaced (Text.spaced_join hbetween (List.cons_ne_nil _ _) _) ?_
  intro u hu
  obtain ⟨b, -, rfl⟩ := List.mem_map.mp hu
  exact ⟨Nat.toDigits_ne_nil, fun c hc => isSeparator_of_mem_decimal hc⟩

/-- **A byte list in decimal is read back**, also with blanks behind it. -/
theorem parse_render_decimal {back : Text} (hback : ∀ c ∈ back, Text.isBlank c = true)
    (bytes : List UInt8) : parse (render .decimal bytes ++ back) = .ok bytes := by
  rw [parse, tokens_render_decimal hback, exceptMapM_eq_ok_iff, List.forall₂_map_left_iff,
    List.forall₂_same]
  exact fun byte _ => readToken_decimal byte

end ByteList

end BlockExplorer
