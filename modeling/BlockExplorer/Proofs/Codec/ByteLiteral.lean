import BlockExplorer.Proofs.Codec.ByteList
import BlockExplorer.Proofs.Request.Spelling
import Mathlib.Data.List.Induction

/-!
# BlockExplorer — the grammar of byte lists

Which texts are byte lists, and of which bytes, said without reading any. A
numeral denotes a natural number of any size (`Denotes`), a byte literal is a
numeral up to 255 with an optional sign, and in base 16 with a mark in front
(`IsLiteral`). The tokens of a text are the maximal runs between commas and
blanks, once the text is trimmed and a pair of brackets around it is taken off
(`IsTokens`).

The reader of numerals refuses exactly those that denote no number up to its
limit, however long they are (`ofText?_eq_some_iff`); so a token is read exactly
when it is a literal, and the first that is none is the error.

Main result: `parse_iff_literals`.
-/

namespace BlockExplorer

-- ---------------------------------------------------------------------------
-- The grammar
-- ---------------------------------------------------------------------------

namespace Numeral

/-- The character is the digit `d` of the base, a letter in either case. -/
def IsDigit (base d : Nat) (c : Char) : Prop :=
  d < base ∧ Percent.HexDigit d c

/-- The digits denote the number, the first of them the most significant. There is at least one,
and there may be zeros in front. -/
inductive Denotes (base : Nat) : Text → Nat → Prop where
  | digit {c : Char} {d : Nat} (h : IsDigit base d c) : Denotes base [c] d
  | concat {t : Text} {n : Nat} {c : Char} {d : Nat} (h : Denotes base t n)
      (hc : IsDigit base d c) : Denotes base (t ++ [c]) (n * base + d)

end Numeral

namespace ByteList

/-- The marks that go before a numeral, for its base. -/
inductive Mark : Nat → Text → Prop where
  | none : Mark 10 []
  | small : Mark 16 ['0', 'x']
  | capital : Mark 16 ['0', 'X']

/-- The token is a mark or none, a plus sign or none, and the digits of a number up to 255. -/
inductive IsLiteral : Text → Nat → Prop where
  | literal {base n : Nat} {mark sign digits : Text} (hmark : Mark base mark)
      (hsign : sign = [] ∨ sign = ['+']) (hdigits : Numeral.Denotes base digits n)
      (hle : n ≤ 255) : IsLiteral (mark ++ (sign ++ digits)) n

/-- The text without the pair of brackets around it, if there is one. -/
inductive Unbracketed : Text → Text → Prop where
  | brackets {inner : Text} : Unbracketed ('[' :: (inner ++ [']'])) inner
  | bare {t : Text} (h : ∀ inner, t ≠ '[' :: (inner ++ [']'])) : Unbracketed t t

/-- The tokens of a text, in order. -/
def IsTokens (t : Text) (us : List Text) : Prop :=
  ∃ trimmed inner, Text.Trims t trimmed ∧ Unbracketed trimmed inner ∧
    Text.Runs isSeparator inner us

end ByteList

-- ---------------------------------------------------------------------------
-- Numerals
-- ---------------------------------------------------------------------------

namespace Numeral

variable {base : Nat}

theorem digit?_eq_some_iff {c : Char} {d : Nat} : digit? base c = some d ↔ IsDigit base d c := by
  rw [digit?, Option.filter_eq_some_iff, Percent.hexDigit?_eq_some_iff, decide_eq_true_iff,
    IsDigit, and_comm]

/-- A numeral has digits only. -/
theorem Denotes.exists_digit {t : Text} {n : Nat} (h : Denotes base t n) {c : Char} (hc : c ∈ t) :
    ∃ d, IsDigit base d c := by
  induction h with
  | digit h =>
    obtain rfl := List.mem_singleton.mp hc
    exact ⟨_, h⟩
  | concat _ hlast ih =>
    rcases List.mem_append.mp hc with hc | hc
    · exact ih hc
    · obtain rfl := List.mem_singleton.mp hc
      exact ⟨_, hlast⟩

theorem Denotes.ne_nil {t : Text} {n : Nat} (h : Denotes base t n) : t ≠ [] := by
  cases h with
  | digit => exact List.cons_ne_nil _ _
  | concat => exact List.append_ne_nil_of_right_ne_nil _ (List.cons_ne_nil _ _)

theorem ofUnsigned?_singleton {c : Char} {d : Nat} (h : IsDigit base d c) :
    ofUnsigned? base [c] = some d := by
  rw [ofUnsigned?, if_neg (List.cons_ne_nil c []), List.mapM_cons, digit?_eq_some_iff.mpr h]
  show some (0 * base + d) = some d
  rw [Nat.zero_mul, Nat.zero_add]

/-- A digit more at the end goes through the digits before it. -/
theorem ofUnsigned?_concat {t : Text} (ht : t ≠ []) (c : Char) :
    ofUnsigned? base (t ++ [c]) =
      (ofUnsigned? base t).bind fun n => (digit? base c).map (n * base + ·) := by
  rw [ofUnsigned?, ofUnsigned?, if_neg ht, if_neg (by simp), List.mapM_append]
  cases t.mapM (digit? base) with
  | none => rfl
  | some digits =>
    cases hd : digit? base c with
    | none => simp [hd]
    | some d => simp [hd, ofDigits_concat]

/-- **A numeral is read as the number that it denotes**, and nothing else is read. -/
theorem ofUnsigned?_eq_some_iff {t : Text} {n : Nat} :
    ofUnsigned? base t = some n ↔ Denotes base t n := by
  constructor
  · intro h
    -- the reader goes from the front, and so the induction takes the last digit off
    induction t using List.reverseRecOn generalizing n with
    | nil => cases h
    | append_singleton t c ih =>
      by_cases ht : t = []
      · subst ht
        rw [List.nil_append] at h ⊢
        cases hd : digit? base c with
        | none => simp [ofUnsigned?, hd] at h
        | some d =>
          have hdigit := digit?_eq_some_iff.mp hd
          rw [ofUnsigned?_singleton hdigit] at h
          obtain rfl := Option.some.inj h
          exact .digit hdigit
      · rw [ofUnsigned?_concat ht] at h
        obtain ⟨m, hm, h⟩ := Option.bind_eq_some_iff.mp h
        obtain ⟨d, hd, rfl⟩ := Option.map_eq_some_iff.mp h
        exact .concat (ih hm) (digit?_eq_some_iff.mp hd)
  · intro h
    induction h with
    | digit h => exact ofUnsigned?_singleton h
    | concat h hc ih =>
      rw [ofUnsigned?_concat h.ne_nil, ih, digit?_eq_some_iff.mpr hc]
      rfl

/-- Digits denote one number only. -/
theorem Denotes.unique {t : Text} {m n : Nat} (hm : Denotes base t m)
    (hn : Denotes base t n) : m = n := by
  have hread := ofUnsigned?_eq_some_iff.mpr hm
  rw [ofUnsigned?_eq_some_iff.mpr hn] at hread
  exact (Option.some.inj hread).symm

theorem Denotes.plus_notMem {t : Text} {n : Nat} (h : Denotes base t n) : '+' ∉ t := by
  intro hc
  obtain ⟨d, -, hd⟩ := h.exists_digit hc
  exact hd.plain (by decide)

/-- **Reading a number with a limit.** An optional plus sign is taken off; the number is exact, and
refused only if it is above the limit. -/
theorem ofText?_eq_some_iff {limit n : Nat} {t : Text} :
    ofText? base limit t = some n ↔ ∃ sign digits, (sign = [] ∨ sign = ['+']) ∧
      t = sign ++ digits ∧ Denotes base digits n ∧ n ≤ limit := by
  -- the limit is looked at after the number is read
  have hfilter : ∀ u, (ofUnsigned? base u).filter (· ≤ limit) = some n ↔
      Denotes base u n ∧ n ≤ limit := fun u => by
    rw [Option.filter_eq_some_iff, ofUnsigned?_eq_some_iff, decide_eq_true_iff]
  have hplus : ∀ u, ofText? base limit ('+' :: u) = (ofUnsigned? base u).filter (· ≤ limit) :=
    fun u => rfl
  constructor
  · intro h
    by_cases ht : ∃ u, t = '+' :: u
    · obtain ⟨u, rfl⟩ := ht
      rw [hplus, hfilter] at h
      exact ⟨['+'], u, .inr rfl, rfl, h⟩
    · have hdrop : Text.dropMark? ['+'] t = none := by
        rw [Text.dropMark?, if_neg]
        rw [List.isPrefixOf_iff_prefix]
        rintro ⟨u, rfl⟩
        exact ht ⟨u, rfl⟩
      rw [ofText?, hdrop, Option.getD_none, hfilter] at h
      exact ⟨[], t, .inl rfl, rfl, h⟩
  · rintro ⟨sign, digits, hsign, rfl, h⟩
    rcases hsign with rfl | rfl
    · rw [List.nil_append, ofText?_of_notMem h.1.plus_notMem, hfilter]
      exact h
    · exact (hplus digits).trans ((hfilter digits).mpr h)

end Numeral

-- ---------------------------------------------------------------------------
-- Literals
-- ---------------------------------------------------------------------------

namespace ByteList

/-- A token has a mark or none, and is read in the base of that. -/
theorem exists_mark (token : Text) :
    ∃ base mark rest, Mark base mark ∧ token = mark ++ rest ∧
      readToken token = ofNumber? token (Numeral.ofText? base 255 rest) := by
  unfold readToken
  split
  · next rest => exact ⟨16, ['0', 'x'], rest, .small, rfl, rfl⟩
  · next rest => exact ⟨16, ['0', 'X'], rest, .capital, rfl, rfl⟩
  · exact ⟨10, [], token, .none, rfl, rfl⟩

/-- The letters of the marks are no digits of base 10, and no sign. -/
theorem notMem_of_denotes {sign digits : Text} {n : Nat} (hsign : sign = [] ∨ sign = ['+'])
    (h : Numeral.Denotes 10 digits n) : 'x' ∉ sign ++ digits ∧ 'X' ∉ sign ++ digits := by
  have hletter : ∀ c, Numeral.hexDigit? c = none → c ∉ digits := by
    intro c hnone hmem
    obtain ⟨d, -, hd⟩ := h.exists_digit hmem
    exact absurd (hnone.symm.trans hd.value) (nomatch ·)
  have hplain : 'x' ∉ sign ∧ 'X' ∉ sign := by
    rcases hsign with rfl | rfl
    all_goals decide
  rw [List.mem_append, List.mem_append, not_or, not_or]
  exact ⟨⟨hplain.1, hletter 'x' rfl⟩, hplain.2, hletter 'X' rfl⟩

/-- A literal is read as its value. -/
theorem readToken_of_isLiteral {token : Text} {n : Nat} (h : IsLiteral token n) :
    readToken token = .ok (UInt8.ofNat n) := by
  obtain ⟨hmark, hsign, hdigits, hle⟩ := h
  have hread := Numeral.ofText?_eq_some_iff.mpr ⟨_, _, hsign, rfl, hdigits, hle⟩
  -- without a mark the reader looks for one first, and finds none
  cases hmark with
  | none =>
    obtain ⟨hsmall, hcapital⟩ := notMem_of_denotes hsign hdigits
    rw [List.nil_append, readToken_of_notMem hsmall hcapital, hread]
    rfl
  | small => exact congrArg (ofNumber? _) hread
  | capital => exact congrArg (ofNumber? _) hread

/-- **A token is read exactly when it is a literal**, as the byte of its value. -/
theorem readToken_eq_ok_iff {token : Text} {byte : UInt8} :
    readToken token = .ok byte ↔ IsLiteral token byte.toNat := by
  constructor
  · intro h
    obtain ⟨base, mark, rest, hmark, rfl, hread⟩ := exists_mark token
    rw [hread] at h
    cases hnumber : Numeral.ofText? base 255 rest with
    | none =>
      rw [hnumber] at h
      cases h
    | some n =>
      rw [hnumber] at h
      obtain ⟨sign, digits, hsign, rfl, hdigits, hle⟩ := Numeral.ofText?_eq_some_iff.mp hnumber
      obtain rfl : UInt8.ofNat n = byte := Except.ok.inj h
      rw [UInt8.toNat_ofNat_of_lt' (Nat.lt_of_le_of_lt hle (by decide))]
      exact .literal hmark hsign hdigits hle
  · intro h
    rw [readToken_of_isLiteral h, UInt8.ofNat_toNat]

/-- The tokens that are read are the literals. -/
theorem exists_readToken_iff {token : Text} :
    (∃ byte, readToken token = .ok byte) ↔ ∃ n, IsLiteral token n := by
  constructor
  · rintro ⟨byte, h⟩
    exact ⟨byte.toNat, readToken_eq_ok_iff.mp h⟩
  · rintro ⟨n, h⟩
    exact ⟨UInt8.ofNat n, readToken_of_isLiteral h⟩

/-- The error of a token that is no literal names the token. -/
theorem readToken_eq_error_iff {token : Text} {e : CodecError} :
    readToken token = .error e ↔
      (¬ ∃ n, IsLiteral token n) ∧ e = .invalidByteLiteral token := by
  obtain ⟨base, mark, rest, hmark, rfl, hread⟩ := exists_mark token
  cases hnumber : Numeral.ofText? base 255 rest with
  | some n =>
    obtain ⟨sign, digits, hsign, rfl, hdigits, hle⟩ := Numeral.ofText?_eq_some_iff.mp hnumber
    rw [hread, hnumber]
    exact ⟨(nomatch ·), fun h => absurd ⟨n, .literal hmark hsign hdigits hle⟩ h.1⟩
  | none =>
    have hnot : ¬ ∃ n, IsLiteral (mark ++ rest) n := by
      rintro ⟨n, hn⟩
      have hok := readToken_of_isLiteral hn
      rw [hread, hnumber] at hok
      cases hok
    rw [hread, hnumber, ofNumber?, Except.error.injEq, eq_comm]
    exact ⟨fun h => ⟨hnot, h⟩, And.right⟩

-- ---------------------------------------------------------------------------
-- Tokens
-- ---------------------------------------------------------------------------

/-- The reader takes off a pair of brackets, and nothing else. -/
theorem body_of_unbracketed {t inner : Text} (h : Unbracketed t inner) : body t = inner := by
  cases h with
  | brackets => exact body_brackets inner
  | bare hbare =>
    unfold body
    split
    · next rest =>
      rw [if_neg]
      intro hlast
      obtain ⟨front, rfl⟩ := List.getLast?_eq_some_iff.mp hlast
      exact hbare front rfl
    · rfl

/-- The text inside brackets is determined. -/
theorem unbracketed_iff {t inner : Text} : Unbracketed t inner ↔ body t = inner := by
  refine ⟨body_of_unbracketed, ?_⟩
  rintro rfl
  by_cases h : ∃ inner, t = '[' :: (inner ++ [']'])
  · obtain ⟨inner, rfl⟩ := h
    rw [body_brackets]
    exact .brackets
  · have hbare : Unbracketed t t := .bare fun inner hinner => h ⟨inner, hinner⟩
    rwa [body_of_unbracketed hbare]

/-- **The tokens are the runs** between commas and blanks, in a text that is trimmed first and then
freed of its brackets. -/
theorem isTokens_iff {t : Text} {us : List Text} : IsTokens t us ↔ tokens t = us := by
  simp only [IsTokens, Text.trims_iff, unbracketed_iff, Text.runs_iff]
  constructor
  · rintro ⟨_, _, rfl, rfl, h⟩
    exact h
  · exact fun h => ⟨_, _, rfl, rfl, h⟩

-- ---------------------------------------------------------------------------
-- Whole lists
-- ---------------------------------------------------------------------------

/-- **A byte list is read by its grammar.** Its tokens are determined. If each of them is a literal,
their values are the bytes in order, and the list has no others; if not, the error is the first
token that is none, as it stands. -/
theorem parse_iff_literals (t : Text) :
    ∃ us, (∀ vs, IsTokens t vs ↔ vs = us) ∧
      (∀ bytes, parse t = .ok bytes ↔
        List.Forall₂ (fun u (byte : UInt8) => IsLiteral u byte.toNat) us bytes) ∧
      (∀ e, parse t = .error e ↔ ∃ front u back, us = front ++ u :: back ∧
        (∀ v ∈ front, ∃ n, IsLiteral v n) ∧ (¬ ∃ n, IsLiteral u n) ∧
        e = .invalidByteLiteral u) := by
  refine ⟨tokens t, fun vs => isTokens_iff.trans eq_comm, fun bytes => ?_, fun e => ?_⟩
  · simp only [parse, exceptMapM_eq_ok_iff, readToken_eq_ok_iff]
  · simp only [parse, exceptMapM_eq_error_iff, exists_readToken_iff, readToken_eq_error_iff]

end ByteList

end BlockExplorer
