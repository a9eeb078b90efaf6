import Mathlib.Data.List.TakeWhile
import BlockExplorer.Proofs.Json.RoundTrip
import BlockExplorer.Proofs.Request.Spelling

/-!
# BlockExplorer — the grammar of documents

Which texts spell a string, a list or an object, said without reading any. A
string has many spellings: a character stands for itself unless it is a quote, a
backslash or a control character, or it is escaped, by a letter, by its number,
or by the numbers of two surrogates. Blanks may stand between any two words.

`Reads` ties a reader to such a relation: the reader accepts exactly the texts
that start, behind blanks, with a spelling, and gives back the value spelled and
the text behind the spelling. Here it is proved of the readers of strings.

Main results:

* `readString_eq_ok_iff` — a string is read exactly when it is spelled, up to its
  closing quote.
* `reads_readText` — the reader of string values accepts exactly the strings.
-/

namespace BlockExplorer.Json

open Percent (HexDigit hexDigit?_eq_some_iff)

-- ---------------------------------------------------------------------------
-- Spellings
-- ---------------------------------------------------------------------------

/-- Blanks between two words of a document. -/
def Blanks (t : Text) : Prop :=
  ∀ c ∈ t, c ∈ [' ', '\n', '\t', '\r']

/-- Four digits of base 16, the first the most significant. -/
inductive FourDigits : Nat → Text → Prop where
  | digits {a b c d : Nat} {p q r s : Char} (hp : HexDigit a p) (hq : HexDigit b q)
      (hr : HexDigit c r) (hs : HexDigit d s) :
      FourDigits (a * 0x1000 + b * 0x100 + c * 0x10 + d) [p, q, r, s]

/-- The letters that escape a character, each with the character. -/
def shortEscapes : List (Char × Char) :=
  [('"', '"'), ('\\', '\\'), ('/', '/'), ('b', '\x08'), ('f', '\x0c'), ('n', '\n'), ('r', '\r'),
   ('t', '\t')]

/-- What may stand behind a backslash for a character. -/
inductive Escapes (c : Char) : Text → Prop where
  | letter {x : Char} (h : (x, c) ∈ shortEscapes) : Escapes c [x]
  | number {digits : Text} (h : FourDigits c.toNat digits) : Escapes c ('u' :: digits)
  | surrogates {high low : Nat} {digits digits' : Text} (hhigh : 0xD800 ≤ high ∧ high < 0xDC00)
      (hlow : 0xDC00 ≤ low ∧ low < 0xE000)
      (hc : c.toNat = 0x10000 + (high - 0xD800) * 0x400 + (low - 0xDC00))
      (h : FourDigits high digits) (h' : FourDigits low digits') :
      Escapes c ('u' :: (digits ++ '\\' :: 'u' :: digits'))

/-- The ways to spell a character of a string. -/
inductive SpellsChar (c : Char) : Text → Prop where
  | plain (hquote : c ≠ '"') (hbackslash : c ≠ '\\') (hcontrol : 0x20 ≤ c.toNat) :
      SpellsChar c [c]
  | escaped {t : Text} (h : Escapes c t) : SpellsChar c ('\\' :: t)

/-- The spelling has the characters of the text, one after the other. -/
inductive SpellsText : Text → Text → Prop where
  | nil : SpellsText [] []
  | cons {c : Char} {value s t : Text} (hc : SpellsChar c s) (h : SpellsText value t) :
      SpellsText (c :: value) (s ++ t)

/-- A string between its quotes. -/
inductive IsString (value : Text) : Text → Prop where
  | quoted {t : Text} (h : SpellsText value t) : IsString value ('"' :: (t ++ ['"']))

/-- A reader of a value accepts exactly what spells one, behind blanks. -/
def Reads {α : Type} (read : Text → Except Fault (α × Text)) (Spells : α → Text → Prop) : Prop :=
  ∀ t value rest, read t = .ok (value, rest) ↔
    ∃ b s, Blanks b ∧ Spells value s ∧ t = b ++ (s ++ rest)

-- ---------------------------------------------------------------------------
-- Blanks
-- ---------------------------------------------------------------------------

theorem isBlank_iff {c : Char} : isBlank c = true ↔ c ∈ [' ', '\n', '\t', '\r'] := by
  simp [isBlank, or_assoc]

theorem blanks_nil : Blanks [] :=
  fun _ h => nomatch h

theorem Blanks.append {b b' : Text} (h : Blanks b) (h' : Blanks b') : Blanks (b ++ b') := by
  intro c hc
  rcases List.mem_append.mp hc with hc | hc
  · exact h c hc
  · exact h' c hc

/-- Blanks at the front are skipped, and what is behind them is looked at as if they were not there.
-/
theorem skipBlanks_append {b : Text} (h : Blanks b) (t : Text) :
    skipBlanks (b ++ t) = skipBlanks t :=
  List.dropWhile_append_of_pos fun c hc => isBlank_iff.mpr (h c hc)

/-- The text before what is left when blanks are skipped. -/
theorem exists_blanks (t : Text) : ∃ b, Blanks b ∧ t = b ++ skipBlanks t := by
  refine ⟨t.takeWhile isBlank, fun c hc => ?_, List.takeWhile_append_dropWhile.symm⟩
  exact isBlank_iff.mp (List.mem_takeWhile_imp hc)

/-- Nothing is left of blanks alone. -/
theorem skipBlanks_eq_nil_iff {t : Text} : skipBlanks t = [] ↔ Blanks t := by
  constructor
  · intro h
    obtain ⟨b, hb, ht⟩ := exists_blanks t
    rw [h, List.append_nil] at ht
    rwa [ht]
  · intro h
    have := skipBlanks_append h []
    rwa [List.append_nil] at this

/-- What is left when blanks are skipped starts with a character that is none. -/
theorem skipBlanks_eq_cons_iff {t r : Text} {c : Char} :
    skipBlanks t = c :: r ↔ isBlank c = false ∧ ∃ b, Blanks b ∧ t = b ++ c :: r := by
  constructor
  · intro h
    have hc : isBlank c = false := by
      -- skipping stops at a character for which the test fails
      have hhead := List.head?_dropWhile_not isBlank t
      rw [show t.dropWhile isBlank = c :: r from h] at hhead
      simpa using hhead
    obtain ⟨b, hb, ht⟩ := exists_blanks t
    rw [h] at ht
    exact ⟨hc, b, hb, ht⟩
  · rintro ⟨hc, b, hb, rfl⟩
    rw [skipBlanks_append hb]
    exact List.dropWhile_cons_of_neg (by simp [hc])

/-- Blanks are skipped up to the first other character. -/
theorem Blanks.skip {b : Text} (hb : Blanks b) {c : Char} (hc : isBlank c = false) (r : Text) :
    skipBlanks (b ++ c :: r) = c :: r :=
  skipBlanks_eq_cons_iff.mpr ⟨hc, b, hb, rfl⟩

-- ---------------------------------------------------------------------------
-- Digits
-- ---------------------------------------------------------------------------

/-- Four digits of base 16 have a number below `0x10000`. -/
theorem FourDigits.lt {n : Nat} {t : Text} (h : FourDigits n t) : n < 0x10000 := by
  cases h with
  | digits hp hq hr hs =>
    have := hp.lt
    have := hq.lt
    have := hr.lt
    have := hs.lt
    omega

theorem FourDigits.length {n : Nat} {t : Text} (h : FourDigits n t) : t.length = 4 := by
  cases h
  rfl

/-- Four digits are read one by one, each with its power of the base. -/
theorem fourDigits?_cons (p q r s : Char) (rest : Text) :
    fourDigits? (p :: q :: r :: s :: rest) =
      (do
        let a ← Numeral.hexDigit? p
        let b ← Numeral.hexDigit? q
        let c ← Numeral.hexDigit? r
        let d ← Numeral.hexDigit? s
        return a * 0x1000 + b * 0x100 + c * 0x10 + d) := by
  have hvalue : ∀ a b c d : Nat,
      Numeral.ofDigits 16 [a, b, c, d] = a * 0x1000 + b * 0x100 + c * 0x10 + d := by
    intro a b c d
    show (((0 * 16 + a) * 16 + b) * 16 + c) * 16 + d = _
    omega
  rw [fourDigits?, List.mapM_cons, List.mapM_cons, List.mapM_cons, List.mapM_cons, List.mapM_nil]
  simp only [map_bind, map_pure, hvalue, bind_assoc, pure_bind, ← Option.map_eq_map]

/-- A number is read from the four digits at the front of a text. -/
theorem readFourDigits_eq_ok_iff {t : Text} {n : Nat} :
    readFourDigits t = .ok n ↔ ∃ digits rest, FourDigits n digits ∧ t = digits ++ rest := by
  constructor
  · intro h
    unfold readFourDigits at h
    split at h
    · next n' hn =>
      cases h
      match t, hn with
      | p :: q :: r :: s :: rest, hn =>
        rw [fourDigits?_cons] at hn
        obtain ⟨a, ha, hn⟩ := Option.bind_eq_some_iff.mp hn
        obtain ⟨b, hb, hn⟩ := Option.bind_eq_some_iff.mp hn
        obtain ⟨c, hc, hn⟩ := Option.bind_eq_some_iff.mp hn
        obtain ⟨d, hd, hn⟩ := Option.bind_eq_some_iff.mp hn
        cases hn
        exact ⟨[p, q, r, s], rest, .digits (hexDigit?_eq_some_iff.mp ha)
          (hexDigit?_eq_some_iff.mp hb) (hexDigit?_eq_some_iff.mp hc)
          (hexDigit?_eq_some_iff.mp hd), rfl⟩
    · cases h
  · rintro ⟨digits, rest, hdigits, rfl⟩
    cases hdigits with
    | digits hp hq hr hs =>
      show readFourDigits (_ :: _ :: _ :: _ :: rest) = _
      rw [readFourDigits, fourDigits?_cons, hp.value, hq.value, hr.value, hs.value]
      rfl

-- ---------------------------------------------------------------------------
-- Escapes
-- ---------------------------------------------------------------------------

theorem isHighSurrogate_iff {n : Nat} : isHighSurrogate n = true ↔ 0xD800 ≤ n ∧ n < 0xDC00 := by
  rw [isHighSurrogate, Bool.and_eq_true, decide_eq_true_eq, decide_eq_true_eq]

theorem isLowSurrogate_iff {n : Nat} : isLowSurrogate n = true ↔ 0xDC00 ≤ n ∧ n < 0xE000 := by
  rw [isLowSurrogate, Bool.and_eq_true, decide_eq_true_eq, decide_eq_true_eq]

/-- The letters that the reader knows are those of the table. -/
theorem shortEscape?_eq_some_iff {x c : Char} :
    shortEscape? x = some c ↔ (x, c) ∈ shortEscapes := by
  constructor
  · intro h
    unfold shortEscape? at h
    split at h
    all_goals cases h
    all_goals decide
  · intro h
    have hall : ∀ p ∈ shortEscapes, shortEscape? p.1 = some p.2 := by decide
    exact hall _ h

/-- The second half of a pair has an escape of its own. -/
theorem readLowSurrogate_eq_ok_iff {t : Text} {low : Nat} :
    readLowSurrogate t = .ok low ↔
      (0xDC00 ≤ low ∧ low < 0xE000) ∧
        ∃ digits rest, FourDigits low digits ∧ t = '\\' :: 'u' :: (digits ++ rest) := by
  constructor
  · intro h
    unfold readLowSurrogate at h
    split at h
    · cases h
    · cases h
    · next t =>
      obtain ⟨n, hn, h⟩ := exceptBind_eq_ok_iff.mp h
      split at h
      · next hlow =>
        cases h
        obtain ⟨digits, rest, hdigits, rfl⟩ := readFourDigits_eq_ok_iff.mp hn
        exact ⟨isLowSurrogate_iff.mp hlow, digits, rest, hdigits, rfl⟩
      · cases h
    · cases h
    · cases h
  · rintro ⟨hlow, digits, rest, hdigits, rfl⟩
    have hread := readFourDigits_eq_ok_iff.mpr ⟨digits, rest, hdigits, rfl⟩
    rw [readLowSurrogate, exceptBind_eq_ok_iff]
    exact ⟨low, hread, if_pos (isLowSurrogate_iff.mpr hlow)⟩

/-- A number that is none of a surrogate is that of a character. -/
theorem toNat_ofNat_of_lt {n : Nat} (h : n < 0xD800 ∨ 0xE000 ≤ n ∧ n < 0x110000) :
    (Char.ofNat n).toNat = n := by
  have hvalid : n.isValidChar := by
    rcases h with h | ⟨h, h'⟩
    · exact .inl h
    · exact .inr ⟨by omega, h'⟩
  rw [Char.ofNat, dif_pos hvalid]
  rfl

/-- No character has the number of a surrogate. -/
theorem not_surrogate (c : Char) :
    ¬ (0xDC00 ≤ c.toNat ∧ c.toNat < 0xE000) ∧ ¬ (0xD800 ≤ c.toNat ∧ c.toNat < 0xDC00) := by
  rcases c.valid with h | ⟨h, _⟩
  · have : c.toNat < 0xD800 := h
    omega
  · have : 0xDFFF < c.toNat := h
    omega

/-- A number escape stands for the character with the number, or its number is the first half of a
pair of surrogates. -/
theorem readEscape_u_eq_ok_iff {t : Text} {c : Char} {n : Nat} :
    readEscape ('u' :: t) = .ok (c, n) ↔
      ∃ m digits rest, FourDigits m digits ∧ t = digits ++ rest ∧
        (c.toNat = m ∧ n = 5 ∨
          (0xD800 ≤ m ∧ m < 0xDC00) ∧
            ∃ low, readLowSurrogate rest = .ok low ∧ c.toNat = combine m low ∧ n = 11) := by
  have hread : readEscape ('u' :: t) = readFourDigits t >>= fun m =>
      if isLowSurrogate m then .error (faultAt .loneSurrogate (t.drop 4))
      else if isHighSurrogate m then
        readLowSurrogate (t.drop 4) >>= fun low => .ok (Char.ofNat (combine m low), 11)
      else .ok (Char.ofNat m, 5) := by
    rw [readEscape]
    cases readFourDigits t with
    | error f => rfl
    | ok m =>
      show (if isLowSurrogate m then _ else _) = (if isLowSurrogate m then _ else _)
      split <;> rfl
  rw [hread, exceptBind_eq_ok_iff]
  constructor
  · rintro ⟨m, hm, h⟩
    obtain ⟨digits, rest, hdigits, rfl⟩ := readFourDigits_eq_ok_iff.mp hm
    have hlt := hdigits.lt
    refine ⟨m, digits, rest, hdigits, rfl, ?_⟩
    -- the number decides: second halves are refused, first halves need another number behind them
    simp only [List.drop_left' hdigits.length, isLowSurrogate_iff, isHighSurrogate_iff] at h
    split at h
    · cases h
    · next hlow =>
      split at h
      · next hhigh =>
        obtain ⟨low, hread, h⟩ := exceptBind_eq_ok_iff.mp h
        have hlow' := (readLowSurrogate_eq_ok_iff.mp hread).1
        -- a pair of halves lies above the surrogates and below the end of the code points
        have hlt' : 0xE000 ≤ combine m low ∧ combine m low < 0x110000 := by
          rw [combine]
          omega
        simp only [Except.ok.injEq, Prod.mk.injEq] at h
        exact .inr ⟨hhigh, low, hread, h.1 ▸ toNat_ofNat_of_lt (.inr hlt'), h.2.symm⟩
      · next hhigh =>
        simp only [Except.ok.injEq, Prod.mk.injEq] at h
        exact .inl ⟨h.1 ▸ toNat_ofNat_of_lt (by omega), h.2.symm⟩
  · rintro ⟨m, digits, rest, hdigits, rfl, h⟩
    refine ⟨m, readFourDigits_eq_ok_iff.mpr ⟨digits, rest, hdigits, rfl⟩, ?_⟩
    simp only [List.drop_left' hdigits.length, isLowSurrogate_iff, isHighSurrogate_iff]
    rcases h with ⟨rfl, rfl⟩ | ⟨hhigh, low, hread, hc, rfl⟩
    · obtain ⟨hlow, hhigh⟩ := not_surrogate c
      rw [if_neg hlow, if_neg hhigh, Char.ofNat_toNat]
    · rw [if_neg (by omega), if_pos hhigh, hread]
      show Except.ok (Char.ofNat (combine m low), 11) = _
      rw [← hc, Char.ofNat_toNat]

/-- Any other letter stands for the character of the table. -/
theorem readEscape_eq_ok_iff_of_ne {x : Char} (hx : x ≠ 'u') {t : Text} {c : Char} {n : Nat} :
    readEscape (x :: t) = .ok (c, n) ↔ (x, c) ∈ shortEscapes ∧ n = 1 := by
  rw [← shortEscape?_eq_some_iff, readEscape]
  · cases shortEscape? x <;> simp [eq_comm]
  · exact hx

/-- **What stands behind a backslash is read exactly when it escapes a character**, whatever stands
behind it. -/
theorem readEscape_eq_ok_iff {t : Text} {c : Char} {n : Nat} :
    readEscape t = .ok (c, n) ↔ ∃ s rest, Escapes c s ∧ s.length = n ∧ t = s ++ rest := by
  constructor
  · intro h
    match t with
    | [] => cases h
    | x :: t =>
      by_cases hx : x = 'u'
      · subst hx
        obtain ⟨m, digits, rest, hdigits, rfl, hcases⟩ := readEscape_u_eq_ok_iff.mp h
        rcases hcases with ⟨hc, rfl⟩ | ⟨hhigh, low, hread, hc, rfl⟩
        · refine ⟨'u' :: digits, rest, .number (hc ▸ hdigits), ?_, rfl⟩
          rw [List.length_cons, hdigits.length]
        · obtain ⟨hlow, digits', rest', hdigits', rfl⟩ := readLowSurrogate_eq_ok_iff.mp hread
          have hvalue : c.toNat = 0x10000 + (m - 0xD800) * 0x400 + (low - 0xDC00) := by
            rw [hc, combine]
            omega
          refine ⟨_, rest', .surrogates hhigh hlow hvalue hdigits hdigits', ?_, ?_⟩
          · simp [hdigits.length, hdigits'.length]
          · simp
      · obtain ⟨hletter, rfl⟩ := (readEscape_eq_ok_iff_of_ne hx).mp h
        exact ⟨[x], t, .letter hletter, rfl, rfl⟩
  · rintro ⟨s, rest, hs, rfl, rfl⟩
    -- a letter, a number, and the numbers of two surrogates
    cases hs with
    | @letter x hletter =>
      have hne : ∀ p ∈ shortEscapes, p.1 ≠ 'u' := by decide
      exact (readEscape_eq_ok_iff_of_ne (hne _ hletter)).mpr ⟨hletter, rfl⟩
    | @number digits hdigits =>
      refine readEscape_u_eq_ok_iff.mpr ⟨_, digits, rest, hdigits, rfl, .inl ⟨rfl, ?_⟩⟩
      rw [List.length_cons, hdigits.length]
    | @surrogates high low digits digits' hhigh hlow hc hdigits hdigits' =>
      have hread : readLowSurrogate ('\\' :: 'u' :: (digits' ++ rest)) = .ok low :=
        readLowSurrogate_eq_ok_iff.mpr ⟨hlow, digits', rest, hdigits', rfl⟩
      have hcombine : c.toNat = combine high low := by
        rw [hc, combine]
        omega
      refine readEscape_u_eq_ok_iff.mpr
        ⟨high, digits, _, hdigits, ?_, .inr ⟨hhigh, low, hread, hcombine, ?_⟩⟩
      · simp
      · simp [hdigits.length, hdigits'.length]

-- ---------------------------------------------------------------------------
-- Strings
-- ---------------------------------------------------------------------------

/-- **A string is read exactly when it is spelled**, up to its closing quote and whatever stands
behind it. -/
theorem readString_eq_ok_iff {t value rest : Text} :
    readString t = .ok (value, rest) ↔ ∃ s, SpellsText value s ∧ t = s ++ '"' :: rest := by
  constructor
  · intro h
    -- one character a step; the branches that succeed are the end, an escape, and a plain character
    fun_induction readString t generalizing value with
    | case2 t =>
      cases h
      exact ⟨[], .nil, rfl⟩
    | case5 t c n hescape v r hr _ ih =>
      cases h
      obtain ⟨s, rest', hs, hn, rfl⟩ := readEscape_eq_ok_iff.mp hescape
      rw [List.drop_left' hn] at ih hr
      obtain ⟨s', hs', rfl⟩ := ih hr
      exact ⟨_, .cons (.escaped hs) hs', by simp⟩
    | case8 c t hquote hbackslash hcontrol v r hr ih =>
      cases h
      obtain ⟨s, hs, rfl⟩ := ih hr
      exact ⟨_, .cons (.plain hquote hbackslash (by omega)) hs, by simp⟩
    -- every other branch is an error
    | _ => cases h
  · rintro ⟨s, hs, rfl⟩
    -- the other way the spelling is followed, one character a step
    induction hs with
    | nil => rw [List.nil_append, readString, if_pos rfl]
    | @cons c value s s' hc hs ih =>
      rw [List.append_assoc]
      cases hc with
      | plain hquote hbackslash hcontrol =>
        rw [List.singleton_append, readString_plain hquote hbackslash (by omega), ih]
        rfl
      | @escaped s hescape =>
        have hread := readEscape_eq_ok_iff.mpr ⟨s, s' ++ '"' :: rest, hescape, rfl, rfl⟩
        rw [List.cons_append, readString_backslash hread, List.drop_left, ih]
        rfl

/-- The reader of string values accepts exactly the strings. -/
theorem reads_readText (expected : String) : Reads (readText expected) IsString := by
  intro t value rest
  constructor
  · intro h
    unfold readText at h
    split at h
    · cases h
    · next r hskip =>
      obtain ⟨-, b, hb, rfl⟩ := skipBlanks_eq_cons_iff.mp hskip
      obtain ⟨s, hs, rfl⟩ := readString_eq_ok_iff.mp h
      exact ⟨b, _, hb, .quoted hs, by simp⟩
    · cases h
  · rintro ⟨b, _, hb, ⟨hs⟩, rfl⟩
    rw [readText, List.cons_append, hb.skip rfl]
    exact readString_eq_ok_iff.mpr ⟨_, hs, by simp⟩

end BlockExplorer.Json
