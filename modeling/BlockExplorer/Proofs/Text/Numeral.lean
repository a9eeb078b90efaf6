import BlockExplorer.Text.Numeral

/-!
# BlockExplorer — reading numerals

Reading undoes writing: the digits of a number in a base of at most 16 denote
it again (`ofUnsigned?_toDigits`). They are digits and nothing else, so that no
sign is taken off them (`ofText?_toDigits`).
-/

namespace BlockExplorer.Numeral

section Digits

variable {base : Nat}

/-- The digit that is written for a value is read as this value. -/
theorem digit?_digitChar (hbase : base ≤ 16) {d : Nat} (hd : d < base) :
    digit? base (Nat.digitChar d) = some d := by
  have hall : ∀ d < 16, hexDigit? (Nat.digitChar d) = some d := by decide
  rw [digit?, hall d (Nat.lt_of_lt_of_le hd hbase), Option.filter_some, decide_eq_true hd]
  rfl

/-- What is written for a number are digits of the base. -/
theorem mem_toDigits (hbase : 1 < base) {n : Nat} {c : Char} (h : c ∈ Nat.toDigits base n) :
    ∃ d < base, c = Nat.digitChar d := by
  induction n using Nat.strongRecOn with
  | ind n ih =>
    -- the induction divides by the base: the last digit is the rest
    by_cases hlt : n < base
    · rw [Nat.toDigits_of_lt_base hlt, List.mem_singleton] at h
      exact ⟨n, hlt, h⟩
    · rw [Nat.toDigits_of_base_le hbase (by omega), List.mem_append, List.mem_singleton] at h
      rcases h with h | h
      · exact ih (n / base) (Nat.div_lt_self (by omega) hbase) h
      · exact ⟨n % base, Nat.mod_lt _ (by omega), h⟩

/-- A digit at the end counts once, and those before it count for a power more. -/
theorem ofDigits_concat (digits : List Nat) (d : Nat) :
    ofDigits base (digits ++ [d]) = ofDigits base digits * base + d :=
  List.foldl_append

/-- The digits of a number are read one by one as those that it was divided into. -/
theorem exists_digits_toDigits (hbase : 1 < base) (hle : base ≤ 16) (n : Nat) :
    ∃ digits, (Nat.toDigits base n).mapM (digit? base) = some digits ∧
      ofDigits base digits = n := by
  induction n using Nat.strongRecOn with
  | ind n ih =>
    -- the last digit is the rest, the digits before it are those of the quotient
    by_cases hlt : n < base
    · refine ⟨[n], ?_, ?_⟩
      · rw [Nat.toDigits_of_lt_base hlt]
        simp [digit?_digitChar hle hlt]
      · show 0 * base + n = n
        omega
    · obtain ⟨digits, hread, hvalue⟩ := ih (n / base) (Nat.div_lt_self (by omega) hbase)
      have hmod : n % base < base := Nat.mod_lt _ (by omega)
      refine ⟨digits ++ [n % base], ?_, ?_⟩
      · rw [Nat.toDigits_of_base_le hbase (by omega), List.mapM_append, hread]
        simp [digit?_digitChar hle hmod]
      · rw [ofDigits_concat, hvalue, Nat.mul_comm]
        exact Nat.div_add_mod n base

/-- The digits of a number are read as the number. -/
theorem ofUnsigned?_toDigits (hbase : 1 < base) (hle : base ≤ 16) (n : Nat) :
    ofUnsigned? base (Nat.toDigits base n) = some n := by
  obtain ⟨digits, hread, hvalue⟩ := exists_digits_toDigits hbase hle n
  rw [ofUnsigned?, if_neg Nat.toDigits_ne_nil, hread, Option.map_some, hvalue]

/-- A text without a plus sign is read as it is. -/
theorem ofText?_of_notMem {t : Text} (h : '+' ∉ t) (limit : Nat) :
    ofText? base limit t = (ofUnsigned? base t).filter (· ≤ limit) := by
  have hdrop : Text.dropMark? ['+'] t = none := by
    cases t with
    | nil => rfl
    | cons c t =>
      rw [Text.dropMark?, if_neg]
      rw [List.isPrefixOf_iff_prefix, List.cons_prefix_cons]
      rintro ⟨rfl, -⟩
      exact h (List.mem_cons_self ..)
  rw [ofText?, hdrop, Option.getD_none]

/-- No digit is a plus sign. -/
theorem plus_notMem_toDigits (hbase : 1 < base) (hle : base ≤ 16) (n : Nat) :
    '+' ∉ Nat.toDigits base n := by
  intro h
  obtain ⟨d, hd, heq⟩ := mem_toDigits hbase h
  have hall : ∀ d < 16, Nat.digitChar d ≠ '+' := by decide
  exact hall d (by omega) heq.symm

/-- **Reading a numeral undoes writing it**, for every number up to the limit. -/
theorem ofText?_toDigits (hbase : 1 < base) (hle : base ≤ 16) {limit n : Nat} (hn : n ≤ limit) :
    ofText? base limit (Nat.toDigits base n) = some n := by
  rw [ofText?_of_notMem (plus_notMem_toDigits hbase hle n), ofUnsigned?_toDigits hbase hle,
    Option.filter_some, decide_eq_true hn]
  rfl

end Digits

end BlockExplorer.Numeral
