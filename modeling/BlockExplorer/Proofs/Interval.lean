import BlockExplorer.Interval
import Mathlib.Algebra.Group.Int.Defs
import Mathlib.Algebra.Group.Nat.Defs
import Mathlib.Tactic.ByContra
import Mathlib.Tactic.MkIffOfInductiveProp

/-!
# BlockExplorer — average intervals in exact integers

An average interval is computed on words of 64 bits. Here it is compared with
the exact average of the span (`AveragesTo`). Whether the computation has a
result is decided by the span and the number of blocks (`HasAverage`). The
average itself cannot spoil it: it lies between zero and the span
(`AveragesTo.between`), so it is a word when the span is one.

The words reach from `-2 ^ 63` to `2 ^ 63 - 1`. A span of `-2 ^ 63` is therefore
one that cannot be turned around, and the only one (`isOneWay_iff`).

Main results:

* `averageBlockInterval_eq_some_iff` — the result is the exact average.
* `averagesExactly` — when there is a result, how it follows the later time
  stamp, and what happens when the time stamps change places.
-/

namespace BlockExplorer

-- ---------------------------------------------------------------------------
-- Words
-- ---------------------------------------------------------------------------

/-- The integer is a signed word of 64 bits. -/
def IsWord (n : Int) : Prop :=
  -2 ^ 63 ≤ n ∧ n ≤ 2 ^ 63 - 1

/-- **The average of a span that is a word is a word.** -/
theorem AveragesTo.isWord {count : Nat} {span q : Int} (h : AveragesTo count span q)
    (hspan : IsWord span) : IsWord q := by
  unfold IsWord at *
  have hbetween := h.between
  omega

-- ---------------------------------------------------------------------------
-- The computation on words
-- ---------------------------------------------------------------------------

/-- There are blocks, and the number of blocks and the span are signed words. -/
@[mk_iff]
structure HasAverage (span : Int) (count : Nat) : Prop where
  one_le_count : 1 ≤ count
  count_le : count ≤ 2 ^ 63 - 1
  isWord_span : IsWord span

section Words

variable {last first : Int64} {count : UInt64} {a : Int64}

/-- Where there is an average, the computation is that of the exact quotient. -/
theorem averageBlockInterval_of_hasAverage
    (h : HasAverage (last.toInt - first.toInt) count.toNat) :
    averageBlockInterval last first count =
      some (Int64.ofInt ((last.toInt - first.toInt).tdiv count.toNat)) := by
  obtain ⟨hcount, hcount_le, hlow, hhigh⟩ := h
  have hzero : count ≠ 0 := by
    rintro rfl
    exact absurd hcount (by decide)
  unfold averageBlockInterval
  rw [Int64.toInt_minValue, Int64.toInt_maxValue, if_neg hzero, if_neg (by omega),
    if_neg (by omega)]

/-- Where there is none, one of the checks before the division fails. -/
theorem averageBlockInterval_of_not_hasAverage
    (h : ¬ HasAverage (last.toInt - first.toInt) count.toNat) :
    averageBlockInterval last first count = none := by
  unfold averageBlockInterval
  dsimp only
  rw [Int64.toInt_minValue, Int64.toInt_maxValue]
  by_cases hzero : count = 0
  · exact if_pos hzero
  rw [if_neg hzero]
  by_cases hspan : last.toInt - first.toInt < -2 ^ 63 ∨ 2 ^ 63 - 1 < last.toInt - first.toInt
  · exact if_pos hspan
  rw [if_neg hspan]
  -- the span is in order, so that the number of blocks is not
  refine if_pos ?_
  by_contra hcount
  have hpos : count.toNat ≠ 0 := fun heq => hzero (UInt64.toNat_inj.mp heq)
  exact h ⟨by omega, by omega, by omega, by omega⟩

/-- **The computation gives the exact average, where there is one.** -/
theorem averageBlockInterval_eq_some_iff :
    averageBlockInterval last first count = some a ↔
      HasAverage (last.toInt - first.toInt) count.toNat ∧
        AveragesTo count.toNat (last.toInt - first.toInt) a.toInt := by
  by_cases h : HasAverage (last.toInt - first.toInt) count.toNat
  · have haverage := averagesTo_tdiv h.one_le_count (last.toInt - first.toInt)
    obtain ⟨hlow, hhigh⟩ := haverage.isWord h.isWord_span
    -- no bit of the average is lost
    have hword := Int64.toInt_ofInt_of_le hlow (Int.lt_of_le_sub_one hhigh)
    rw [averageBlockInterval_of_hasAverage h, Option.some.injEq, and_iff_right h,
      ← Int64.toInt_inj, hword]
    constructor
    · intro heq
      exact heq ▸ haverage
    · exact haverage.eq
  · rw [averageBlockInterval_of_not_hasAverage h]
    exact iff_of_false (nomatch ·) fun hsome => h hsome.1

theorem averageBlockInterval_eq_none_iff :
    averageBlockInterval last first count = none ↔
      ¬ HasAverage (last.toInt - first.toInt) count.toNat := by
  constructor
  · intro hnone h
    rw [averageBlockInterval_of_hasAverage h] at hnone
    cases hnone
  · exact averageBlockInterval_of_not_hasAverage

end Words

-- ---------------------------------------------------------------------------
-- Other time stamps
-- ---------------------------------------------------------------------------

/-- The span is a word in one direction only, and nothing else is in the way of an average. -/
def IsOneWay (span : Int) (count : Nat) : Prop :=
  (span = 2 ^ 63 ∨ span = -2 ^ 63) ∧ 1 ≤ count ∧ count ≤ 2 ^ 63 - 1

/-- A span goes one way when it has an average in that direction alone. -/
theorem isOneWay_iff {span : Int} {count : Nat} :
    IsOneWay span count ↔ ¬ (HasAverage span count ↔ HasAverage (-span) count) := by
  rw [hasAverage_iff, hasAverage_iff]
  unfold IsOneWay IsWord
  omega

/-- The results for a span and for the span back are opposite numbers, or both are missing. -/
def Opposite : Option Int64 → Option Int64 → Prop
  | some a, some b => b.toInt = -a.toInt
  | none, none => True
  | _, _ => False

theorem Opposite.eq_none_iff {x y : Option Int64} (h : Opposite x y) : x = none ↔ y = none := by
  cases x with
  | none =>
    cases y with
    | none => exact Iff.rfl
    | some b => cases h
  | some a =>
    cases y with
    | none => cases h
    | some b => exact iff_of_false (nomatch ·) (nomatch ·)

section Swapped

variable {last first : Int64} {count : UInt64}

theorem averageBlockInterval_ne_none_iff :
    averageBlockInterval last first count ≠ none ↔
      HasAverage (last.toInt - first.toInt) count.toNat := by
  rw [Ne, averageBlockInterval_eq_none_iff, Classical.not_not]

/-- The span back is that of the time stamps in each other's places. -/
theorem hasAverage_neg_iff :
    HasAverage (-(last.toInt - first.toInt)) count.toNat ↔
      averageBlockInterval first last count ≠ none := by
  rw [Int.neg_sub, averageBlockInterval_ne_none_iff]

/-- A span goes one way when one of its directions has a result and the other has none. -/
theorem isOneWay_iff_eq_none :
    IsOneWay (last.toInt - first.toInt) count.toNat ↔
      (averageBlockInterval last first count = none ↔
        averageBlockInterval first last count ≠ none) := by
  rw [isOneWay_iff, hasAverage_neg_iff, averageBlockInterval_eq_none_iff, Classical.not_iff]

/-- **Changing the places of the time stamps gives the opposite**, or leaves nothing as it was. -/
theorem opposite_iff_not_isOneWay :
    Opposite (averageBlockInterval last first count) (averageBlockInterval first last count) ↔
      ¬ IsOneWay (last.toInt - first.toInt) count.toNat := by
  constructor
  · intro hopposite honeway
    rw [isOneWay_iff_eq_none, hopposite.eq_none_iff] at honeway
    exact iff_not_self honeway
  · intro honeway
    rw [isOneWay_iff, Classical.not_not, hasAverage_neg_iff] at honeway
    -- both directions have a result, or neither has
    cases hforth : averageBlockInterval last first count with
    | none =>
      rw [averageBlockInterval_eq_none_iff, honeway, Classical.not_not] at hforth
      rw [hforth]
      trivial
    | some a =>
      obtain ⟨hhas, ha⟩ := averageBlockInterval_eq_some_iff.mp hforth
      obtain ⟨b, hback⟩ := Option.ne_none_iff_exists'.mp (honeway.mp hhas)
      have hb := (averageBlockInterval_eq_some_iff.mp hback).2
      rw [← Int.neg_sub] at hb
      rw [hback]
      exact hb.eq ha.neg

end Swapped

/-- How the average interval of two time stamps stands to exact integers, and to the average
intervals of other time stamps. -/
structure AveragesExactly (last first : Int64) (count : UInt64) : Prop where
  /-- There is none without blocks, for too many blocks, and for a span that is no word. -/
  none_iff : averageBlockInterval last first count = none ↔
    count.toNat = 0 ∨ 2 ^ 63 - 1 < count.toNat ∨ ¬ IsWord (last.toInt - first.toInt)
  /-- Otherwise it is the exact average, rounded toward zero. -/
  some_iff : ∀ a, averageBlockInterval last first count = some a ↔
    averageBlockInterval last first count ≠ none ∧
      AveragesTo count.toNat (last.toInt - first.toInt) a.toInt
  /-- The exact average is a word. -/
  fits : ∀ q, averageBlockInterval last first count ≠ none →
    AveragesTo count.toNat (last.toInt - first.toInt) q → IsWord q
  /-- It does not become smaller when the last block comes later. -/
  mono : ∀ later a b, last ≤ later → averageBlockInterval last first count = some a →
    averageBlockInterval later first count = some b → a ≤ b
  /-- It becomes the opposite when the time stamps change places, but for spans of one way. -/
  opposite_iff : Opposite (averageBlockInterval last first count)
      (averageBlockInterval first last count) ↔
    ¬ IsOneWay (last.toInt - first.toInt) count.toNat
  /-- For these there is a result in one direction and none in the other. -/
  oneWay_iff : IsOneWay (last.toInt - first.toInt) count.toNat ↔
    (averageBlockInterval last first count = none ↔
      averageBlockInterval first last count ≠ none)

/-- **Average intervals are exact.** Words of 64 bits lose nothing of the average, whatever the
time stamps and the number of blocks, and leave it out only when one of the numbers it is made of
is no word. -/
theorem averagesExactly (last first : Int64) (count : UInt64) :
    AveragesExactly last first count where
  none_iff := by
    rw [averageBlockInterval_eq_none_iff, hasAverage_iff]
    unfold IsWord
    omega
  some_iff a := by
    rw [averageBlockInterval_eq_some_iff, averageBlockInterval_ne_none_iff]
  fits q h haverage := haverage.isWord (averageBlockInterval_ne_none_iff.mp h).isWord_span
  mono later a b hlater ha hb := by
    have ha' := (averageBlockInterval_eq_some_iff.mp ha).2
    have hb' := (averageBlockInterval_eq_some_iff.mp hb).2
    rw [Int64.le_iff_toInt_le] at hlater ⊢
    exact ha'.le_of_le hb' (Int.sub_le_sub_right hlater _)
  opposite_iff := opposite_iff_not_isOneWay
  oneWay_iff := isOneWay_iff_eq_none

/-- The longest span back in time has an average, and the same span forward has none. -/
example : averageBlockInterval Int64.minValue 0 1 = some Int64.minValue ∧
    averageBlockInterval 0 Int64.minValue 1 = none := by
  decide

end BlockExplorer
