/-!
# BlockExplorer — average block interval

The time between two blocks divided by the number of blocks, truncated toward
zero, in the unit of the time stamps.

`AveragesTo` says what such an average is without dividing: so many units for
each block, and a rest that is too short for one unit more. A span back in time
is the same with the other sign, so that the average is always rounded toward
zero. There is one for every span as soon as there is a block (`averagesTo_tdiv`)
and only one (`AveragesTo.eq`), and it lies between zero and the span
(`AveragesTo.between`).
-/

namespace BlockExplorer

/-- The average interval, unless there are no blocks, or the span or the count does not fit a
signed word of 64 bits. -/
def averageBlockInterval (last first : Int64) (count : UInt64) : Option Int64 :=
  let span := last.toInt - first.toInt
  if count = 0 then none
  else if span < Int64.minValue.toInt ∨ Int64.maxValue.toInt < span then none
  else if Int64.maxValue.toInt < count.toNat then none
  else some (Int64.ofInt (span.tdiv count.toNat))

-- ---------------------------------------------------------------------------
-- Averages of a span
-- ---------------------------------------------------------------------------

/-- `AveragesTo count span q`: the span is `q` units for each of `count` blocks, and a rest that is
too short for one unit more. A span back in time is the same with the other sign. -/
inductive AveragesTo (count : Nat) : Int → Int → Prop where
  | forward {each rest : Nat} (short : rest < count) :
    AveragesTo count (each * count + rest : Nat) each
  | backward {each rest : Nat} (short : rest < count) :
    AveragesTo count (-(each * count + rest : Nat)) (-each)

section Averages

variable {count : Nat} {span span' q q' : Int}

/-- A span the other way has the opposite average. -/
theorem AveragesTo.neg (h : AveragesTo count span q) : AveragesTo count (-span) (-q) := by
  cases h with
  | forward short => exact .backward short
  | backward short =>
    rw [Int.neg_neg, Int.neg_neg]
    exact .forward short

/-- Of two lengths that are divided among as many blocks, the longer one does not give less to each.
The rests are shorter than a unit for each, so they do not turn this around. -/
theorem each_le_of_le {each each' rest rest' : Nat} (short' : rest' < count)
    (h : each * count + rest ≤ each' * count + rest') : each ≤ each' := by
  have hbound : each * count < (each' + 1) * count := by
    rw [Nat.succ_mul]
    omega
  exact Nat.le_of_lt_succ (Nat.lt_of_mul_lt_mul_right hbound)

/-- **A longer span does not have a smaller average.** -/
theorem AveragesTo.le_of_le (h : AveragesTo count span q) (h' : AveragesTo count span' q')
    (hle : span ≤ span') : q ≤ q' := by
  cases h with
  | @forward each rest short =>
    cases h' with
    | forward short' => exact Int.ofNat_le.mpr (each_le_of_le short' (Int.ofNat_le.mp hle))
    | @backward each' rest' short' =>
      -- spans on both sides of zero are zero
      have hpos : 0 < count := Nat.zero_lt_of_lt short
      have hspan : each * count + rest ≤ 0 * count + 0 := by
        omega
      have hspan' : each' * count + rest' ≤ 0 * count + 0 := by
        omega
      have heach : each ≤ 0 := each_le_of_le hpos hspan
      have heach' : each' ≤ 0 := each_le_of_le hpos hspan'
      omega
  -- both spans go back: the one that is less far from zero is the larger
  | backward short =>
    cases h' with
    | forward short' => omega
    | backward short' =>
      have heach := each_le_of_le short (Int.ofNat_le.mp (Int.neg_le_neg_iff.mp hle))
      omega

/-- A span has one average. -/
theorem AveragesTo.eq (h : AveragesTo count span q) (h' : AveragesTo count span q') : q = q' :=
  Int.le_antisymm (h.le_of_le h' (Int.le_refl _)) (h'.le_of_le h (Int.le_refl _))

/-- The average lies between zero and the span. -/
theorem AveragesTo.between (h : AveragesTo count span q) :
    0 ≤ q ∧ q ≤ span ∨ span ≤ q ∧ q ≤ 0 := by
  cases h with
  | @forward each rest short =>
    have hle : each ≤ each * count := Nat.le_mul_of_pos_right each (by omega)
    omega
  | @backward each rest short =>
    have hle : each ≤ each * count := Nat.le_mul_of_pos_right each (by omega)
    omega

/-- Division that truncates toward zero gives an average, when there is a block. -/
theorem averagesTo_tdiv (hcount : 0 < count) (span : Int) :
    AveragesTo count span (span.tdiv count) := by
  have hforward : ∀ length : Nat, AveragesTo count length (Int.tdiv length count) := by
    intro length
    have hlength : length / count * count + length % count = length := Nat.div_add_mod' ..
    have haverage : AveragesTo count (length / count * count + length % count : Nat)
        (length / count : Nat) := .forward (Nat.mod_lt length hcount)
    rw [hlength] at haverage
    exact haverage
  -- truncation divides the length of the span and puts its sign back
  rcases Int.natAbs_eq span with hspan | hspan
  · rw [hspan]
    exact hforward _
  · rw [hspan, Int.neg_tdiv]
    exact (hforward _).neg

end Averages

end BlockExplorer
