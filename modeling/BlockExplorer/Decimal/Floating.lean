import BlockExplorer.Text.Numeral

/-!
# BlockExplorer — the text of a floating point number

The shortest digits that read back, written out when the exponent of the first
digit is from -5 to 15, and with an explicit signed exponent otherwise.

The shortest digits are those of the decimal with the fewest of them among all
that round to the number. The numbers that round to `m * 2 ^ q` form an interval
around it, whose ends belong to it when `m` is even. For one digit, two digits
and so on the two neighbours of the value on the decimal grid are tried; the
first grid with a neighbour inside the interval gives the digits, the nearer of
two, the even one when both are equally near.
-/

namespace BlockExplorer

-- ---------------------------------------------------------------------------
-- Shortest decimals
-- ---------------------------------------------------------------------------

namespace Shortest

/-- How many decimal digits a number has. -/
def digitCount (n : Nat) : Nat :=
  (Nat.toDigits 10 n).length

/-- The exponent of the first decimal digit of a fraction. -/
def leadingExponent (num den : Nat) : Int :=
  if den ≤ num then digitCount (num / den) - 1
  else -(digitCount ((den + num - 1) / num - 1) : Int)

/-- The number `d * 10 ^ k` as a fraction. -/
def decimalFraction (d : Nat) (k : Int) : Nat × Nat :=
  (d * Nat.pow 10 k.toNat, Nat.pow 10 (-k).toNat)

/-- A fraction and the ends of the interval of those that round to the same number, over one
denominator. -/
structure Interval where
  low : Nat
  value : Nat
  high : Nat
  den : Nat
  /-- The ends belong to the interval. -/
  closed : Bool

/-- The interval of the numbers that round to `m * 2 ^ q`, of which `m` has at most 53 bits. Below
a power of two the neighbour is half as far away. -/
def Interval.ofBinary (m : Nat) (q : Int) : Interval :=
  let scale := Nat.pow 2 (q - 2).toNat
  let down := if m = Nat.pow 2 52 ∧ -1074 < q then 1 else 2
  { low := (4 * m - down) * scale
    value := 4 * m * scale
    high := (4 * m + 2) * scale
    den := Nat.pow 2 (2 - q).toNat
    closed := m % 2 = 0 }

/-- The decimal `d * 10 ^ k` lies in the interval. -/
def Interval.holds (i : Interval) (d : Nat) (k : Int) : Bool :=
  let (n, g) := decimalFraction d k
  if i.closed then i.low * g ≤ n * i.den && n * i.den ≤ i.high * g
  else i.low * g < n * i.den && n * i.den < i.high * g

/-- The digits of a decimal with exponent `k` in the interval, nearest to its value. -/
def Interval.nearest? (i : Interval) (k : Int) : Option Nat :=
  let (one, g) := decimalFraction 1 k
  let below := (i.value * g) / (one * i.den)
  let rest := (i.value * g) % (one * i.den)
  let above := below + 1
  match i.holds below k, i.holds above k with
  | false, false => none
  | true, false => some below
  | false, true => some above
  | true, true =>
    if 2 * rest < one * i.den ∨ (2 * rest = one * i.den ∧ below % 2 = 0) then some below
    else some above

/-- Digits and exponent of the shortest decimal that rounds to `m * 2 ^ q`. -/
def ofBinary (m : Nat) (q : Int) : Nat × Int :=
  let i := Interval.ofBinary m q
  let e := leadingExponent i.value i.den
  let found := (List.range 17).findSome? fun (n : Nat) =>
    let k := e - n
    (i.nearest? k).map fun d => (d, k)
  found.getD (0, 0)

end Shortest

-- ---------------------------------------------------------------------------
-- Text
-- ---------------------------------------------------------------------------

namespace Floating

/-- The significand and the binary exponent in the bits of a finite number. -/
def parts (bits : Nat) : Nat × Int :=
  let fraction := bits % Nat.pow 2 52
  let exponent := bits / Nat.pow 2 52 % Nat.pow 2 11
  if exponent = 0 then (fraction, -1074)
  else (Nat.pow 2 52 + fraction, (exponent : Int) - 1075)

/-- The digits without the zeros at their end, and the exponent of the first digit. -/
def significant (d : Nat) (k : Int) : Text × Int :=
  let digits := Numeral.decimal d
  ((digits.reverse.dropWhile (· = '0')).reverse, k + digits.length - 1)

/-- Numbers whose first digit has an exponent in this range are written out. -/
def writtenOut (e : Int) : Bool :=
  -5 ≤ e && e ≤ 15

/-- Digits of which the first has exponent `e`, written out. -/
def positional (digits : Text) (e : Int) : Text :=
  if e < 0 then
    "0.".toList ++ List.replicate ((-e).toNat - 1) '0' ++ digits
  else if digits.length ≤ e.toNat + 1 then
    digits.rightpad (e.toNat + 1) '0' ++ ".0".toList
  else
    digits.take (e.toNat + 1) ++ ['.'] ++ digits.drop (e.toNat + 1)

/-- Digits of which the first has exponent `e`, with the exponent after them. -/
def scientific (digits : Text) (e : Int) : Text :=
  digits.take 1 ++ (if digits.length ≤ 1 then [] else ['.'] ++ digits.drop 1) ++
    (if e < 0 then "e-".toList else "e+".toList) ++ Numeral.decimal e.natAbs

/-- The text of a finite number. -/
def render (x : Float) : Text :=
  let bits := x.toBits.toNat
  let sign := if Nat.pow 2 63 ≤ bits then ['-'] else []
  let (m, q) := parts bits
  if m = 0 then sign ++ "0.0".toList
  else
    let (d, k) := Shortest.ofBinary m q
    let (digits, e) := significant d k
    sign ++ if writtenOut e then positional digits e else scientific digits e

end Floating

end BlockExplorer
