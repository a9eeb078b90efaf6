import BlockExplorer.Text.Basic

/-!
# BlockExplorer — numerals

Writing and reading whole numbers. A numeral that is read may carry a plus sign
and any number of leading zeros; it is refused when it is empty, holds a
character that is no digit of its base, or denotes a number above a limit.
-/

namespace BlockExplorer.Numeral

/-- The decimal numeral of a number. -/
def decimal (n : Nat) : Text :=
  Nat.toDigits 10 n

/-- The decimal numeral of an integer. -/
def signed (n : Int) : Text :=
  if n < 0 then '-' :: decimal n.natAbs else decimal n.natAbs

/-- The numeral of a number in base 16 with small letters, filled with zeros up to `width`. -/
def hex (width : Nat) (n : Nat) : Text :=
  (Nat.toDigits 16 n).leftpad width '0'

/-- The numeral of a number in base 16 with capital letters, filled with zeros up to `width`. -/
def hexCapital (width : Nat) (n : Nat) : Text :=
  (hex width n).map Char.toUpper

/-- The value of an ASCII digit or letter as a digit of base 16. -/
def hexDigit? (c : Char) : Option Nat :=
  if '0' ≤ c ∧ c ≤ '9' then some (c.toNat - '0'.toNat)
  else if 'a' ≤ c ∧ c ≤ 'f' then some (c.toNat - 'a'.toNat + 10)
  else if 'A' ≤ c ∧ c ≤ 'F' then some (c.toNat - 'A'.toNat + 10)
  else none

/-- The value of a character as a digit of `base`, which is at most 16. -/
def digit? (base : Nat) (c : Char) : Option Nat :=
  (hexDigit? c).filter (· < base)

/-- The value of a list of digits, the first the most significant. -/
def ofDigits (base : Nat) (digits : List Nat) : Nat :=
  digits.foldl (fun value digit => value * base + digit) 0

/-- Reads a nonempty list of digits of `base`. -/
def ofUnsigned? (base : Nat) (t : Text) : Option Nat :=
  if t = [] then none else (t.mapM (digit? base)).map (ofDigits base)

/-- Reads a natural number of at most `limit`, with an optional plus sign. -/
def ofText? (base limit : Nat) (t : Text) : Option Nat :=
  (ofUnsigned? base ((Text.dropMark? ['+'] t).getD t)).filter (· ≤ limit)

/-- The largest integer of 64 bits with a sign. -/
def largestInt64 : Nat := 0x7FFFFFFFFFFFFFFF

/-- The largest natural number of 64 bits. -/
def largestUInt64 : Nat := 0xFFFFFFFFFFFFFFFF

/-- Reads a decimal integer that fits 64 bits with a sign. -/
def int64? (t : Text) : Option Int64 :=
  match t with
  | '-' :: digits =>
    ((ofUnsigned? 10 digits).filter (· ≤ largestInt64 + 1)).map fun n => Int64.ofInt (-n)
  | _ => (ofText? 10 largestInt64 t).map fun n => Int64.ofInt n

/-- Reads a decimal natural number that fits 64 bits. -/
def uint64? (t : Text) : Option UInt64 :=
  (ofText? 10 largestUInt64 t).map UInt64.ofNat

end BlockExplorer.Numeral
