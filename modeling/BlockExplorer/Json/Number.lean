import BlockExplorer.Json.Fault

/-!
# BlockExplorer — numbers in documents

A number is kept whole as long as it fits 64 bits. One with a fraction or an
exponent, or one too large, is floating point: its first digits that fit 64
bits, scaled by a power of ten in floating point arithmetic. A number too large
for that is refused.
-/

namespace BlockExplorer.Json

/-- Adds decimal digits to a value as long as it stays within `limit`; the rest is left. -/
def absorb (limit value : Nat) : List Nat → Nat × List Nat
  | [] => (value, [])
  | d :: ds =>
    if value * 10 + d ≤ limit then absorb limit (value * 10 + d) ds else (value, d :: ds)

/-- The decimal digits at the start of a text, and what follows them. -/
def leadingDigits (t : Text) : List Nat × Text :=
  ((t.takeWhile Char.isDigit).map fun c => c.toNat - '0'.toNat, t.dropWhile Char.isDigit)

/-- The power of ten nearest to `10 ^ e`. -/
def powerOfTen (e : Nat) : Float :=
  Float.ofScientific 1 false e

/-- The largest power of ten that is a finite number. -/
def largestPower : Nat := 308

/-- The number `x * 10 ^ e`, in steps of at most `10 ^ 308`; none if it is too large. -/
def scaled (x : Float) (e : Int) : Option Float :=
  if e.natAbs ≤ largestPower then
    if 0 ≤ e then
      let y := x * powerOfTen e.natAbs
      if y.isInf then none else some y
    else some (x / powerOfTen e.natAbs)
  else if x == 0 then some x
  else if 0 ≤ e then none
  else scaled (x / powerOfTen largestPower) (e + largestPower)
termination_by e.natAbs
decreasing_by simp only [largestPower] at *; omega

/-- The floating point number with a sign, a significand and a decimal exponent. -/
def floating (isNegative : Bool) (significand : Nat) (e : Int) (rest : Text) :
    Except Fault (Number × Text) :=
  match scaled (UInt64.ofNat significand).toFloat e with
  | none => .error (faultAt .numberOutOfRange rest)
  | some x => .ok (.floating (if isNegative then -x else x), rest)

/-- Exponents are kept as long as they fit 32 bits with a sign. -/
def largestExponent : Nat := 0x7FFFFFFF

/-- Reads what follows the letter of an exponent. -/
def readExponent (isNegative : Bool) (significand : Nat) (e : Int) (t : Text) :
    Except Fault (Number × Text) :=
  let down := t.head? = some '-'
  let t := if down ∨ t.head? = some '+' then t.drop 1 else t
  match leadingDigits t with
  | ([], _) =>
    .error (if t = [] then faultAt .endInValue t else faultPast .invalidNumber t)
  | (digits, rest) =>
    match absorb largestExponent 0 digits with
    | (shift, []) => floating isNegative significand (if down then e - shift else e + shift) rest
    | (_, _ :: unread) =>
      if significand ≠ 0 ∧ ¬ down then
        .error ⟨.numberOutOfRange, unread.length + byteLength rest⟩
      else floating isNegative 0 0 rest

/-- Reads what follows a significand: a fraction, an exponent, both or neither. -/
def readTail (isNegative : Bool) (significand : Nat) (e : Int) (t : Text) :
    Except Fault (Option Number × Text) := do
  match t with
  | '.' :: t =>
    let (digits, rest) := leadingDigits t
    if digits = [] then
      throw (if rest = [] then faultAt .endInValue rest else faultPast .invalidNumber rest)
    let (significand, dropped) := absorb Numeral.largestUInt64 significand digits
    let e := e - (digits.length - dropped.length : Nat)
    match rest with
    | 'e' :: rest | 'E' :: rest =>
      let (n, rest) ← readExponent isNegative significand e rest
      return (some n, rest)
    | _ =>
      let (n, rest) ← floating isNegative significand e rest
      return (some n, rest)
  | 'e' :: rest | 'E' :: rest =>
    let (n, rest) ← readExponent isNegative significand e rest
    return (some n, rest)
  | _ => return (none, t)

/-- A significand without fraction or exponent. Zero with a sign is floating point. -/
def whole (isNegative : Bool) (significand : Nat) : Number :=
  if isNegative then
    if 0 < significand ∧ significand ≤ Numeral.largestInt64 + 1 then .negative significand
    else .floating (-(UInt64.ofNat significand).toFloat)
  else .natural significand

/-- Reads a number, of which a minus sign has been read already. -/
def readNumber (isNegative : Bool) (t : Text) : Except Fault (Number × Text) := do
  match leadingDigits t with
  | ([], _) => throw (if t = [] then faultAt .endInValue t else faultPast .invalidNumber t)
  | (0 :: _ :: _, _) => throw (faultPast .invalidNumber (t.drop 1))
  | (digits, rest) =>
    match absorb Numeral.largestUInt64 0 digits with
    | (significand, []) =>
      let (n?, rest) ← readTail isNegative significand 0 rest
      return (n?.getD (whole isNegative significand), rest)
    | (significand, dropped) =>
      let (n?, rest) ← readTail isNegative significand dropped.length rest
      match n? with
      | some n => return (n, rest)
      | none => floating isNegative significand dropped.length rest

end BlockExplorer.Json
