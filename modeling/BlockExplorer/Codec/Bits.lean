/-!
# BlockExplorer — bytes by their bits

How numbers are laid out in bytes, said on lists of bits and exact numbers. A
first byte begins with as many ones as its sequence has bytes, and a zero; one
that stands alone begins with the zero; a further byte begins with one one and
a zero. The bits behind these zeros, byte after byte, are the binary digits of
the number.

The forms of a number have all their markers and at most four bytes. Segments
are what is left of them when nothing but the first byte counts: any bytes fall
into segments, and each segment has a value.
-/

namespace BlockExplorer

-- ---------------------------------------------------------------------------
-- Bits
-- ---------------------------------------------------------------------------

/-- The lowest bits of a byte, the highest of them first. -/
def lowBits : Nat → UInt8 → List Bool
  | 0, _ => []
  | width + 1, byte => byte.toNat.testBit width :: lowBits width byte

/-- The number with the given binary digits. -/
def ofBits (digits : List Bool) : Nat :=
  digits.foldl (fun value digit => value * 2 + digit.toNat) 0

/-- How many ones a byte begins with. -/
def onesRun (byte : UInt8) : Nat :=
  ((lowBits 8 byte).takeWhile id).length

/-- The number that a first byte beginning with `ones` ones carries together with further bytes:
of the first the bits below the zero that ends the ones, of every other the six lowest. -/
def payload (ones : Nat) (lead : UInt8) (tail : List UInt8) : Nat :=
  ofBits (lowBits (7 - ones) lead ++ tail.flatMap (lowBits 6))

-- ---------------------------------------------------------------------------
-- Forms
-- ---------------------------------------------------------------------------

/-- The bytes are a form of the number: one to four bytes with their markers, and the number
behind them. -/
def IsForm (n : Nat) (bytes : List UInt8) : Prop :=
  ∃ lead tail, bytes = lead :: tail ∧ tail.length ≤ 3 ∧
    onesRun lead = (if tail = [] then 0 else tail.length + 1) ∧
    (∀ byte ∈ tail, onesRun byte = 1) ∧ payload (onesRun lead) lead tail = n

/-- No form of the number has fewer bytes. -/
def IsShortestForm (n : Nat) (bytes : List UInt8) : Prop :=
  IsForm n bytes ∧ ∀ other, IsForm n other → bytes.length ≤ other.length

-- ---------------------------------------------------------------------------
-- Segments
-- ---------------------------------------------------------------------------

/-- The byte begins with ones that a zero ends. -/
def opensRun (lead : UInt8) : Bool :=
  1 ≤ onesRun lead && onesRun lead ≤ 7

/-- How many bytes a first byte asks for. -/
def segmentLength (lead : UInt8) : Nat :=
  if opensRun lead then onesRun lead else 1

/-- The bytes, cut into segments from left to right; the last one may have fewer bytes than its
first byte asks for. -/
def segments : List UInt8 → List (List UInt8)
  | [] => []
  | lead :: rest =>
    (lead :: rest.take (segmentLength lead - 1)) :: segments (rest.drop (segmentLength lead - 1))
termination_by bytes => bytes.length

/-- The number that a segment carries; a byte that opens no run is its own value. -/
def segmentValue : List UInt8 → Nat
  | [] => 0
  | lead :: tail => if opensRun lead then payload (onesRun lead) lead tail else lead.toNat

/-- The number is a Unicode scalar value: a code point, and no surrogate. -/
def isScalar (n : Nat) : Bool :=
  n < 0xD800 || (0xE000 ≤ n && n < 0x110000)

/-- The character with the value of a segment, or the replacement character if there is none. -/
def segmentChar (segment : List UInt8) : Char :=
  if isScalar (segmentValue segment) then Char.ofNat (segmentValue segment) else '\uFFFD'

/-- The segments of the bytes whose value is no scalar value. -/
def faultySegments (bytes : List UInt8) : List (List UInt8) :=
  (segments bytes).filter fun segment => !isScalar (segmentValue segment)

end BlockExplorer
