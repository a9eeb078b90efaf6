import BlockExplorer.Codec.Bits
import BlockExplorer.Codec.Error

/-!
# BlockExplorer — well-formed bytes, and what is wrong with others

Which bytes are text, said by ranges of single bytes and without reading a
value: a table has a row for every group of first bytes, with the range of
each byte of the sequence. The second byte carries what the groups differ in:
it keeps out values that a shorter sequence could carry, surrogates, and values
above the last code point.

What is wrong with the first sequence of other bytes is said by ranges of bytes
and exact numbers. There is a case for every error of strict decoding. The first
byte goes before the bytes behind it, a byte behind it before the end of input,
and that before the value; so each case says that the ones before it do not
apply.
-/

namespace BlockExplorer

-- ---------------------------------------------------------------------------
-- Well-formed bytes
-- ---------------------------------------------------------------------------

/-- The first and the last byte of each range, a row for each kind of sequence. -/
def sequenceTable : List (List (UInt8 × UInt8)) :=
  [[(0x00, 0x7F)],
   [(0xC2, 0xDF), (0x80, 0xBF)],
   [(0xE0, 0xE0), (0xA0, 0xBF), (0x80, 0xBF)],
   [(0xE1, 0xEC), (0x80, 0xBF), (0x80, 0xBF)],
   [(0xED, 0xED), (0x80, 0x9F), (0x80, 0xBF)],
   [(0xEE, 0xEF), (0x80, 0xBF), (0x80, 0xBF)],
   [(0xF0, 0xF0), (0x90, 0xBF), (0x80, 0xBF), (0x80, 0xBF)],
   [(0xF1, 0xF3), (0x80, 0xBF), (0x80, 0xBF), (0x80, 0xBF)],
   [(0xF4, 0xF4), (0x80, 0x8F), (0x80, 0xBF), (0x80, 0xBF)]]

/-- There is one byte for each range, and it lies in it. -/
def fitsRow : List (UInt8 × UInt8) → List UInt8 → Bool
  | [], [] => true
  | (first, last) :: row, byte :: bytes => first ≤ byte && byte ≤ last && fitsRow row bytes
  | _, _ => false

/-- The bytes are one sequence of the table. -/
def isTableSequence (bytes : List UInt8) : Bool :=
  sequenceTable.any fun row => fitsRow row bytes

/-- The bytes are sequences of the table, one after the other. -/
def WellFormed (bytes : List UInt8) : Prop :=
  ∃ sequences : List (List UInt8),
    (∀ s ∈ sequences, isTableSequence s = true) ∧ sequences.flatten = bytes

-- ---------------------------------------------------------------------------
-- Faults
-- ---------------------------------------------------------------------------

/-- The byte is one of `80..BF`. -/
def IsTail (byte : UInt8) : Prop :=
  0x80 ≤ byte.toNat ∧ byte.toNat ≤ 0xBF

/-- The length of the sequence that a first byte announces, and the smallest number that needs a
sequence of this length. -/
inductive Announces (lead : UInt8) : Nat → Nat → Prop where
  | two (low : 0xC0 ≤ lead.toNat) (high : lead.toNat ≤ 0xDF) : Announces lead 2 0x80
  | three (low : 0xE0 ≤ lead.toNat) (high : lead.toNat ≤ 0xEF) : Announces lead 3 0x800
  | four (low : 0xF0 ≤ lead.toNat) (high : lead.toNat ≤ 0xF7) : Announces lead 4 0x10000

/-- Behind the first byte and before the index `stop` there are no other bytes than of
`80..BF`. -/
def Continued (stop : Nat) (bytes : List UInt8) : Prop :=
  ∀ i byte, 1 ≤ i → i < stop → bytes[i]? = some byte → IsTail byte

/-- The number is no code point of a character: a surrogate, in three bytes, or a number above the
code points, in four. -/
def IsOutside (length value : Nat) : Prop :=
  length = 3 ∧ 0xD800 ≤ value ∧ value ≤ 0xDFFF ∨
    length = 4 ∧ 0x110000 ≤ value ∧ value ≤ 0x1FFFFF

/-- The first sequence of the bytes `lead :: tail`, which stand at an offset, is at fault, and this
is the error. -/
inductive SequenceFault (offset : Nat) (lead : UInt8) (tail : List UInt8) :
    CodecError → Prop where
  | unexpectedContinuation (hlead : IsTail lead) :
      SequenceFault offset lead tail (.unexpectedContinuation offset lead)
  | invalidLeadingByte (hlead : 0xF8 ≤ lead.toNat) :
      SequenceFault offset lead tail (.invalidLeadingByte offset lead)
  | invalidContinuation {length smallest i : Nat} {byte : UInt8}
      (hlead : Announces lead length smallest) (hfirst : 1 ≤ i) (hwithin : i < length)
      (hbyte : (lead :: tail)[i]? = some byte) (hfault : ¬ IsTail byte)
      (hbefore : Continued i (lead :: tail)) :
      SequenceFault offset lead tail (.invalidContinuation (offset + i) byte)
  | truncated {length smallest : Nat} (hlead : Announces lead length smallest)
      (hcontinued : Continued length (lead :: tail)) (hends : (lead :: tail).length < length) :
      SequenceFault offset lead tail (.truncated offset length (lead :: tail).length)
  | overlong {length smallest value : Nat} (hlead : Announces lead length smallest)
      (hcontinued : Continued length (lead :: tail)) (hcomplete : length ≤ (lead :: tail).length)
      (hvalue : payload length lead (tail.take (length - 1)) = value) (hsmall : value < smallest) :
      SequenceFault offset lead tail (.overlong offset value)
  | invalidCodePoint {length smallest value : Nat} (hlead : Announces lead length smallest)
      (hcontinued : Continued length (lead :: tail)) (hcomplete : length ≤ (lead :: tail).length)
      (hvalue : payload length lead (tail.take (length - 1)) = value) (hneeded : smallest ≤ value)
      (houtside : IsOutside length value) :
      SequenceFault offset lead tail (.invalidCodePoint offset value)

end BlockExplorer
