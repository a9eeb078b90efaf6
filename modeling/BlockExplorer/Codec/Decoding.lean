import BlockExplorer.Codec.Error
import BlockExplorer.Log.Logged

/-!
# BlockExplorer — decoding bytes

What single bytes say in a byte sequence: a first byte announces the length of
its sequence by the number of its leading one bits, and carries the bits after
the first zero; every further byte carries its six lowest bits. A scalar value
is a code point that is no surrogate. There are two policies on top of that.

* Lenient: bytes always decode to some text. The length of a sequence is taken
  from its first byte alone and the bytes after it are not checked. A sequence
  that the end of input cuts off uses the bytes that are there, and a value that
  is no scalar value becomes `U+FFFD`.
* Strict: only well-formed UTF-8 decodes, and the error names the first fault.
  Of one sequence the first byte is judged before the bytes after it, these
  before the length, and the length before the value.

Input that is text already is returned as it is, in either mode.
-/

namespace BlockExplorer

-- ---------------------------------------------------------------------------
-- Byte sequences
-- ---------------------------------------------------------------------------

/-- The number of one bits before the first zero bit, from the highest bit down: a byte has at
least `k` of them exactly when it is at least `256 - 2 ^ (8 - k)`. -/
def leadingOnes (byte : UInt8) : Nat :=
  ([0x80, 0xC0, 0xE0, 0xF0, 0xF8, 0xFC, 0xFE, 0xFF].filter (· ≤ byte)).length

/-- The sequence length that a first byte announces: none without leading ones, nor with eight. -/
def announcedLength (lead : UInt8) : Option Nat :=
  match leadingOnes lead with
  | 0 => none
  | 8 => none
  | k => some k

/-- The byte has the form `10xxxxxx`. -/
def isContinuation (byte : UInt8) : Bool :=
  0x80 ≤ byte && byte < 0xC0

/-- The bits of a first byte below the zero that ends its leading ones. -/
def leadBits (k : Nat) (lead : UInt8) : Nat :=
  lead.toNat % Nat.pow 2 (7 - k)

/-- The six lowest bits of a byte. -/
def tailBits (byte : UInt8) : Nat :=
  byte.toNat % 0x40

/-- The character with a given code point, unless it is a surrogate or too large. -/
def scalar? (n : Nat) : Option Char :=
  if h : n.isValidChar then some (Char.ofNatAux n h) else none

/-- The character with the code point of a byte. -/
def charOfByte (byte : UInt8) : Char :=
  Char.ofNat byte.toNat

-- ---------------------------------------------------------------------------
-- Lenient decoding
-- ---------------------------------------------------------------------------

/-- Stands for a value that is no character. -/
def replacement : Char := '\uFFFD'

/-- The value of a sequence, gathered in a machine word: the payload of a first byte that
announces `k` bytes, then six bits of every further byte. -/
def sequenceWord (k : Nat) (lead : UInt8) (tail : List UInt8) : UInt64 :=
  tail.foldl (fun word byte => (word <<< 6) ||| (byte &&& 0x3F).toUInt64)
    (UInt64.ofNat (leadBits k lead))

/-- The character that a sequence stands for, unless its value is no scalar value. -/
def sequenceChar? (k : Nat) (lead : UInt8) (tail : List UInt8) : Option Char :=
  scalar? (sequenceWord k lead tail).toNat

/-- The text that bytes decode to, and how many of its characters are replacements. -/
def scanLenient : List UInt8 → Text × Nat
  | [] => ([], 0)
  | lead :: rest =>
    match announcedLength lead with
    | none =>
      let after := scanLenient rest
      (charOfByte lead :: after.1, after.2)
    | some k =>
      let after := scanLenient (rest.drop (k - 1))
      match sequenceChar? k lead (rest.take (k - 1)) with
      | some c => (c :: after.1, after.2)
      | none => (replacement :: after.1, after.2 + 1)
termination_by bytes => bytes.length

/-- Decodes bytes, and reports when characters were replaced. -/
def decodeLenient (bytes : List UInt8) : Logged CodecEvent Text :=
  let decoded := scanLenient bytes
  ⟨decoded.1, if decoded.2 = 0 then [] else [.lossyDecode bytes.length decoded.2]⟩

-- ---------------------------------------------------------------------------
-- Strict decoding
-- ---------------------------------------------------------------------------

/-- The smallest value that a sequence of `k` bytes may carry. -/
def minimumValue (k : Nat) : Nat :=
  match k with
  | 2 => 0x80
  | 3 => 0x800
  | _ => 0x10000

/-- The value of a sequence whose first byte announces `k` bytes. -/
def sequenceValue (k : Nat) (lead : UInt8) (tail : List UInt8) : Nat :=
  tail.foldl (fun value byte => value * 0x40 + tailBits byte) (leadBits k lead)

/-- Reads the sequence of `k` bytes that starts with `lead` at `offset`. -/
def readSequence (offset k : Nat) (lead : UInt8) (rest : List UInt8) : Except CodecError Char :=
  let tail := rest.take (k - 1)
  match tail.findIdx? (fun byte => !isContinuation byte) with
  | some i => .error (.invalidContinuation (offset + 1 + i) (tail.getD i 0))
  | none =>
    let value := sequenceValue k lead tail
    if tail.length + 1 < k then
      .error (.truncated offset k (tail.length + 1))
    else if value < minimumValue k then
      .error (.overlong offset value)
    else
      match scalar? value with
      | none => .error (.invalidCodePoint offset value)
      | some c => .ok c

/-- Decodes bytes of which the first stands at `offset`. -/
def scanStrict (offset : Nat) : List UInt8 → Except CodecError Text
  | [] => .ok []
  | lead :: rest =>
    match announcedLength lead with
    | none =>
      if lead < 0x80 then
        (scanStrict (offset + 1) rest).map (charOfByte lead :: ·)
      else
        .error (.invalidLeadingByte offset lead)
    | some k =>
      if k = 1 then
        .error (.unexpectedContinuation offset lead)
      else if k ≤ 4 then
        match readSequence offset k lead rest with
        | .error e => .error e
        | .ok c => (scanStrict (offset + k) (rest.drop (k - 1))).map (c :: ·)
      else
        .error (.invalidLeadingByte offset lead)
termination_by bytes => bytes.length

/-- The text that well-formed bytes encode, or their first fault. -/
def textOfBytes (bytes : List UInt8) : Except CodecError Text :=
  scanStrict 0 bytes

/-- Decodes well-formed bytes, and reports a failure. -/
def decodeStrict (bytes : List UInt8) : Logged CodecEvent (Except CodecError Text) :=
  match textOfBytes bytes with
  | .ok text => ⟨.ok text, []⟩
  | .error e => ⟨.error e, [.strictFailure bytes.length e]⟩

-- ---------------------------------------------------------------------------
-- Decoding by mode
-- ---------------------------------------------------------------------------

/-- What becomes of bytes that are not well-formed text. -/
inductive DecodeMode where
  /-- They decode to something. -/
  | lenient
  /-- They are refused. -/
  | strict
  deriving DecidableEq, Repr

def DecodeMode.name : DecodeMode → String
  | lenient => "lenient"
  | strict => "strict"

/-- Bytes to decode, or text that was decoded before. -/
inductive DecodeInput where
  | bytes (bytes : List UInt8)
  | text (text : Text)
  deriving DecidableEq, Repr

/-- Decodes leniently; never fails. -/
def decode : DecodeInput → Logged CodecEvent Text
  | .bytes bytes => decodeLenient bytes
  | .text text => pure text

/-- Decodes in the given mode. -/
def decodeWith (mode : DecodeMode) : DecodeInput → Logged CodecEvent (Except CodecError Text)
  | .text text => pure (.ok text)
  | .bytes bytes =>
    match mode with
    | .lenient => Except.ok <$> decodeLenient bytes
    | .strict => decodeStrict bytes

end BlockExplorer
