import BlockExplorer.Codec.Decoding
import BlockExplorer.Codec.Encoding

/-!
# BlockExplorer — percent decoding

The value of a parameter is decoded in three steps: all of its escapes are
checked, plus signs become spaces, and each escape becomes the byte it denotes.
The bytes have to be well-formed text. An error says why the value cannot be
shown, and names the key as it stands in the request.
-/

namespace BlockExplorer

inductive QueryError where
  /-- A `%` without two digits of base 16 after it, at a byte offset in the raw value. -/
  | malformedEscape (key : Text) (offset : Nat)
  /-- The decoded bytes are not text. -/
  | invalidText (key : Text) (source : CodecError)
  deriving DecidableEq, Repr

namespace QueryError

def message : QueryError → String
  | malformedEscape key offset =>
    s!"malformed percent escape in `{String.ofList key}` at offset {offset}"
  | invalidText key source =>
    s!"value of `{String.ofList key}` is not valid UTF-8: {source.message}"

/-- What is behind the error. -/
def source? : QueryError → Option String
  | malformedEscape .. => none
  | invalidText _ source => some source.message

end QueryError

namespace Percent

/-- The value of a byte that is an ASCII digit of base 16. -/
def digit? (byte : UInt8) : Option Nat :=
  Numeral.hexDigit? (Char.ofNat byte.toNat)

/-- The byte that the two digits at the start of a byte list denote. -/
def octet? : List UInt8 → Option UInt8
  | high :: low :: _ =>
    match digit? high, digit? low with
    | some h, some l => some (UInt8.ofNat (16 * h + l))
    | _, _ => none
  | _ => none

/-- The byte of `%`. -/
def mark : UInt8 := 0x25

/-- The place of the first `%` that two digits do not follow; the first byte has place `offset`. -/
def malformed? (offset : Nat) : List UInt8 → Option Nat
  | [] => none
  | byte :: rest =>
    if byte = mark ∧ octet? rest = none then some offset else malformed? (offset + 1) rest

/-- Replaces each escape by its byte. A `%` without two digits stays as it is. -/
def decodeBytes : List UInt8 → List UInt8
  | [] => []
  | byte :: rest =>
    if byte = mark then
      match octet? rest with
      | some octet => octet :: decodeBytes (rest.drop 2)
      | none => byte :: decodeBytes rest
    else
      byte :: decodeBytes rest
termination_by bytes => bytes.length

/-- Replaces plus signs by spaces. -/
def plusToSpace (t : Text) : Text :=
  t.map fun c => if c = '+' then ' ' else c

/-- Decodes the raw value of the parameter `key`. -/
def decodeValue (key raw : Text) : Logged CodecEvent (Except QueryError Text) :=
  match malformed? 0 (encode raw) with
  | some offset => pure (.error (.malformedEscape key offset))
  | none => do
    match ← decodeStrict (decodeBytes (encode (plusToSpace raw))) with
    | .ok value => pure (.ok value)
    | .error e => pure (.error (.invalidText key e))

end Percent

end BlockExplorer
