import BlockExplorer.Log.Level
import BlockExplorer.Text.Numeral

/-!
# BlockExplorer — codec errors, and what decoding reports

Why bytes are not well-formed text, or why a text is not a byte list. Offsets
are byte positions in the decoded input.

Lenient decoding reports that it replaced characters, strict decoding that it
failed. Neither report shows the input, only its length.
-/

namespace BlockExplorer

inductive CodecError where
  /-- A continuation byte where a character should start. -/
  | unexpectedContinuation (offset : Nat) (byte : UInt8)
  /-- A first byte that announces more than four bytes. -/
  | invalidLeadingByte (offset : Nat) (byte : UInt8)
  /-- The input ends before the announced sequence does. -/
  | truncated (offset expected available : Nat)
  /-- A byte inside a sequence that is no continuation byte. -/
  | invalidContinuation (offset : Nat) (byte : UInt8)
  /-- A value written with more bytes than it needs. -/
  | overlong (offset value : Nat)
  /-- A surrogate, or a value above the last code point. -/
  | invalidCodePoint (offset value : Nat)
  /-- A token of a byte list that denotes no byte. -/
  | invalidByteLiteral (token : Text)
  deriving DecidableEq, Repr

namespace CodecError

/-- A short name for the kind of error. -/
def code : CodecError → String
  | unexpectedContinuation .. => "unexpected_continuation"
  | invalidLeadingByte .. => "invalid_leading_byte"
  | truncated .. => "truncated"
  | invalidContinuation .. => "invalid_continuation"
  | overlong .. => "overlong"
  | invalidCodePoint .. => "invalid_code_point"
  | invalidByteLiteral .. => "invalid_byte_literal"

private def hexByte (byte : UInt8) : String :=
  String.ofList (Numeral.hex 2 byte.toNat)

def message : CodecError → String
  | unexpectedContinuation offset byte =>
    s!"unexpected continuation byte 0x{hexByte byte} at offset {offset}"
  | invalidLeadingByte offset byte =>
    s!"invalid leading byte 0x{hexByte byte} at offset {offset}"
  | truncated offset expected available =>
    s!"truncated sequence at offset {offset}: expected {expected} bytes, found {available}"
  | invalidContinuation offset byte =>
    s!"invalid continuation byte 0x{hexByte byte} at offset {offset}"
  | overlong offset value =>
    s!"overlong encoding of U+{String.ofList (Numeral.hexCapital 4 value)} at offset {offset}"
  | invalidCodePoint offset value =>
    s!"invalid code point 0x{String.ofList (Numeral.hexCapital 1 value)} at offset {offset}"
  | invalidByteLiteral token =>
    s!"invalid byte literal `{String.ofList token}`"

end CodecError

inductive CodecEvent where
  /-- Lenient decoding put replacement characters for values that are no characters. -/
  | lossyDecode (inputLength replaced : Nat)
  /-- Strict decoding failed. -/
  | strictFailure (inputLength : Nat) (error : CodecError)
  deriving DecidableEq, Repr

namespace CodecEvent

def level : CodecEvent → Level
  | lossyDecode .. => .debug
  | strictFailure .. => .warn

def message : CodecEvent → String
  | lossyDecode inputLength replaced =>
    "event=decode module=codec status=lossy mode=lenient " ++
      s!"input_len={inputLength} replaced={replaced}"
  | strictFailure inputLength error =>
    "event=decode module=codec status=error mode=strict " ++
      s!"input_len={inputLength} error_code={error.code} error={error.message}"

end CodecEvent

end BlockExplorer
