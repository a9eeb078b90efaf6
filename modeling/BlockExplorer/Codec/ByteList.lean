import BlockExplorer.Codec.Error
import BlockExplorer.Text.Class

/-!
# BlockExplorer — byte lists

Bytes as a person writes them: `[226, 130, 172]` in decimal, `e2 82 ac` in
base 16. A list that is read may mix the two, base 16 being marked by `0x`; its
tokens stand between commas and blanks, with or without one pair of brackets
around all of them.
-/

namespace BlockExplorer

/-- How bytes are shown. -/
inductive ByteFormat where
  | decimal
  | hex
  deriving DecidableEq, Repr

def ByteFormat.name : ByteFormat → String
  | decimal => "decimal"
  | hex => "hex"

namespace ByteList

/-- The bytes, shown in the given format. -/
def render (format : ByteFormat) (bytes : List UInt8) : Text :=
  match format with
  | .decimal =>
    ['['] ++ Text.join [',', ' '] (bytes.map fun b => Numeral.decimal b.toNat) ++ [']']
  | .hex => Text.join [' '] (bytes.map fun b => Numeral.hex 2 b.toNat)

/-- The text inside one pair of brackets, or the text itself if it is not in brackets. -/
def body (t : Text) : Text :=
  match t with
  | '[' :: rest => if rest.getLast? = some ']' then rest.dropLast else t
  | _ => t

def isSeparator (c : Char) : Bool :=
  c = ',' || Text.isBlank c

/-- The nonempty pieces between separators. -/
def tokens (t : Text) : List Text :=
  (Text.split isSeparator (body (Text.trim t))).filter (· ≠ [])

/-- The byte that a token denotes. -/
def readToken (token : Text) : Except CodecError UInt8 :=
  let value? :=
    match token with
    | '0' :: 'x' :: digits => Numeral.ofText? 16 255 digits
    | '0' :: 'X' :: digits => Numeral.ofText? 16 255 digits
    | _ => Numeral.ofText? 10 255 token
  match value? with
  | some n => .ok (UInt8.ofNat n)
  | none => .error (.invalidByteLiteral token)

/-- Reads a byte list. -/
def parse (t : Text) : Except CodecError (List UInt8) :=
  (tokens t).mapM readToken

end ByteList

end BlockExplorer
