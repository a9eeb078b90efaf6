import BlockExplorer.Codec.Encoding
import BlockExplorer.Decimal.Floating
import BlockExplorer.Text.Class

/-!
# BlockExplorer — faults in documents

Why a document cannot be read, and where. A reader works on the text that is
left, so a fault says how many bytes of the document are left behind it;
`Fault.place` turns that into a line and a column. Columns count bytes.
-/

namespace BlockExplorer.Json

/-- A number in a document: whole and within 64 bits, or floating point. -/
inductive Number where
  | natural (n : Nat)
  /-- The number `-n`. -/
  | negative (n : Nat)
  | floating (x : Float)
  deriving DecidableEq

/-- What stands in a document where something else is expected. -/
inductive Found where
  | null
  | boolean (b : Bool)
  | number (n : Number)
  | string (t : Text)
  | sequence
  | map
  deriving DecidableEq

def Found.describe : Found → String
  | null => "null"
  | boolean b => s!"boolean `{b}`"
  | number (.natural n) => s!"integer `{n}`"
  | number (.negative n) => s!"integer `-{n}`"
  | number (.floating x) => s!"floating point `{String.ofList (Floating.render x)}`"
  | string t => s!"string {String.ofList (Text.quotedForReader t)}"
  | sequence => "sequence"
  | map => "map"

inductive Cause where
  | endInList
  | endInObject
  | endInString
  | endInValue
  | expectedColon
  | expectedListEnd
  | expectedObjectEnd
  | expectedLiteral
  | expectedValue
  | invalidEscape
  | invalidNumber
  | numberOutOfRange
  | controlCharacter
  | keyNotString
  | loneSurrogate
  | unfinishedSurrogatePair
  | trailingComma
  | trailingCharacters
  | mismatch (found : Found) (expected : String)
  | unknownField (name : Text) (known : List String)
  | duplicateField (name : String)
  | unknownVariant (name : Text) (known : List String)
  deriving DecidableEq

/-- Names in backticks: two with `or` between them, any other number as a list. -/
def oneOf (names : List String) : String :=
  match names with
  | [a] => s!"`{a}`"
  | [a, b] => s!"`{a}` or `{b}`"
  | _ => "one of " ++ ", ".intercalate (names.map fun name => s!"`{name}`")

def Cause.message : Cause → String
  | endInList => "EOF while parsing a list"
  | endInObject => "EOF while parsing an object"
  | endInString => "EOF while parsing a string"
  | endInValue => "EOF while parsing a value"
  | expectedColon => "expected `:`"
  | expectedListEnd => "expected `,` or `]`"
  | expectedObjectEnd => "expected `,` or `\x7d`"
  | expectedLiteral => "expected ident"
  | expectedValue => "expected value"
  | invalidEscape => "invalid escape"
  | invalidNumber => "invalid number"
  | numberOutOfRange => "number out of range"
  | controlCharacter => "control character (\\u0000-\\u001F) found while parsing a string"
  | keyNotString => "key must be a string"
  | loneSurrogate => "lone leading surrogate in hex escape"
  | unfinishedSurrogatePair => "unexpected end of hex escape"
  | trailingComma => "trailing comma"
  | trailingCharacters => "trailing characters"
  | mismatch found expected => s!"invalid type: {found.describe}, expected {expected}"
  | unknownField name known =>
    s!"unknown field `{String.ofList name}`, expected {oneOf known}"
  | duplicateField name => s!"duplicate field `{name}`"
  | unknownVariant name known =>
    s!"unknown variant `{String.ofList name}`, expected {oneOf known}"

/-- A cause, and the number of bytes of the document behind the place of the fault. -/
structure Fault where
  cause : Cause
  left : Nat
  deriving DecidableEq

/-- A fault in front of the text that is left. -/
def faultAt (cause : Cause) (rest : Text) : Fault := ⟨cause, byteLength rest⟩

/-- A fault one byte further on, or at the end when nothing is left. -/
def faultPast (cause : Cause) (rest : Text) : Fault := ⟨cause, byteLength rest - 1⟩

/-- A cause with its place in a document. -/
structure Error where
  cause : Cause
  line : Nat
  column : Nat
  deriving DecidableEq

def Error.message (e : Error) : String :=
  s!"{e.cause.message} at line {e.line} column {e.column}"

/-- The place of a fault: lines count from one, columns are the bytes since the last line feed. -/
def Fault.place (document : Text) (f : Fault) : Error :=
  let read := (encode document).take (byteLength document - f.left)
  { cause := f.cause
    line := 1 + read.count 0x0A
    column := (read.reverse.takeWhile (· ≠ 0x0A)).length }

end BlockExplorer.Json
