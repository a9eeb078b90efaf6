import BlockExplorer.Text.Basic

/-!
# BlockExplorer — encoding text as bytes

A character is written with one to four bytes, chosen by the range of its code
point: up to `7F`, `7FF`, `FFFF` and `10FFFF`. A text is the concatenation of
its characters in order.
-/

namespace BlockExplorer

/-- How many bytes a character takes. -/
def encodedLength (c : Char) : Nat :=
  if c.toNat < 0x80 then 1
  else if c.toNat < 0x800 then 2
  else if c.toNat < 0x10000 then 3
  else 4

/-- The byte `10xxxxxx` with the six lowest bits of a number. -/
def continuationByte (n : Nat) : UInt8 :=
  UInt8.ofNat (0x80 + n % 0x40)

/-- The bytes of one character. -/
def encodeChar (c : Char) : List UInt8 :=
  let n := c.toNat
  if n < 0x80 then
    [UInt8.ofNat n]
  else if n < 0x800 then
    [UInt8.ofNat (0xC0 + n / 0x40), continuationByte n]
  else if n < 0x10000 then
    [UInt8.ofNat (0xE0 + n / 0x1000), continuationByte (n / 0x40), continuationByte n]
  else
    [UInt8.ofNat (0xF0 + n / 0x40000), continuationByte (n / 0x1000),
      continuationByte (n / 0x40), continuationByte n]

/-- Appends the bytes of a text to a buffer, character by character. -/
def encodeInto (t : Text) (buffer : Array UInt8) : Array UInt8 :=
  t.foldl (fun bytes c => bytes ++ encodeChar c) buffer

/-- The bytes of a text. -/
def encode (t : Text) : List UInt8 :=
  t.flatMap encodeChar

@[simp] theorem encode_nil : encode [] = [] := rfl

@[simp] theorem encode_cons (c : Char) (t : Text) :
    encode (c :: t) = encodeChar c ++ encode t := rfl

/-- A text is encoded character by character, so that concatenation goes along with it. -/
@[simp] theorem encode_append (t u : Text) : encode (t ++ u) = encode t ++ encode u := by
  simp [encode]

/-- The encoder writes as many bytes as it says in advance. -/
theorem length_encodeChar (c : Char) : (encodeChar c).length = encodedLength c := by
  simp only [encodeChar, encodedLength]
  -- the branches of the two functions are the same
  repeat' split
  all_goals rfl

/-- The number of bytes that a text takes. -/
def byteLength : Text → Nat
  | [] => 0
  | c :: t => encodedLength c + byteLength t

/-- The bytes of a text are counted without writing them. -/
theorem length_encode (t : Text) : (encode t).length = byteLength t := by
  induction t with
  | nil => rfl
  | cons c t ih => simp_all [byteLength, length_encodeChar]

end BlockExplorer
