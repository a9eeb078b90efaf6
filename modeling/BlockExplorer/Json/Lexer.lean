import BlockExplorer.Json.Number

/-!
# BlockExplorer — the words of a document

Blanks, literals, strings and punctuation, read from the front of the text that
is left. Every reader gives back what it has read and the text after it.
-/

namespace BlockExplorer.Json

def isBlank (c : Char) : Bool :=
  c = ' ' || c = '\n' || c = '\t' || c = '\r'

/-- The text after the blanks at its start. -/
def skipBlanks (t : Text) : Text :=
  t.dropWhile isBlank

/-- Skipping blanks leaves no more text than there was. -/
theorem length_skipBlanks (t : Text) : (skipBlanks t).length ≤ t.length :=
  (List.dropWhile_sublist _).length_le

/-- Reads the characters of a literal. -/
def readLiteral : Text → Text → Except Fault Text
  | [], t => .ok t
  | _ :: _, [] => .error (faultAt .endInValue [])
  | c :: cs, d :: t =>
    if c = d then readLiteral cs t else .error (faultPast .expectedLiteral (d :: t))

/-! ## Strings -/

/-- The value of the four digits of base 16 at the start of a text. -/
def fourDigits? : Text → Option Nat
  | a :: b :: c :: d :: _ =>
    ([a, b, c, d].mapM Numeral.hexDigit?).map (Numeral.ofDigits 16)
  | _ => none

/-- Reads four digits of base 16; they are judged four bytes at a time. -/
def readFourDigits (t : Text) : Except Fault Nat :=
  match fourDigits? t with
  | some n => .ok n
  | none =>
    .error (if byteLength t < 4 then ⟨.endInString, 0⟩ else ⟨.invalidEscape, byteLength t - 4⟩)

def isHighSurrogate (n : Nat) : Bool := 0xD800 ≤ n && n < 0xDC00

def isLowSurrogate (n : Nat) : Bool := 0xDC00 ≤ n && n < 0xE000

/-- The code point that a pair of surrogates stands for. -/
def combine (high low : Nat) : Nat :=
  (high - 0xD800) * 0x400 + (low - 0xDC00) + 0x10000

/-- The character of an escape of one letter. -/
def shortEscape? (c : Char) : Option Char :=
  match c with
  | '"' => some '"'
  | '\\' => some '\\'
  | '/' => some '/'
  | 'b' => some '\x08'
  | 'f' => some '\x0c'
  | 'n' => some '\n'
  | 'r' => some '\r'
  | 't' => some '\t'
  | _ => none

/-- The second half of a surrogate pair: `t` follows the four digits of the first half. -/
def readLowSurrogate (t : Text) : Except Fault Nat :=
  match t with
  | [] => .error (faultAt .endInString [])
  | '\\' :: [] => .error (faultAt .endInString [])
  | '\\' :: 'u' :: t => do
    let low ← readFourDigits t
    if isLowSurrogate low then return low else throw (faultAt .loneSurrogate (t.drop 4))
  | '\\' :: t => .error (faultPast .unfinishedSurrogatePair t)
  | t => .error (faultPast .unfinishedSurrogatePair t)

/-- Reads an escape, of which the backslash has been read already. Gives the character that it
stands for and how many characters it takes. -/
def readEscape (t : Text) : Except Fault (Char × Nat) :=
  match t with
  | [] => .error (faultAt .endInString [])
  | 'u' :: t => do
    let n ← readFourDigits t
    if isLowSurrogate n then throw (faultAt .loneSurrogate (t.drop 4))
    if isHighSurrogate n then
      let low ← readLowSurrogate (t.drop 4)
      return (Char.ofNat (combine n low), 11)
    return (Char.ofNat n, 5)
  | c :: _ =>
    match shortEscape? c with
    | some e => .ok (e, 1)
    | none => .error (faultPast .invalidEscape t)

/-- Reads a string, of which the opening quote has been read already. -/
def readString : Text → Except Fault (Text × Text)
  | [] => .error (faultAt .endInString [])
  | c :: t =>
    if c = '"' then .ok ([], t)
    else if c = '\\' then
      match readEscape t with
      | .error f => .error f
      | .ok (e, n) =>
        match readString (t.drop n) with
        | .error f => .error f
        | .ok (value, rest) => .ok (e :: value, rest)
    else if c.toNat < 0x20 then .error (faultAt .controlCharacter t)
    else
      match readString t with
      | .error f => .error f
      | .ok (value, rest) => .ok (c :: value, rest)
termination_by t => t.length

/-- A string ends before the text does. -/
theorem length_of_readString {t value rest : Text} (h : readString t = .ok (value, rest)) :
    rest.length < t.length := by
  fun_induction readString t generalizing value with
  | case1 => simp at h
  | case2 t => simp at h; simp [h]
  | case3 => simp at h
  | case4 => simp at h
  | case5 t e n he v r hr _ ih =>
    simp only [Except.ok.injEq, Prod.mk.injEq] at h
    obtain ⟨_, rfl⟩ := h
    have := ih hr
    simp only [List.length_drop, List.length_cons] at *
    omega
  | case6 => simp at h
  | case7 => simp at h
  | case8 c t _ _ _ v r hr ih =>
    simp only [Except.ok.injEq, Prod.mk.injEq] at h
    obtain ⟨_, rfl⟩ := h
    have := ih hr
    simp only [List.length_cons]
    omega

/-! ## Values of the wrong type -/

/-- What stands at the start of a text that is not blank, and the text after it. Lists and objects
are named by their first character. -/
def readFound (t : Text) : Except Fault (Found × Text) :=
  match t with
  | 'n' :: rest => do return (.null, ← readLiteral "ull".toList rest)
  | 't' :: rest => do return (.boolean true, ← readLiteral "rue".toList rest)
  | 'f' :: rest => do return (.boolean false, ← readLiteral "alse".toList rest)
  | '-' :: rest => do
    let (n, rest) ← readNumber true rest
    return (.number n, rest)
  | '"' :: rest => do
    let (value, rest) ← readString rest
    return (.string value, rest)
  | '[' :: _ => .ok (.sequence, t)
  | '\x7b' :: _ => .ok (.map, t)
  | c :: _ =>
    if c.isDigit then do
      let (n, rest) ← readNumber false t
      return (.number n, rest)
    else .error (faultPast .expectedValue t)
  | [] => .error (faultPast .expectedValue t)

/-- The fault of a value that is not of the expected type. -/
def mismatch (expected : String) (t : Text) : Fault :=
  match readFound t with
  | .error f => f
  | .ok (found, rest) => faultAt (.mismatch found expected) rest

/-- Reads a string value. -/
def readText (expected : String) (t : Text) : Except Fault (Text × Text) :=
  match skipBlanks t with
  | [] => .error (faultAt .endInValue [])
  | '"' :: rest => readString rest
  | rest => .error (mismatch expected rest)

/-- A text takes up at least its opening quote. -/
theorem length_of_readText {expected : String} {t value rest : Text}
    (h : readText expected t = .ok (value, rest)) : rest.length < t.length := by
  have hs := length_skipBlanks t
  unfold readText at h
  split at h
  · simp at h
  · next r heq =>
    have := length_of_readString h
    rw [heq, List.length_cons] at hs
    omega
  · simp at h

/-- Reads the literal `null`. -/
def readNull (expected : String) (t : Text) : Except Fault Text :=
  match skipBlanks t with
  | [] => .error (faultAt .endInValue [])
  | 'n' :: rest => readLiteral "ull".toList rest
  | rest => .error (mismatch expected rest)

/-! ## Lists and objects -/

/-- Where a reader of a list or an object stands after looking for the next item. -/
inductive Next where
  /-- In front of the closing bracket. -/
  | stop (rest : Text)
  /-- In front of an item of a list, or behind the opening quote of a key. -/
  | item (rest : Text)

/-- Looks for the next item of a list; the first has no comma before it. -/
def nextItem (isFirst : Bool) (t : Text) : Except Fault Next :=
  match skipBlanks t with
  | [] => .error (faultAt .endInList [])
  | ']' :: rest => .ok (.stop (']' :: rest))
  | c :: rest =>
    if isFirst then .ok (.item (c :: rest))
    else if c = ',' then
      match skipBlanks rest with
      | [] => .error (faultAt .endInValue [])
      | ']' :: rest => .error (faultPast .trailingComma (']' :: rest))
      | rest => .ok (.item rest)
    else .error (faultPast .expectedListEnd (c :: rest))

/-- What stands before an item is taken off, and nothing is put there. -/
theorem length_of_nextItem {isFirst : Bool} {t rest : Text}
    (h : nextItem isFirst t = .ok (.item rest)) : rest.length ≤ t.length := by
  have hs := length_skipBlanks t
  unfold nextItem at h
  split at h
  · simp at h
  · simp at h
  · next c r _ heq =>
    rw [heq, List.length_cons] at hs
    split at h
    · simp only [Except.ok.injEq, Next.item.injEq] at h
      rw [← h, List.length_cons]; omega
    split at h
    · have hr := length_skipBlanks r
      split at h
      · simp at h
      · simp at h
      · simp only [Except.ok.injEq, Next.item.injEq] at h
        rw [← h]; omega
    · simp at h

/-- Reads the end of a list. -/
def readListEnd (t : Text) : Except Fault Text :=
  match skipBlanks t with
  | [] => .error (faultAt .endInList [])
  | ']' :: rest => .ok rest
  | ',' :: rest =>
    match skipBlanks rest with
    | ']' :: rest => .error (faultPast .trailingComma (']' :: rest))
    | rest => .error (faultPast .trailingCharacters rest)
  | rest => .error (faultPast .trailingCharacters rest)

/-- Looks for the next key of an object; the first has no comma before it. -/
def nextKey (isFirst : Bool) (t : Text) : Except Fault Next :=
  match skipBlanks t with
  | [] => .error (faultAt .endInObject [])
  | '\x7d' :: rest => .ok (.stop ('\x7d' :: rest))
  | c :: rest =>
    if isFirst then
      if c = '"' then .ok (.item rest) else .error (faultPast .keyNotString (c :: rest))
    else if c = ',' then
      match skipBlanks rest with
      | [] => .error (faultAt .endInValue [])
      | '"' :: rest => .ok (.item rest)
      | '\x7d' :: rest => .error (faultPast .trailingComma ('\x7d' :: rest))
      | rest => .error (faultPast .keyNotString rest)
    else .error (faultPast .expectedObjectEnd (c :: rest))

/-- Reads the colon after a key. -/
def readColon (t : Text) : Except Fault Text :=
  match skipBlanks t with
  | [] => .error (faultAt .endInObject [])
  | ':' :: rest => .ok rest
  | rest => .error (faultPast .expectedColon rest)

/-- The text behind the end of an object, if it ends here. The fault of a key is placed there. -/
def pastObjectEnd (t : Text) : Text :=
  match skipBlanks t with
  | '\x7d' :: rest => rest
  | rest => rest

/-- Reads the items of a list of strings, up to the closing bracket. -/
def readTextItems (isFirst : Bool) (t : Text) : Except Fault (List Text × Text) :=
  match _hn : nextItem isFirst t with
  | .error f => .error f
  | .ok (.stop rest) => .ok ([], rest)
  | .ok (.item rest) =>
    match _hr : readText "a string" rest with
    | .error f => .error f
    | .ok (value, rest') =>
      match readTextItems false rest' with
      | .error f => .error f
      | .ok (values, rest'') => .ok (value :: values, rest'')
termination_by t.length
decreasing_by
  have := length_of_nextItem _hn
  have := length_of_readText _hr
  omega

/-- Reads a list of strings. -/
def readTexts (t : Text) : Except Fault (List Text × Text) :=
  match skipBlanks t with
  | [] => .error (faultAt .endInValue [])
  | '[' :: rest => do
    let (values, rest) ← readTextItems true rest
    return (values, ← readListEnd rest)
  | rest => .error (mismatch "a sequence" rest)

/-- The value that a name stands for among `variants`. -/
def variant {α : Type} (variants : List (String × α)) (name rest : Text) : Except Fault α :=
  match variants.lookup (String.ofList name) with
  | some value => .ok value
  | none => .error (faultAt (.unknownVariant name (variants.map (·.1))) rest)

/-- Reads one of several named values: its name, or an object from its name to `null`. -/
def readVariant {α : Type} (variants : List (String × α)) (t : Text) : Except Fault (α × Text) :=
  match skipBlanks t with
  | [] => .error (faultAt .endInValue [])
  | '"' :: rest => do
    let (name, rest) ← readString rest
    return (← variant variants name rest, rest)
  | '\x7b' :: rest =>
    match skipBlanks rest with
    | [] => .error (faultAt .endInObject [])
    | '"' :: rest => do
      let (name, rest) ← readString rest
      let value ← variant variants name rest
      let rest ← readNull "unit" (← readColon rest)
      match skipBlanks rest with
      | '\x7d' :: rest => return (value, rest)
      | [] => throw (faultAt .endInObject [])
      | rest => throw (faultAt .expectedValue rest)
    | '\x7d' :: rest => .error (faultPast .expectedValue ('\x7d' :: rest))
    | rest => .error (faultPast .keyNotString rest)
  | rest => .error (faultPast .expectedValue rest)

/-- Nothing but blanks is left. -/
def readEnd (t : Text) : Except Fault Unit :=
  match skipBlanks t with
  | [] => .ok ()
  | rest => .error (faultPast .trailingCharacters rest)

end BlockExplorer.Json
