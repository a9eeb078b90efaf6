import BlockExplorer.Config.Basic
import BlockExplorer.Json.Lexer

/-!
# BlockExplorer — reading settings

A document holds settings as an object, its fields in any order, or as a list,
its fields in the order of `Field.all`. Fields may be missing in either form; in
an object none may stand twice, and no other key is allowed. What is read is an
`Assignment`, which overrides other settings.
-/

namespace BlockExplorer

/-- Values for some of the fields. -/
structure Assignment where
  logLevel : Option Text := none
  logDir : Option (Option Text) := none
  decodeMode : Option DecodeMode := none
  byteFormat : Option ByteFormat := none
  redactedKeys : Option (List Text) := none
  deriving DecidableEq, Repr

namespace Assignment

/-- The settings `config` with the assigned fields replaced. -/
def applyTo (a : Assignment) (config : Config) : Config where
  logLevel := a.logLevel.getD config.logLevel
  logDir := a.logDir.getD config.logDir
  decodeMode := a.decodeMode.getD config.decodeMode
  byteFormat := a.byteFormat.getD config.byteFormat
  redactedKeys := a.redactedKeys.getD config.redactedKeys

end Assignment

namespace DecodeMode

/-- The modes by name. -/
def variants : List (String × DecodeMode) :=
  [lenient, strict].map fun mode => (mode.name, mode)

end DecodeMode

namespace ByteFormat

/-- The formats by name. -/
def variants : List (String × ByteFormat) :=
  [decimal, hex].map fun format => (format.name, format)

end ByteFormat

namespace Config

open Json

/-- Reads the path of a directory, or `null` for none. -/
def readDirectory (t : Text) : Except Fault (Option Text × Text) :=
  match skipBlanks t with
  | 'n' :: rest => do return (none, ← readLiteral "ull".toList rest)
  | rest => do
    let (path, rest) ← readText "path string" rest
    return (some path, rest)

/-- Reads the value of a field into an assignment. -/
def readField (field : Field) (a : Assignment) (t : Text) : Except Fault (Assignment × Text) := do
  match field with
  | .logLevel =>
    let (value, rest) ← readText "a string" t
    return ({ a with logLevel := some value }, rest)
  | .logDir =>
    let (value, rest) ← readDirectory t
    return ({ a with logDir := some value }, rest)
  | .decodeMode =>
    let (value, rest) ← readVariant DecodeMode.variants t
    return ({ a with decodeMode := some value }, rest)
  | .byteFormat =>
    let (value, rest) ← readVariant ByteFormat.variants t
    return ({ a with byteFormat := some value }, rest)
  | .redactedKeys =>
    let (value, rest) ← readTexts t
    return ({ a with redactedKeys := some value }, rest)

/-- The field of a key, if it is one of those not read yet. A fault of the key is placed behind the
end of the object, should the object end right after the key. -/
def keyField (pending : List Field) (key rest : Text) : Except Fault Field :=
  match Field.named? key with
  | none => .error (faultAt (.unknownField key (Field.all.map (·.name))) (pastObjectEnd rest))
  | some field =>
    if field ∈ pending then .ok field
    else .error (faultAt (.duplicateField field.name) (pastObjectEnd rest))

/-- A key is taken only for a field that was not read before, so that fewer are left behind it. -/
theorem mem_of_keyField {pending : List Field} {key rest : Text} {field : Field}
    (h : keyField pending key rest = .ok field) : field ∈ pending := by
  unfold keyField at h
  split at h
  · simp at h
  · split at h
    · next hm => simp only [Except.ok.injEq] at h; exact h ▸ hm
    · simp at h

/-- Reads the fields of an object up to its end. -/
def readObject (pending : List Field) (isFirst : Bool) (a : Assignment) (t : Text) :
    Except Fault (Assignment × Text) :=
  match nextKey isFirst t with
  | .error f => .error f
  | .ok (.stop rest) => .ok (a, pastObjectEnd rest)
  | .ok (.item rest) =>
    match readString rest with
    | .error f => .error f
    | .ok (key, rest) =>
      match _hk : keyField pending key rest with
      | .error f => .error f
      | .ok field =>
        match readColon rest >>= readField field a with
        | .error f => .error f
        | .ok (a, rest) => readObject (pending.erase field) false a rest
termination_by pending.length
decreasing_by
  have hm := mem_of_keyField _hk
  have := List.length_pos_of_mem hm
  rw [List.length_erase_of_mem hm]
  omega

/-- Reads the given fields from a list until either ends. -/
def readFields (isFirst : Bool) (a : Assignment) (t : Text) :
    List Field → Except Fault (Assignment × Text)
  | [] => .ok (a, t)
  | field :: fields =>
    match nextItem isFirst t with
    | .error f => .error f
    | .ok (.stop rest) => .ok (a, rest)
    | .ok (.item rest) =>
      match readField field a rest with
      | .error f => .error f
      | .ok (a, rest) => readFields false a rest fields

/-- Reads an assignment. -/
def readAssignment (t : Text) : Except Fault (Assignment × Text) :=
  match skipBlanks t with
  | [] => .error (faultAt .endInValue [])
  | '\x7b' :: rest => readObject Field.all true {} rest
  | '[' :: rest => do
    let (a, rest) ← readFields true {} rest Field.all
    return (a, ← readListEnd rest)
  | rest => .error (mismatch "struct ExplorerConfig" rest)

end Config

namespace Assignment

/-- The assignment that a document holds. -/
def ofText (document : Text) : Except Json.Error Assignment :=
  Except.mapError (Json.Fault.place document) do
    let (a, rest) ← Config.readAssignment document
    Json.readEnd rest
    return a

end Assignment

end BlockExplorer
