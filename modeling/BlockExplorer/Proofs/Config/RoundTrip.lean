import BlockExplorer.Config.Loading
import BlockExplorer.Proofs.Json.RoundTrip

/-!
# BlockExplorer — settings as documents

Settings that are written as a document are read back: the value of each field
gives its value (`readField_toJson`), an entry of the object sets its field
(`readObject_entry`), and so an object of any fields, each with its value in the
settings, assigns these values (`readObject_join`). With all fields assigned
nothing is left of the defaults. What remains is the check, which sees the same
settings before and after.

Main results:

* `ofText_assignment_toJson` — a document of settings assigns them, whatever
  their texts are.
* `ofText_toJson` — reading a document of settings is checking them.
-/

namespace BlockExplorer

open Json

/-- The assignment with the value that the settings have for one more field. -/
def Assignment.assign (config : Config) (a : Assignment) : Field → Assignment
  | .logLevel => { a with logLevel := some config.logLevel }
  | .logDir => { a with logDir := some config.logDir }
  | .decodeMode => { a with decodeMode := some config.decodeMode }
  | .byteFormat => { a with byteFormat := some config.byteFormat }
  | .redactedKeys => { a with redactedKeys := some config.redactedKeys }

theorem Assignment.applyTo_all (config other : Config) :
    (Field.all.foldl (Assignment.assign config) {}).applyTo other = config :=
  rfl

namespace Config

-- ---------------------------------------------------------------------------
-- Values
-- ---------------------------------------------------------------------------

/-- A directory is read back, also when there is none. -/
theorem readDirectory_toJson (config : Config) (rest : Text) :
    readDirectory (Field.logDir.toJson config ++ rest) = .ok (config.logDir, rest) := by
  cases hdir : config.logDir with
  | none =>
    have hjson : Field.logDir.toJson config ++ rest = 'n' :: ("ull".toList ++ rest) := by
      rw [Field.toJson, hdir]
      rfl
    rw [hjson]
    rfl
  | some path =>
    have hjson : Field.logDir.toJson config ++ rest = string path ++ rest := by
      rw [Field.toJson, hdir]
      rfl
    have hread : readDirectory (string path ++ rest) =
        (readText "path string" (string path ++ rest)).map (Prod.map some id) := by
      rw [string_append]
      rfl
    rw [hjson, hread, readText_string]
    rfl

/-- **The value of a field is read back.** -/
theorem readField_toJson (config : Config) (field : Field) (a : Assignment) (rest : Text) :
    readField field a (field.toJson config ++ rest) = .ok (a.assign config field, rest) := by
  -- a text, a text or nothing, two names, and a list of texts
  cases field with
  | logLevel =>
    rw [Field.toJson, readField, readText_string]
    rfl
  | logDir =>
    rw [readField, readDirectory_toJson]
    rfl
  | decodeMode =>
    have hmode : DecodeMode.variants.lookup config.decodeMode.name = some config.decodeMode := by
      cases config.decodeMode <;> rfl
    rw [Field.toJson, readField, readVariant_string hmode]
    rfl
  | byteFormat =>
    have hformat : ByteFormat.variants.lookup config.byteFormat.name = some config.byteFormat := by
      cases config.byteFormat <;> rfl
    rw [Field.toJson, readField, readVariant_string hformat]
    rfl
  | redactedKeys =>
    rw [Field.toJson, readField, readTexts_list]
    rfl

-- ---------------------------------------------------------------------------
-- Objects
-- ---------------------------------------------------------------------------

/-- An entry of the document. -/
def entry (config : Config) (field : Field) : Text :=
  string field.name.toList ++ [':'] ++ field.toJson config

/-- Each field has a name of its own. -/
theorem named?_name (field : Field) : Field.named? field.name.toList = some field := by
  cases field <;> decide

/-- The name of a field that was not read yet is its key. -/
theorem keyField_name {pending : List Field} {field : Field} (h : field ∈ pending) (rest : Text) :
    keyField pending field.name.toList rest = .ok field := by
  rw [keyField, named?_name]
  exact if_pos h

/-- What is left behind the opening quote of an entry. -/
def entryTail (config : Config) (field : Field) (rest : Text) : Text :=
  field.name.toList.flatMap escaped ++ '"' :: ':' :: (field.toJson config ++ rest)

theorem entry_append (config : Config) (field : Field) (rest : Text) :
    entry config field ++ rest = '"' :: entryTail config field rest := by
  rw [entry, List.append_assoc, List.append_assoc, string_append]
  rfl

theorem readString_entryTail (config : Config) (field : Field) (rest : Text) :
    readString (entryTail config field rest) =
      .ok (field.name.toList, ':' :: (field.toJson config ++ rest)) :=
  readString_flatMap _ _

/-- **One step of reading an object**: its next entry sets the field of its key. -/
theorem readObject_step {pending : List Field} {isFirst : Bool} {a a' : Assignment} {field : Field}
    {t r r' key rest : Text} (hnext : nextKey isFirst t = .ok (.item r))
    (hkey : readString r = .ok (key, r')) (hfield : keyField pending key r' = .ok field)
    (hvalue : (readColon r' >>= readField field a) = .ok (a', rest)) :
    readObject pending isFirst a t = readObject (pending.erase field) false a' rest := by
  rw [readObject, hnext]
  dsimp only
  rw [hkey]
  dsimp only
  split
  · next hk =>
    rw [hfield] at hk
    cases hk
  · next hk =>
    rw [hfield] at hk
    cases hk
    rw [hvalue]

/-- The next entry of a document sets its field to the value in the settings. -/
theorem readObject_entry {pending : List Field} {isFirst : Bool} {field : Field} {t rest : Text}
    (hfield : field ∈ pending) (h : nextKey isFirst t = .ok (.item (entryTail config field rest)))
    (a : Assignment) :
    readObject pending isFirst a t =
      readObject (pending.erase field) false (a.assign config field) rest := by
  have hvalue : (readColon (':' :: (field.toJson config ++ rest)) >>= readField field a) =
      .ok (a.assign config field, rest) :=
    readField_toJson config field a rest
  exact readObject_step h (readString_entryTail config field rest) (keyField_name hfield _) hvalue

theorem readObject_end (pending : List Field) (isFirst : Bool) (a : Assignment) (rest : Text) :
    readObject pending isFirst a ('\x7d' :: rest) = .ok (a, rest) := by
  rw [readObject]
  rfl

/-- The induction is on the fields behind the first, which are those not read yet. -/
theorem readObject_flatMap (config : Config) (fields : List Field) (a : Assignment) (rest : Text) :
    readObject fields false a
        ((fields.map (entry config)).flatMap ([','] ++ ·) ++ '\x7d' :: rest) =
      .ok (fields.foldl (Assignment.assign config) a, rest) := by
  induction fields generalizing a with
  | nil => exact readObject_end [] false a rest
  | cons field fields ih =>
    have hkey : ∀ more, nextKey false ([','] ++ entry config field ++ more) =
        .ok (.item (entryTail config field more)) := by
      intro more
      rw [List.append_assoc, entry_append]
      rfl
    rw [List.map_cons, List.flatMap_cons, List.append_assoc,
      readObject_entry List.mem_cons_self (hkey _), List.erase_cons_head]
    exact ih _

/-- **An object of fields is read back**, whichever they are. -/
theorem readObject_join (config : Config) (fields : List Field) (a : Assignment) (rest : Text) :
    readObject fields true a (Text.join [','] (fields.map (entry config)) ++ '\x7d' :: rest) =
      .ok (fields.foldl (Assignment.assign config) a, rest) := by
  -- the first field has no comma before it
  cases fields with
  | nil => exact readObject_end [] true a rest
  | cons field fields =>
    have hkey : ∀ more, nextKey true (entry config field ++ more) =
        .ok (.item (entryTail config field more)) := by
      intro more
      rw [entry_append]
      rfl
    rw [List.map_cons, Text.join_cons, List.append_assoc,
      readObject_entry List.mem_cons_self (hkey _), List.erase_cons_head]
    exact readObject_flatMap config fields _ rest

-- ---------------------------------------------------------------------------
-- Documents
-- ---------------------------------------------------------------------------

/-- The document is made of the entries of all fields. -/
theorem toJson_eq (config : Config) :
    config.toJson = '\x7b' :: (Text.join [','] (Field.all.map (entry config)) ++ ['\x7d']) :=
  rfl

/-- The document of settings is read as the assignment of all their values. -/
theorem readAssignment_toJson (config : Config) :
    readAssignment config.toJson = .ok (Field.all.foldl (Assignment.assign config) {}, []) := by
  rw [toJson_eq]
  exact readObject_join config Field.all {} []

/-- **A document of settings assigns them**, whatever their texts are. -/
theorem ofText_assignment_toJson (config : Config) :
    Assignment.ofText config.toJson = .ok (Field.all.foldl (Assignment.assign config) {}) := by
  rw [Assignment.ofText, readAssignment_toJson]
  rfl

-- ---------------------------------------------------------------------------
-- Checking
-- ---------------------------------------------------------------------------

/-- The check finds fault with a value, never with a document. -/
theorem validate_eq_error {config : Config} {e : ConfigError} (h : config.validate = .error e) :
    e = .unsupportedLevel config.logLevel ∨
      (∃ path, config.logDir = some path ∧ e = .relativeDirectory path) ∨ e = .blankKey := by
  -- the keys are checked last, with a directory and without one
  have hkeys : (if config.redactedKeys.any Text.isAllBlank then .error .blankKey else .ok () :
      Except ConfigError Unit) = .error e → e = .blankKey := by
    intro hblank
    -- the checks of level, directory and keys, in this order
    split at hblank
    · cases hblank
      rfl
    · cases hblank
  unfold validate at h
  dsimp only at h
  split at h
  · cases h
    exact .inl rfl
  split at h
  · split at h
    · next path hdir _ =>
      cases h
      exact .inr (.inl ⟨path, hdir, rfl⟩)
    · exact .inr (.inr (hkeys h))
  · exact .inr (.inr (hkeys h))

/-- **Settings survive being written.** What is read from the document of settings is the settings
again if they are valid, and otherwise the error of the check; the document is never at fault. -/
theorem ofText_toJson (config : Config) :
    Config.ofText config.toJson = config.validate.map (fun _ => config) ∧
      ∀ reason, Config.ofText config.toJson ≠ .error (.malformed reason) := by
  have hread : Config.ofText config.toJson = config.validate.map (fun _ => config) := by
    rw [ofText, ofText_assignment_toJson]
    dsimp only
    rw [Assignment.applyTo_all]
    cases config.validate <;> rfl
  refine ⟨hread, fun reason h => ?_⟩
  rw [hread] at h
  cases hvalid : config.validate with
  | ok u =>
    rw [hvalid] at h
    cases h
  | error e =>
    rw [hvalid] at h
    cases h
    rcases validate_eq_error hvalid with he | ⟨path, -, he⟩ | he
    all_goals cases he

end Config

end BlockExplorer
