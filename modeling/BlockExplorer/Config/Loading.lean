import BlockExplorer.Config.Reader
import BlockExplorer.Files.Tree

/-!
# BlockExplorer — valid settings

Settings are valid when the level names a log level, the directory is an
absolute path and no masked key is blank; the first of these that fails is the
error. Settings that are read from a document or a file are always valid. Two of
the errors have a cause of their own, which `ConfigError.source?` shows apart.
-/

namespace BlockExplorer

inductive ConfigError where
  /-- The file of the settings cannot be read. -/
  | unreadable (path : Text) (reason : FileError)
  /-- The file holds no settings. -/
  | malformed (reason : Json.Error)
  /-- The text names no log level. -/
  | unsupportedLevel (level : Text)
  | relativeDirectory (path : Text)
  /-- A masked key that is empty or blank. -/
  | blankKey
  deriving DecidableEq

namespace ConfigError

def message : ConfigError → String
  | unreadable path reason =>
    s!"failed to read config `{String.ofList path}`: {reason.message}"
  | malformed reason => s!"invalid config JSON: {reason.message}"
  | unsupportedLevel level => Level.unsupportedMessage level
  | relativeDirectory path =>
    s!"log_dir must be an absolute path, got `{String.ofList path}`"
  | blankKey => "redacted_keys cannot contain blank entries"

/-- What is behind the error. -/
def source? : ConfigError → Option String
  | unreadable _ reason => some reason.message
  | malformed reason => some reason.message
  | _ => none

end ConfigError

namespace Config

/-- Fails unless the settings are valid. -/
def validate (config : Config) : Except ConfigError Unit := do
  if (Level.ofText? config.logLevel).isNone then throw (.unsupportedLevel config.logLevel)
  if let some path := config.logDir then
    if ¬ Path.isAbsolute path then throw (.relativeDirectory path)
  if config.redactedKeys.any Text.isAllBlank then throw .blankKey

/-- The valid settings that a document holds; missing fields have their defaults. -/
def ofText (document : Text) : Except ConfigError Config := do
  match Assignment.ofText document with
  | .error e => throw (.malformed e)
  | .ok a =>
    let config := a.applyTo Config.default
    config.validate
    return config

/-- The valid settings in the bytes that were read at a path, or the reason why none were. -/
def ofBytes (path : Text) (content : Except FileError (List UInt8)) : Except ConfigError Config :=
  match content with
  | .error e => .error (.unreadable path e)
  | .ok bytes =>
    match textOfBytes bytes with
    | .error _ => .error (.unreadable path .notText)
    | .ok document => ofText document

/-- The valid settings in the file at a path. -/
def load (files : Tree) (path : Text) : Except ConfigError Config :=
  ofBytes path (files.read path)

end Config

end BlockExplorer
