import BlockExplorer.Codec.ByteList
import BlockExplorer.Codec.Decoding
import BlockExplorer.Json.Writer
import BlockExplorer.Request.Url

/-!
# BlockExplorer — settings

The settings of a session: where and how much to log, how bytes are decoded and
shown, and which parameters are masked. `Config.toJson` writes them as a
document of one line.
-/

namespace BlockExplorer

structure Config where
  /-- The name of a log level, as it was written. -/
  logLevel : Text
  /-- The directory of the log file; without one the log goes to standard error. -/
  logDir : Option Text
  decodeMode : DecodeMode
  byteFormat : ByteFormat
  /-- The keys of the parameters that are masked. -/
  redactedKeys : List Text
  deriving DecidableEq, Repr

/-- A build of the program: for those who work on it, or for those who use it. -/
inductive Build where
  | debug
  | release
  deriving DecidableEq, Repr

/-- The level of the log when none is asked for. A debug build tells more. -/
def Build.defaultLevel : Build → Level
  | debug => .debug
  | release => .info

namespace Config

/-- The settings of a build when nothing is asked for. -/
def ofBuild (build : Build) : Config where
  logLevel := build.defaultLevel.name.toList
  logDir := none
  decodeMode := .lenient
  byteFormat := .decimal
  redactedKeys := defaultRedactedKeys

/-- The settings when nothing is asked for. They are those of a debug build; a release build has
another level, and is the same otherwise. -/
def default : Config := ofBuild .debug

instance : Inhabited Config := ⟨default⟩

end Config

/-- A field of the settings document. -/
inductive Field where
  | logLevel
  | logDir
  | decodeMode
  | byteFormat
  | redactedKeys
  deriving DecidableEq, Repr

namespace Field

def name : Field → String
  | logLevel => "log_level"
  | logDir => "log_dir"
  | decodeMode => "decode_mode"
  | byteFormat => "byte_format"
  | redactedKeys => "redacted_keys"

/-- All fields, in the order in which a document writes them. -/
def all : List Field :=
  [logLevel, logDir, decodeMode, byteFormat, redactedKeys]

/-- The field of a name. -/
def named? (name : Text) : Option Field :=
  all.find? (·.name.toList = name)

/-- The value of a field, as a document writes it. -/
def toJson (config : Config) : Field → Text
  | logLevel => Json.string config.logLevel
  | logDir => config.logDir.elim "null".toList Json.string
  | decodeMode => Json.string config.decodeMode.name.toList
  | byteFormat => Json.string config.byteFormat.name.toList
  | redactedKeys => Json.list (config.redactedKeys.map Json.string)

end Field

/-- The settings as a document without blanks. -/
def Config.toJson (config : Config) : Text :=
  Json.compactObject (Field.all.map fun field => (field.name.toList, field.toJson config))

end BlockExplorer
