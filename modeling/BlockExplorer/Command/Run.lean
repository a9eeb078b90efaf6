import BlockExplorer.Command.Arguments
import BlockExplorer.Command.Failure
import BlockExplorer.Config.Loading
import BlockExplorer.Interval
import BlockExplorer.Json.Writer
import BlockExplorer.Request.Url
import BlockExplorer.Session

/-!
# BlockExplorer — running a command

A run understands its arguments, finds its settings, makes the log active and
does the work of the command, in this order; the first of these that fails ends
it. The file of settings is read before any file is made.
-/

namespace BlockExplorer

/-! ## Settings of a run -/

/-- The settings with those of the command line in place of their own. -/
def Overrides.apply (o : Overrides) (config : Config) : Config :=
  { config with
    logLevel := o.logLevel.getD config.logLevel
    logDir := o.logDir.or config.logDir }

/-- The settings of a run, from the bytes that `read` finds at a path. The file has to be valid by
itself, and the result too. -/
def Overrides.resolve (o : Overrides) (read : Text → Except FileError (List UInt8)) :
    Except Failure Config := do
  let base ←
    match o.config with
    | none => pure Config.default
    | some path => (Config.ofBytes path (read path)).mapError (.loadingConfig path)
  let config := o.apply base
  config.validate.mapError .invalidConfig
  return config

/-! ## The work of a command -/

namespace Command

/-- The bytes of a text as they are shown. -/
def encodeOutput (config : Config) (text : Text) (format : Option ByteFormat) : Text :=
  ByteList.render (format.getD config.byteFormat) (BlockExplorer.encode text)

/-- The text of a byte list. -/
def decodeOutput (config : Config) (bytes : Text) (mode : Option DecodeMode) :
    Logged CodecEvent (Except Failure Text) :=
  match ByteList.parse bytes with
  | .error e => pure (.error (.readingByteList e))
  | .ok bytes =>
    let mode := mode.getD config.decodeMode
    Except.mapError (.decoding bytes.length mode) <$> decodeWith mode (.bytes bytes)

/-- The parameters of a request as a document. Their keys are reported, the values are not. -/
def queryOutput (config : Config) (input : Text) : Logged Event (Except Failure Text) := do
  match ← (Url.parameters config.redactedKeys input).mapEvents .codec with
  | .error e => return .error (.readingQuery e)
  | .ok params =>
    Logged.report (.queryParsed params.keys)
    return .ok (Json.prettyObject params.entries)

/-- The average interval between two blocks. -/
def intervalOutput (first last : Int64) (count : UInt64) : Except Failure Text :=
  match averageBlockInterval last first count with
  | some interval => .ok (Numeral.signed interval.toInt)
  | none => .error (.noInterval count)

/-- The result of a command. -/
def output (config : Config) : Command → Logged Event (Except Failure Text)
  | encode text format => pure (.ok (encodeOutput config text format))
  | decode bytes mode => (decodeOutput config bytes mode).mapEvents .codec
  | query input => queryOutput config input
  | blockInterval first last count => pure (intervalOutput first last count)

/-- A result between the records of the start and, if it is a success, of the end of the
command. -/
def recorded (command : Command) (milliseconds : Nat)
    (result : Logged Event (Except Failure Text)) : Logged Event (Except Failure Text) := do
  Logged.report (.commandStarted command.name)
  let value ← result
  if value.isOk then Logged.report (.commandFinished command.name milliseconds)
  return value

end Command

/-! ## The outcome of a run -/

/-- How a run ends. -/
inductive Ending where
  /-- The arguments were not understood. -/
  | misused (error : UsageError)
  | failed (failure : Failure)
  | finished (output : Text)
  deriving DecidableEq

/-- The ending with the result of a command. -/
def Ending.ofResult : Except Failure Text → Ending
  | .ok output => finished output
  | .error failure => failed failure

structure Outcome where
  ending : Ending
  /-- The records that reached the log, in order. -/
  written : List Event
  session : Session
  deriving DecidableEq

namespace Outcome

def exitCode (o : Outcome) : UInt8 :=
  match o.ending with
  | .finished _ => 0
  | .failed _ => 1
  | .misused _ => 2

def stdout (o : Outcome) : Text :=
  match o.ending with
  | .finished output => output ++ ['\n']
  | _ => []

/-- The log lines that go to standard error. -/
def shownLog (o : Outcome) : Text :=
  match o.session.logger with
  | some ⟨_, .stderr⟩ => logText o.written
  | _ => []

/-- The log lines, and the report of a failure after them. -/
def stderr (o : Outcome) : Text :=
  match o.ending with
  | .finished _ => o.shownLog
  | .failed failure => o.shownLog ++ failure.report
  | .misused error => o.shownLog ++ "error: ".toList ++ error.message.toList ++ ['\n']

end Outcome

/-- The outcome of a command: `started` is what came of the request for logging that its settings
make, and `result` comes of its work, which is left out when logging did not start. -/
def Command.outcome (command : Command) (started : Step) (milliseconds : Nat)
    (result : Logged Event (Except Failure Text)) : Outcome :=
  match started.result with
  | .error e => ⟨.failed (.startingLog e), started.written, started.session⟩
  | .ok () =>
    let recorded := command.recorded milliseconds result
    let logged := started.session.report recorded.events
    ⟨.ofResult recorded.value, started.written ++ logged.written, logged.session⟩

/-- Runs the program with the given arguments on a tree of files; the command takes some time. -/
def run (files : Tree) (milliseconds : Nat) (args : List Text) : Outcome :=
  let session := Session.fresh files
  match Invocation.ofArguments args with
  | .error e => ⟨.misused e, [], session⟩
  | .ok ⟨command, overrides⟩ =>
    match overrides.resolve files.read with
    | .error failure => ⟨.failed failure, [], session⟩
    | .ok config =>
      command.outcome (session.startFrom config) milliseconds (command.output config)

end BlockExplorer
