import BlockExplorer.Codec.Error

/-!
# BlockExplorer — log events

Everything that the program reports in its log. An event determines its level
and its message, a line of `key=value` fields; `Event.line` is what a log line
shows of it, without what the backend adds.
-/

namespace BlockExplorer

/-- The version that the program reports. -/
def version : String := "0.1.0"

/-- Where log lines go. -/
inductive Target where
  | stderr
  /-- A log file inside a directory. -/
  | directory (path : Text)
  deriving DecidableEq, Repr

/-- The name by which status and messages show a target. -/
def Target.name : Target → Text
  | stderr => "stderr".toList
  | directory path => path

inductive Event where
  | codec (event : CodecEvent)
  /-- Logging became active. -/
  | loggingStarted (level : Level) (target : Target)
  /-- A panic was seen. -/
  | panicCaptured (location payload : Text)
  /-- A command is about to run. -/
  | commandStarted (command : String)
  /-- The parameters of a request were read. -/
  | queryParsed (keys : List Text)
  /-- A command ran without an error. -/
  | commandFinished (command : String) (milliseconds : Nat)
  deriving DecidableEq, Repr

namespace Event

def level : Event → Level
  | codec event => event.level
  | loggingStarted .. => .info
  | panicCaptured .. => .error
  | commandStarted .. => .info
  | queryParsed .. => .info
  | commandFinished .. => .info

def message : Event → String
  | codec event => event.message
  | loggingStarted level target =>
    "event=logging_init module=logging status=ok " ++
      s!"level={level.name} target={String.ofList target.name} version={version}"
  | panicCaptured location payload =>
    "event=panic_captured module=logging status=error " ++
      s!"location={String.ofList location} payload={String.ofList payload}"
  | commandStarted command =>
    s!"event=command module=cli status=start command={command}"
  | queryParsed keys =>
    let names := String.ofList (Text.join [','] keys)
    s!"event=query_parse module=cli status=ok param_count={keys.length} keys={names}"
  | commandFinished command milliseconds =>
    s!"event=command module=cli status=ok command={command} duration_ms={milliseconds}"

/-- Level and message, in the order in which a log line shows them. The line of the real log has
more: the backend puts the path of the reporting module between them and, in a file, the time stamp
and the place in the source. These are left out. -/
def line (e : Event) : String :=
  s!"{e.level.label} {e.message}"

end Event

/-- The log text of a list of events: each line ends with a line feed. -/
def logText (events : List Event) : Text :=
  events.flatMap fun e => e.line.toList ++ ['\n']

end BlockExplorer
