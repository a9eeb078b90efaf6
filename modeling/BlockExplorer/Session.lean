import BlockExplorer.Config.Basic
import BlockExplorer.Files.Tree
import BlockExplorer.Log.Logger

/-!
# BlockExplorer — logging in a session

A session starts without an active log. The first request that can be served
makes it active, for good: the level and the target never change again. With it
a panic reporter is installed, which adds one record to the log for every panic.
Records that the active level does not let through are dropped, and so is
everything that is reported while no log is active.
-/

namespace BlockExplorer

/-- What a session knows of its log, and the files it works on. -/
structure Session where
  logger : Option Logger
  /-- The panic reporters that are installed; each reports every panic. -/
  reporters : Nat
  files : Tree
  deriving DecidableEq, Repr

/-- What happens in a session. -/
inductive Action where
  /-- A request for logging. -/
  | start (level : Text) (target : Target)
  /-- A request for the logging that settings ask for. -/
  | startFrom (config : Config)
  /-- Work that reports events. -/
  | work (events : List CodecEvent)
  /-- A panic, with its text if it has one. -/
  | panic (location : Text) (payload : Option Text)
  deriving DecidableEq, Repr

/-- What came of an action. -/
structure Step where
  session : Session
  result : Except LogError Unit
  /-- The records that reached the log, in order. -/
  written : List Event

/-- The target that settings ask for. -/
def Config.target (config : Config) : Target :=
  config.logDir.elim .stderr .directory

/-- Makes what a target needs before records can be written to it. -/
def Target.prepare (target : Target) (files : Tree) : Except LogError Unit × Tree :=
  match target with
  | stderr => (.ok (), files)
  | directory path =>
    let making := files.makeDirectories path
    (making.result.mapError (.directoryNotMade path), making.tree)

/-- Writes records to a target. A log file is made with its first record. -/
def Target.write (target : Target) (records : List Event) (files : Tree) : Tree :=
  match target.file? with
  | none => files
  | some path =>
    if records = [] then files
    else (files.append path (encode (logText records))).toOption.getD files

/-- The number of characters of a panic text that are shown. -/
def panicTextLimit : Nat := 160

/-- The record of a panic. -/
def Event.ofPanic (location : Text) (payload : Option Text) : Event :=
  .panicCaptured location
    (Text.oneLine panicTextLimit (payload.getD "non-string panic payload".toList))

namespace Session

/-- A session that has just begun. -/
def fresh (files : Tree) : Session where
  logger := none
  reporters := 0
  files := files

/-- Reports events: the active log writes those that it lets through. -/
def report (s : Session) (events : List Event) : Step :=
  match s.logger with
  | none => ⟨s, .ok (), []⟩
  | some logger =>
    let records := logger.passed events
    ⟨{ s with files := logger.target.write records s.files }, .ok (), records⟩

/-- Makes a log active. A panic reporter is installed unless there is one. -/
def activate (s : Session) (logger : Logger) (files : Tree) : Step :=
  report ⟨some logger, max s.reporters 1, files⟩ [.loggingStarted logger.level logger.target]

/-- Serves a request for logging. -/
def start (s : Session) (level : Text) (target : Target) : Step :=
  match Logger.ofRequest level target with
  | .error e => ⟨s, .error e, []⟩
  | .ok requested =>
    match s.logger with
    | some active => ⟨s, active.serves requested, []⟩
    | none =>
      match target.prepare s.files with
      | (.error e, files) => ⟨{ s with files := files }, .error e, []⟩
      | (.ok (), files) => s.activate requested files

/-- Serves a request for the logging that settings ask for. -/
def startFrom (s : Session) (config : Config) : Step :=
  s.start config.logLevel config.target

/-- Does one action. -/
def step (s : Session) : Action → Step
  | .start level target => s.start level target
  | .startFrom config => s.startFrom config
  | .work events => s.report (events.map .codec)
  | .panic location payload => s.report (List.replicate s.reporters (.ofPanic location payload))

/-- What comes of each of a list of actions, done one after the other. -/
def run (s : Session) : List Action → List Step
  | [] => []
  | action :: actions => s.step action :: run (s.step action).session actions

end Session

end BlockExplorer
