import BlockExplorer.Files.Basic
import BlockExplorer.Log.Event

/-!
# BlockExplorer — the active log

Logging becomes active once, with one level and one target. A later request is
granted when it asks for the same, and refused otherwise; a directory is the
same when its path has the same components. `Logger.ofRequest` judges a request
by itself, `Logger.serves` against the active log; neither touches a file.
-/

namespace BlockExplorer

/-- Why logging cannot be started. -/
inductive LogError where
  | unsupportedLevel (level : Text)
  | emptyDirectory
  | relativeDirectory (path : Text)
  /-- Logging is active at another target. -/
  | targetConflict (active requested : Target)
  /-- Logging is active with another level. -/
  | levelConflict (active requested : Level)
  | directoryNotMade (path : Text) (reason : FileError)
  deriving DecidableEq, Repr

def LogError.message : LogError → String
  | unsupportedLevel level => Level.unsupportedMessage level
  | emptyDirectory => "log directory cannot be empty"
  | relativeDirectory path =>
    s!"log directory must be an absolute path, got `{String.ofList path}`"
  | targetConflict active requested =>
    s!"logging already initialized at `{String.ofList active.name}`; " ++
      s!"refusing to switch to `{String.ofList requested.name}`"
  | levelConflict active requested =>
    s!"logging already initialized with level `{active.name}`; " ++
      s!"refusing to switch to `{requested.name}`"
  | directoryNotMade path reason =>
    s!"failed to create log directory `{String.ofList path}`: {reason.message}"

namespace Target

/-- Two targets are the same place to log to. -/
def same : Target → Target → Bool
  | stderr, stderr => true
  | directory p, directory q => Path.same p q
  | _, _ => false

/-- Why a target cannot be used, if it cannot. -/
def fault? : Target → Option LogError
  | stderr => none
  | directory path =>
    if path = [] then some .emptyDirectory
    else if Path.isAbsolute path then none
    else some (.relativeDirectory path)

/-- The log file of a target, if it is one. -/
def file? : Target → Option Text
  | stderr => none
  | directory path => some (path ++ "/chainview_rCURRENT.log".toList)

end Target

/-- An active log. -/
structure Logger where
  level : Level
  target : Target
  deriving DecidableEq, Repr

namespace Logger

/-- The events that an active log lets through. -/
def passed (logger : Logger) (events : List Event) : List Event :=
  events.filter fun e => logger.level.lets e.level

/-- Whether an active log serves a request for `requested`. -/
def serves (active requested : Logger) : Except LogError Unit :=
  if ¬ active.target.same requested.target then
    .error (.targetConflict active.target requested.target)
  else if active.level ≠ requested.level then
    .error (.levelConflict active.level requested.level)
  else .ok ()

/-- The log that is asked for by a level and a target, if both can be used. -/
def ofRequest (level : Text) (target : Target) : Except LogError Logger :=
  match Level.ofText? level with
  | none => .error (.unsupportedLevel level)
  | some l =>
    match target.fault? with
    | some e => .error e
    | none => .ok ⟨l, target⟩

end Logger

end BlockExplorer
