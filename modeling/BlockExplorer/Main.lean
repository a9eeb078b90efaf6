import BlockExplorer.Command.Run

/-!
# BlockExplorer — the program

The run of `BlockExplorer.run` on the files of the system: the file of settings
is read, the directory of the log is made, and the records and the result of
the command are written. All decisions are made elsewhere.
-/

namespace BlockExplorer

/-- The reason behind an error of the operating system. -/
def FileError.ofSystem : IO.Error → FileError
  | .noFileOrDirectory .. => .notFound
  | .alreadyExists .. => .alreadyExists
  | .inappropriateType _ 21 _ => .isDirectory
  | .inappropriateType .. => .notDirectory
  | .invalidArgument _ 36 _ => .nameTooLong
  | e => .other (toString e)

/-- The result of an action on files. -/
def attempt {α : Type} (action : IO α) : IO (Except FileError α) := do
  match ← action.toBaseIO with
  | .ok value => return .ok value
  | .error e => return .error (.ofSystem e)

/-- A session whose files are those of the system. -/
def outerSession : Session := .fresh ⟨[], []⟩

/-- Starts the log that settings ask for. -/
def startLog (config : Config) : IO Step := do
  match Logger.ofRequest config.logLevel config.target with
  | .error e => return ⟨outerSession, .error e, []⟩
  | .ok logger =>
    match config.logDir with
    | none => return outerSession.activate logger outerSession.files
    | some path =>
      match ← attempt (IO.FS.createDirAll (String.ofList path)) with
      | .error e => return ⟨outerSession, .error (.directoryNotMade path e), []⟩
      | .ok () => return outerSession.activate logger outerSession.files

/-- Runs the program with the given arguments. -/
def execute (args : List Text) : IO Outcome := do
  match Invocation.ofArguments args with
  | .error e => return ⟨.misused e, [], outerSession⟩
  | .ok ⟨command, overrides⟩ =>
    let content ← attempt do
      match overrides.config with
      | none => return []
      | some path => return (← IO.FS.readBinFile (String.ofList path)).toList
    match overrides.resolve fun _ => content with
    | .error failure => return ⟨.failed failure, [], outerSession⟩
    | .ok config =>
      let started ← startLog config
      let before ← IO.monoMsNow
      let result ← IO.lazyPure fun _ => command.output config
      return command.outcome started ((← IO.monoMsNow) - before) result

/-- Writes the result of a run, and its records to the log file if there is one. -/
def deliver (outcome : Outcome) : IO Unit := do
  if let some path := outcome.session.logger.bind (·.target.file?) then
    if outcome.written ≠ [] then
      let file ← IO.FS.Handle.mk (String.ofList path) .append
      file.putStr (String.ofList (logText outcome.written))
  IO.eprint (String.ofList outcome.stderr)
  IO.print (String.ofList outcome.stdout)

end BlockExplorer

def main (args : List String) : IO UInt32 := do
  let outcome ← BlockExplorer.execute (args.map String.toList)
  BlockExplorer.deliver outcome
  return outcome.exitCode.toUInt32
