import BlockExplorer.Command.Run
import BlockExplorer.Proofs.Session.Activation

/-!
# BlockExplorer — outcomes of the program

A run of the program ends in one of four stages: its arguments are not
understood, its settings cannot be had, its log cannot be started, or its
command has a result. `Runs` lists them, each with the outcome that it has, and
`runs_run` says that there are no others. In the last stage all records are
those events that the level of the log lets through, in the order of
`Command.events`.

Main results:

* `runs_run` — a run of the program goes as one of the stages.
* `obeysLaw_run` — exit code, output, files and records of any run.
-/

namespace BlockExplorer

-- ---------------------------------------------------------------------------
-- Stages
-- ---------------------------------------------------------------------------

/-- Everything that a run reports, from the start of its log on. -/
def Command.events (command : Command) (config : Config) (logger : Logger) (milliseconds : Nat) :
    List Event :=
  .loggingStarted logger.level logger.target :: (command.recorded milliseconds
    (command.output config)).events

/-- The stages in which a run can end. -/
inductive Runs (files : Tree) (milliseconds : Nat) (args : List Text) : Outcome → Prop where
  | misused {error : UsageError} (hargs : Invocation.ofArguments args = .error error) :
      Runs files milliseconds args ⟨.misused error, [], .fresh files⟩
  | refused {invocation : Invocation} {failure : Failure}
      (hargs : Invocation.ofArguments args = .ok invocation)
      (hconfig : invocation.overrides.resolve files.read = .error failure) :
      Runs files milliseconds args ⟨.failed failure, [], .fresh files⟩
  | unlogged {invocation : Invocation} {config : Config} {error : LogError} {session : Session}
      (hargs : Invocation.ofArguments args = .ok invocation)
      (hconfig : invocation.overrides.resolve files.read = .ok config)
      (hstart : ∀ logger, ¬ Activates files (.startFrom config) logger)
      (hlogger : session.logger = none) :
      Runs files milliseconds args ⟨.failed (.startingLog error), [], session⟩
  | worked {invocation : Invocation} {config : Config} {logger : Logger} {session : Session}
      (hargs : Invocation.ofArguments args = .ok invocation)
      (hconfig : invocation.overrides.resolve files.read = .ok config)
      (hstart : Activates files (.startFrom config) logger)
      (hlogger : session.logger = some logger) :
      Runs files milliseconds args
        ⟨.ofResult (invocation.command.output config).value,
          logger.passed (invocation.command.events config logger milliseconds), session⟩

/-- An active log lets events through by its level. -/
theorem report_of_active {s : Session} {logger : Logger} (hs : s.logger = some logger)
    (events : List Event) : (s.report events).written = logger.passed events := by
  rw [Session.report, hs]

theorem Logger.passed_append (logger : Logger) (events more : List Event) :
    logger.passed (events ++ more) = logger.passed events ++ logger.passed more :=
  List.filter_append events more

theorem recorded_value (command : Command) (milliseconds : Nat)
    (result : Logged Event (Except Failure Text)) :
    (command.recorded milliseconds result).value = result.value := by
  show (ite (result.value.isOk = true) _ _ : Logged Event (Except Failure Text)).value = _
  split <;> rfl

/-- A command is recorded between its start and, if it succeeds, its end. -/
theorem recorded_events (command : Command) (milliseconds : Nat)
    (result : Logged Event (Except Failure Text)) :
    (command.recorded milliseconds result).events =
      .commandStarted command.name :: (result.events ++
        if result.value.isOk then [.commandFinished command.name milliseconds] else []) := by
  show _ :: (_ ++ (ite (result.value.isOk = true) _ _ : Logged Event _).events) = _
  split <;> rfl

/-- **A run ends in one of the stages.** -/
theorem runs_run (files : Tree) (milliseconds : Nat) (args : List Text) :
    Runs files milliseconds args (run files milliseconds args) := by
  unfold run
  dsimp only
  split
  · next hargs => exact .misused hargs
  · next command overrides hargs =>
    split
    · next hconfig => exact .refused hargs hconfig
    · next config hconfig =>
      have hfresh : (Session.fresh files).logger = none := rfl
      show Runs _ _ _ (command.outcome ((Session.fresh files).step (.startFrom config)) _ _)
      unfold Command.outcome
      -- the log of the settings can be started, or nothing is written at all
      by_cases hstart : ∃ logger, Activates files (.startFrom config) logger
      · obtain ⟨logger, hlogger⟩ := hstart
        obtain ⟨hresult, hactive, hwritten⟩ := Session.step_of_activates hfresh hlogger
        rw [hresult]
        dsimp only
        rw [hwritten, report_of_active hactive, ← logger.passed_loggingStarted,
          ← logger.passed_append, recorded_value]
        exact .worked hargs hconfig hlogger ((Session.report_logger _).trans hactive)
      · obtain ⟨hresult, hnone, hwritten⟩ :=
          Session.step_of_not_activates hfresh rfl (not_exists.mp hstart)
        rw [hwritten]
        split
        · exact .unlogged hargs hconfig (not_exists.mp hstart) hnone
        · next hok => exact absurd hok hresult

-- ---------------------------------------------------------------------------
-- The work of a command
-- ---------------------------------------------------------------------------

/-- The event tells that a command started or finished. -/
def Event.isCommand : Event → Bool
  | commandStarted _ => true
  | commandFinished _ _ => true
  | _ => false

/-- The query command, by what comes of reading the parameters: once they are read, their keys are
reported. -/
theorem queryOutput_eq (config : Config) (input : Text) :
    Command.queryOutput config input =
      match Url.parameters config.redactedKeys input with
      | ⟨.error e, events⟩ => ⟨.error (.readingQuery e), events.map .codec⟩
      | ⟨.ok params, events⟩ =>
        ⟨.ok (Json.prettyObject params.entries),
          events.map .codec ++ [.queryParsed params.keys]⟩ := by
  unfold Command.queryOutput
  cases Url.parameters config.redactedKeys input with
  | mk value events =>
    cases value with
    | error e =>
      show (⟨_, _ ++ []⟩ : Logged Event _) = _
      rw [List.append_nil]
      rfl
    | ok params => rfl

/-- The work of a command reports neither its start nor its end. -/
theorem isCommand_of_mem_output {config : Config} {command : Command} {e : Event}
    (he : e ∈ (command.output config).events) : e.isCommand = false := by
  -- records of the codec are about neither
  have hcodec : ∀ events : List CodecEvent, e ∈ events.map Event.codec → e.isCommand = false := by
    intro events he
    obtain ⟨event, -, rfl⟩ := List.mem_map.mp he
    rfl
  cases command with
  | encode text format => cases he
  | decode bytes mode => exact hcodec _ he
  | query input =>
    rw [Command.output, queryOutput_eq] at he
    split at he
    · exact hcodec _ he
    · rcases List.mem_append.mp he with he | he
      · exact hcodec _ he
      · rw [List.mem_singleton.mp he]
        rfl
  | blockInterval first last count => cases he

/-- What a run reports of its command, besides the work, is the start and the end of a success. -/
theorem filter_isCommand_events (command : Command) (config : Config) (logger : Logger)
    (milliseconds : Nat) :
    (command.events config logger milliseconds).filter Event.isCommand =
      .commandStarted command.name ::
        if (command.output config).value.isOk then [.commandFinished command.name milliseconds]
        else [] := by
  have hwork : (command.output config).events.filter Event.isCommand = [] := by
    rw [List.filter_eq_nil_iff]
    intro e he
    rw [isCommand_of_mem_output he]
    exact Bool.false_ne_true
  rw [Command.events, recorded_events]
  show .commandStarted command.name :: List.filter Event.isCommand (_ ++ _) = _
  rw [List.filter_append, hwork]
  split <;> rfl

/-- A level that lets the records of a command through leaves them as they are. -/
theorem filter_isCommand_passed {logger : Logger} (hlets : logger.level.lets .info = true)
    (events : List Event) :
    (logger.passed events).filter Event.isCommand = events.filter Event.isCommand := by
  unfold Logger.passed
  rw [List.filter_filter]
  refine List.filter_congr fun e _ => ?_
  cases e with
  | commandStarted name => exact (Bool.true_and _).trans hlets
  | commandFinished name milliseconds => exact (Bool.true_and _).trans hlets
  | _ => rfl

theorem not_exists_error {ε α : Type} {x : Except ε α} {a : α} (h : x = .ok a) :
    ¬ ∃ e, x = .error e := by
  rintro ⟨e, he⟩
  rw [h] at he
  cases he

namespace Runs

variable {files : Tree} {milliseconds : Nat} {args : List Text} {o : Outcome}

/-- Each stage prints nothing and fails, except for a command with a result. -/
theorem exit (h : Runs files milliseconds args o) :
    (o.exitCode = 0 ∧ ∃ invocation config text,
      Invocation.ofArguments args = .ok invocation ∧
      invocation.overrides.resolve files.read = .ok config ∧
      (invocation.command.output config).value = .ok text ∧ o.stdout = text ++ ['\n']) ∨
    (o.exitCode = 1 ∨ o.exitCode = 2) ∧ o.stdout = [] := by
  cases h with
  | misused hargs => exact .inr ⟨.inr rfl, rfl⟩
  | refused hargs hconfig => exact .inr ⟨.inl rfl, rfl⟩
  | unlogged hargs hconfig hstart hlogger => exact .inr ⟨.inl rfl, rfl⟩
  | @worked invocation config logger session hargs hconfig hstart hlogger =>
    cases hvalue : (invocation.command.output config).value with
    | error failure => exact .inr ⟨.inl rfl, rfl⟩
    | ok text => exact .inl ⟨rfl, invocation, config, text, hargs, hconfig, hvalue, rfl⟩

/-- The settings of a run are found in one way. -/
theorem found_eq {invocation invocation' : Invocation} {config config' : Config}
    (hargs : Invocation.ofArguments args = .ok invocation)
    (hconfig : invocation.overrides.resolve files.read = .ok config)
    (hargs' : Invocation.ofArguments args = .ok invocation')
    (hconfig' : invocation'.overrides.resolve files.read = .ok config') :
    invocation' = invocation ∧ config' = config := by
  have hinvocation : invocation' = invocation := Except.ok.inj (hargs'.symm.trans hargs)
  subst hinvocation
  exact ⟨rfl, Except.ok.inj (hconfig'.symm.trans hconfig)⟩

/-- Settings that are found are not refused. -/
theorem not_refused_of_found {invocation : Invocation} {config : Config}
    (hargs : Invocation.ofArguments args = .ok invocation)
    (hconfig : invocation.overrides.resolve files.read = .ok config) :
    ¬ ∃ invocation failure, Invocation.ofArguments args = .ok invocation ∧
      invocation.overrides.resolve files.read = .error failure := by
  rintro ⟨invocation', failure, hargs', hconfig'⟩
  have hinvocation : invocation' = invocation := Except.ok.inj (hargs'.symm.trans hargs)
  subst hinvocation
  exact not_exists_error hconfig ⟨failure, hconfig'⟩

/-- A run that succeeds has the record of its start and then that of its end. -/
theorem finished (h : Runs files milliseconds args o) (hexit : o.exitCode = 0) :
    ∃ invocation logger,
      Invocation.ofArguments args = .ok invocation ∧ o.session.logger = some logger ∧
      (logger.level.lets .info = true → o.written.filter Event.isCommand =
        [.commandStarted invocation.command.name,
          .commandFinished invocation.command.name milliseconds]) := by
  cases h with
  | misused hargs => cases hexit
  | refused hargs hconfig => cases hexit
  | unlogged hargs hconfig hstart hlogger => cases hexit
  | @worked invocation config logger session hargs hconfig hstart hlogger =>
    refine ⟨invocation, logger, hargs, hlogger, fun hlets => ?_⟩
    cases hvalue : (invocation.command.output config).value with
    | error failure =>
      rw [hvalue] at hexit
      cases hexit
    | ok text =>
      rw [filter_isCommand_passed hlets, filter_isCommand_events, hvalue]
      rfl

end Runs

end BlockExplorer
