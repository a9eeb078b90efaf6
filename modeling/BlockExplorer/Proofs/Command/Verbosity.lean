import Mathlib.Control.Monad.Basic
import BlockExplorer.Proofs.Command.Outcome

/-!
# BlockExplorer — the log does not change the outcome

Two runs that are asked for different log levels, and differ in nothing else,
end alike. The level reaches nothing but the log: neither the check of the
settings (`resolve_atLevel`) nor the work of a command (`output_atLevel`)
depends on it, and so both runs report the same events, apart from the level
that the first of them tells and the time that the last of them tells. The log
of the less verbose run is then the part of the other that is as severe as its
level or more.

Main results:

* `map_masked_events` — the events of the two runs are the same when masked.
* `differ_of_levels` — two runs with different levels differ in their log alone.
-/

namespace BlockExplorer

-- ---------------------------------------------------------------------------
-- Levels
-- ---------------------------------------------------------------------------

/-- The settings with another level. -/
def Config.atLevel (config : Config) (level : Text) : Config :=
  { config with logLevel := level }

/-- The overrides with this level. -/
def Overrides.atLevel (o : Overrides) (level : Text) : Overrides :=
  { o with logLevel := some level }

/-- The invocation with this level on the command line. -/
def Invocation.atLevel (invocation : Invocation) (level : Text) : Invocation :=
  { invocation with overrides := invocation.overrides.atLevel level }

/-- An event without what it tells of the level of the log and of the time that passed. -/
def Event.masked : Event → Event
  | loggingStarted _ target => loggingStarted .trace target
  | commandFinished command _ => commandFinished command 0
  | e => e

/-- What is reported at the end of a run, behind the log lines. -/
def Ending.report : Ending → Text
  | misused error => "error: ".toList ++ error.message.toList ++ ['\n']
  | failed failure => failure.report
  | finished _ => []

/-- Outcomes that differ in their log alone: of the lines of `verbose`, `terse` has those that are
at least as severe as `level`, in the same order. -/
structure Outcome.DifferInLog (verbose terse : Outcome) (level : Level) : Prop where
  exitCode : terse.exitCode = verbose.exitCode
  stdout : terse.stdout = verbose.stdout
  /-- The report at the end is the same, behind the lines of the log. -/
  report : ∃ report, verbose.stderr = logText verbose.written ++ report ∧
    terse.stderr = logText terse.written ++ report
  lines : terse.written.map (·.masked.line) =
    (verbose.written.filter fun e => level.severity ≤ e.level.severity).map (·.masked.line)

variable {l l' : Text} {a b : Level}

/-- Settings with one valid level are checked like those with another. -/
theorem validate_atLevel (hl : Level.ofText? l = some a) (hl' : Level.ofText? l' = some b)
    (config : Config) : (config.atLevel l').validate = (config.atLevel l).validate := by
  have hvalid : (Level.ofText? (config.atLevel l').logLevel).isNone =
      (Level.ofText? (config.atLevel l).logLevel).isNone := by
    show (Level.ofText? l').isNone = (Level.ofText? l).isNone
    rw [hl, hl']
    rfl
  unfold Config.validate
  rw [hvalid]
  simp [Config.atLevel, hl]

/-- A valid level does not decide whether settings are found, nor any other field of them. -/
theorem resolve_atLevel (hl : Level.ofText? l = some a) (hl' : Level.ofText? l' = some b)
    (o : Overrides) (read : Text → Except FileError (List UInt8)) :
    (o.atLevel l').resolve read =
      ((o.atLevel l).resolve read).map fun config => config.atLevel l' := by
  -- the check at the end passes with both levels or with none
  have hcheck : ∀ config : Config,
      ((config.atLevel l').validate.mapError Failure.invalidConfig >>= fun _ =>
        Except.ok (config.atLevel l')) =
      ((config.atLevel l).validate.mapError Failure.invalidConfig >>= fun _ =>
        Except.ok (config.atLevel l)).map fun config => config.atLevel l' := by
    intro config
    rw [validate_atLevel hl hl']
    cases (config.atLevel l).validate <;> rfl
  obtain ⟨config?, level?, dir?⟩ := o
  cases config? with
  | none => exact hcheck (Overrides.apply ⟨none, level?, dir?⟩ Config.default)
  | some path =>
    show ((Config.ofBytes path (read path)).mapError _ >>= _) =
      Except.map _ ((Config.ofBytes path (read path)).mapError _ >>= _)
    cases Config.ofBytes path (read path) with
    | error e => rfl
    | ok base => exact hcheck (Overrides.apply ⟨some path, level?, dir?⟩ base)

/-- The work of a command does not look at the level. -/
theorem output_atLevel (command : Command) (config : Config) (level : Text) :
    command.output (config.atLevel level) = command.output config := by
  cases command <;> rfl

-- ---------------------------------------------------------------------------
-- Masked events
-- ---------------------------------------------------------------------------

theorem masked_level (e : Event) : e.masked.level = e.level := by
  cases e <;> rfl

/-- Masking leaves the level of an event, and so what a log lets through. -/
theorem map_masked_passed (logger : Logger) (events : List Event) :
    (logger.passed events).map Event.masked = logger.passed (events.map Event.masked) := by
  unfold Logger.passed
  rw [List.filter_map]
  congr 1
  refine List.filter_congr fun e _ => ?_
  rw [Function.comp, masked_level]

/-- What a less verbose log lets through are the records of the other that are severe enough. -/
theorem filter_passed (hab : a.severity ≤ b.severity) (target : Target) (events : List Event) :
    ((⟨a, target⟩ : Logger).passed events).filter (fun e => b.severity ≤ e.level.severity) =
      (⟨b, target⟩ : Logger).passed events := by
  unfold Logger.passed
  rw [List.filter_filter]
  refine List.filter_congr fun e _ => ?_
  -- the other log does not drop what is severe enough for this one
  have hother : b.severity ≤ e.level.severity → a.lets e.level = true := fun hb =>
    Level.lets_iff.mpr (Nat.le_trans hab hb)
  rw [Bool.eq_iff_iff, Bool.and_eq_true, decide_eq_true_eq, and_iff_left_of_imp hother]
  exact Level.lets_iff.symm

/-- **The events of two runs are the same when masked**, if only levels and times differ. -/
theorem map_masked_events (command : Command) (config : Config) (target : Target)
    (milliseconds milliseconds' : Nat) :
    (command.events (config.atLevel l') ⟨b, target⟩ milliseconds').map Event.masked =
      (command.events config ⟨a, target⟩ milliseconds).map Event.masked := by
  rw [Command.events, Command.events, recorded_events, recorded_events, output_atLevel]
  simp only [List.map_cons, List.map_append]
  split <;> rfl

/-- The events of two runs leave the same masked lines in a log, read from the other's log. -/
theorem map_masked_line_passed (hab : a.severity ≤ b.severity) (target : Target)
    {events events' : List Event} (hmasked : events'.map Event.masked = events.map Event.masked) :
    ((⟨b, target⟩ : Logger).passed events').map (·.masked.line) =
      (((⟨a, target⟩ : Logger).passed events).filter fun e =>
        b.severity ≤ e.level.severity).map (·.masked.line) := by
  have hline : ∀ es : List Event,
      es.map (·.masked.line) = (es.map Event.masked).map Event.line := by
    intro es
    rw [List.map_map]
    rfl
  rw [filter_passed hab, hline, hline, map_masked_passed, map_masked_passed, hmasked]

-- ---------------------------------------------------------------------------
-- Runs
-- ---------------------------------------------------------------------------

variable {files : Tree} {milliseconds milliseconds' : Nat} {args args' : List Text}

/-- The lines of the log come before the report at the end. -/
theorem stderr_eq (o : Outcome) : o.stderr = o.shownLog ++ o.ending.report := by
  unfold Outcome.stderr
  cases o.ending with
  | misused error =>
    show _ ++ _ ++ _ ++ _ = _ ++ (_ ++ _ ++ _)
    rw [List.append_assoc, List.append_assoc, List.append_assoc]
  | failed failure => rfl
  | finished output => exact (List.append_nil _).symm

/-- Outcomes with one ending, and with all log lines shown, differ in their log alone. -/
theorem differInLog_of_ending {verbose terse : Outcome} (hending : terse.ending = verbose.ending)
    (hverbose : verbose.shownLog = logText verbose.written)
    (hterse : terse.shownLog = logText terse.written)
    (hlines : terse.written.map (·.masked.line) =
      (verbose.written.filter fun e => b.severity ≤ e.level.severity).map (·.masked.line)) :
    verbose.DifferInLog terse b where
  exitCode := by rw [Outcome.exitCode, Outcome.exitCode, hending]
  stdout := by rw [Outcome.stdout, Outcome.stdout, hending]
  report := by
    refine ⟨verbose.ending.report, ?_, ?_⟩
    · rw [stderr_eq, hverbose]
    · rw [stderr_eq, hterse, hending]
  lines := hlines

theorem run_of_misused {error : UsageError} (hargs : Invocation.ofArguments args = .error error) :
    run files milliseconds args = ⟨.misused error, [], .fresh files⟩ := by
  rw [run, hargs]

theorem run_of_refused {invocation : Invocation} {failure : Failure}
    (hargs : Invocation.ofArguments args = .ok invocation)
    (hconfig : invocation.overrides.resolve files.read = .error failure) :
    run files milliseconds args = ⟨.failed failure, [], .fresh files⟩ := by
  rw [run, hargs]
  dsimp only
  rw [hconfig]

/-- A run whose settings have no directory logs to standard error. -/
theorem run_to_stderr {invocation : Invocation} {config : Config}
    (hargs : Invocation.ofArguments args = .ok invocation)
    (hconfig : invocation.overrides.resolve files.read = .ok config)
    (hdir : config.logDir = none) (hlevel : Level.ofText? config.logLevel = some a)
    (milliseconds : Nat) :
    ∃ session : Session, session.logger = some ⟨a, .stderr⟩ ∧
      run files milliseconds args = ⟨.ofResult (invocation.command.output config).value,
        (⟨a, .stderr⟩ : Logger).passed (invocation.command.events config ⟨a, .stderr⟩ milliseconds),
        session⟩ := by
  have htarget : config.target = .stderr := by
    rw [Config.target, hdir]
    rfl
  have hstart : Activates files (.startFrom config) ⟨a, .stderr⟩ :=
    ⟨config.logLevel, by rw [Action.request?, htarget], hlevel, trivial, trivial⟩
  -- the other stages are ruled out: arguments, settings and log are all in order
  have h := runs_run files milliseconds args
  generalize run files milliseconds args = o at h ⊢
  cases h with
  | @misused error hargs' => exact absurd ⟨error, hargs'⟩ (not_exists_error hargs)
  | @refused invocation' failure hargs' hconfig' =>
    exact absurd ⟨invocation', failure, hargs', hconfig'⟩ (Runs.not_refused_of_found hargs hconfig)
  | unlogged hargs' hconfig' hstart' =>
    obtain ⟨rfl, rfl⟩ := Runs.found_eq hargs hconfig hargs' hconfig'
    exact absurd hstart (hstart' _)
  | @worked invocation' config' logger session hargs' hconfig' hstart' hlogger =>
    obtain ⟨rfl, rfl⟩ := Runs.found_eq hargs hconfig hargs' hconfig'
    obtain rfl := hstart'.eq hstart
    exact ⟨session, hlogger, rfl⟩

theorem shownLog_of_stderr {o : Outcome} (h : o.session.logger = some ⟨a, .stderr⟩) :
    o.shownLog = logText o.written := by
  rw [Outcome.shownLog, h]

/-- **The log does not change the outcome.** Take two argument lists that are understood alike, or
not understood for one reason, but for the value of the log level, both valid, and settings without
a log directory. The runs end alike, and the log of the less verbose one is the part of the other
that is severe enough, once the level and the time are masked. -/
theorem differ_of_levels {parsed : Except UsageError Invocation}
    (hargs : Invocation.ofArguments args = parsed.map (·.atLevel l))
    (hargs' : Invocation.ofArguments args' = parsed.map (·.atLevel l'))
    (hl : Level.ofText? l = some a) (hl' : Level.ofText? l' = some b)
    (hab : a.severity ≤ b.severity)
    (hdir : ∀ invocation config, parsed = .ok invocation →
      (invocation.atLevel l).overrides.resolve files.read = .ok config → config.logDir = none) :
    (run files milliseconds args).DifferInLog (run files milliseconds' args') b := by
  cases parsed with
  | error error =>
    rw [run_of_misused hargs, run_of_misused hargs']
    exact differInLog_of_ending rfl rfl rfl rfl
  | ok invocation =>
    have hresolve := resolve_atLevel hl hl' invocation.overrides files.read
    have hself := resolve_atLevel hl hl invocation.overrides files.read
    -- the settings are found with both levels, or refused for one reason
    cases hconfig : (invocation.overrides.atLevel l).resolve files.read with
    | error failure =>
      rw [hconfig] at hresolve
      rw [run_of_refused hargs hconfig, run_of_refused hargs' hresolve]
      exact differInLog_of_ending rfl rfl rfl rfl
    | ok config =>
      rw [hconfig] at hresolve hself
      have hlevel : Level.ofText? config.logLevel = some a := by
        rw [Except.ok.inj hself]
        exact hl
      have hnone : config.logDir = none := hdir invocation config rfl hconfig
      obtain ⟨session, hsession, hrun⟩ := run_to_stderr hargs hconfig hnone hlevel milliseconds
      obtain ⟨session', hsession', hrun'⟩ :=
        run_to_stderr hargs' hresolve hnone hl' milliseconds'
      rw [hrun, hrun']
      refine differInLog_of_ending ?_ (shownLog_of_stderr hsession) (shownLog_of_stderr hsession')
        (map_masked_line_passed hab .stderr (map_masked_events _ config .stderr _ _))
      exact congrArg (fun result => Ending.ofResult result.value) (output_atLevel _ config l')

/-- A byte that cannot be decoded, with the level in front of the command and behind it. -/
theorem differ_of_trace_and_warn :
    (run ⟨[], []⟩ 3 ["--log-level".toList, "trace".toList, "decode".toList, "--strict".toList,
        "0xff".toList]).DifferInLog
      (run ⟨[], []⟩ 5 ["decode".toList, "0xff".toList, "--strict".toList,
        "--log-level= WARN".toList]) .warn := by
  let invocation : Invocation := ⟨.decode "0xff".toList (some .strict), {}⟩
  have hargs : Invocation.ofArguments ["--log-level".toList, "trace".toList, "decode".toList,
      "--strict".toList, "0xff".toList] =
        (Except.ok invocation).map (·.atLevel "trace".toList) := by
    decide +kernel
  have hargs' : Invocation.ofArguments ["decode".toList, "0xff".toList, "--strict".toList,
      "--log-level= WARN".toList] = (Except.ok invocation).map (·.atLevel " WARN".toList) := by
    decide +kernel
  refine differ_of_levels hargs hargs' (Level.ofText?_name .trace) (by decide) (by decide) ?_
  intro invocation' config hinvocation hconfig
  cases hinvocation
  cases hconfig
  rfl

end BlockExplorer
