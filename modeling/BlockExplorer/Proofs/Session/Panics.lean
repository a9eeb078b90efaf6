import BlockExplorer.Proofs.Files.Tree
import BlockExplorer.Proofs.Session.Activation
import BlockExplorer.Proofs.Text.OneLine

/-!
# BlockExplorer — panics in the log

A panic is reported by every panic reporter that is installed, so that one
reporter too many would record it twice, and one too few not at all. The
invariant is that a session has one reporter if its log is active, and none
otherwise (`HasReporter`). Each action keeps it, whether it is a request that is
granted or refused, work, or a panic (`HasReporter.step`), and so does any list
of actions. What a panic does is then determined by the log
(`step_panic_of_inactive`, `step_panic_of_active`), and not by its level, since
every level lets errors through.

Main results:

* `read_step_panic` — the line of a panic is written at the end of the log file.
* `filter_records_of_opening` — the panics in the log are those since it is
  active, one record each.
* `recordsPanics` — the next panic, and all of them, for every list of actions.
-/

namespace BlockExplorer

/-- The record of an action, if it is a panic. -/
def Action.panicRecord? : Action → Option Event
  | .panic location payload => some (.ofPanic location payload)
  | _ => none

/-- The event tells of a panic. -/
def Event.isPanic : Event → Bool
  | panicCaptured _ _ => true
  | _ => false

/-- An error reaches the log at every level. -/
theorem Logger.passed_ofPanic (logger : Logger) (location : Text) (payload : Option Text) :
    logger.passed [.ofPanic location payload] = [.ofPanic location payload] := by
  have hlets : logger.level.lets .error = true := by
    cases logger.level <;> rfl
  exact List.filter_cons_of_pos hlets

theorem Logger.filter_opening (logger : Logger) : logger.opening.filter Event.isPanic = [] := by
  unfold Logger.opening
  split <;> rfl

/-- Records are written behind what is in the log file, unless a directory has its name. -/
theorem Target.read_write {target : Target} {file : Text} {files : Tree} {place : Place}
    (hfile : target.file? = some file) (hplace : files.find? place ≠ some .directory)
    (hpath : files.resolve file = .ok place) {records : List Event} (hrecords : records ≠ []) :
    (target.write records files).read file =
      .ok ((files.read file).toOption.getD [] ++ encode (logText records)) := by
  have happend := Tree.append_eq_ok hplace hpath (encode (logText records))
  unfold write
  rw [hfile]
  dsimp only
  rw [if_neg hrecords, happend]
  exact Tree.read_append hplace hpath happend

namespace Session

variable {s : Session} {active : Logger} {location : Text} {payload : Option Text}

-- ---------------------------------------------------------------------------
-- Reporters
-- ---------------------------------------------------------------------------

/-- There is one reporter if the log is active, and none otherwise. -/
def HasReporter (s : Session) : Prop :=
  s.reporters = s.logger.toList.length

@[simp] theorem report_reporters (s : Session) (events : List Event) :
    (s.report events).session.reporters = s.reporters := by
  unfold report
  split <;> rfl

namespace HasReporter

theorem report (h : s.HasReporter) (events : List Event) :
    (s.report events).session.HasReporter := by
  rw [HasReporter, report_reporters, report_logger]
  exact h

/-- The first activation installs the reporter. -/
theorem activate (h : s.HasReporter) (hs : s.logger = none) (logger : Logger) (files : Tree) :
    (s.activate logger files).session.HasReporter := by
  have hnone : s.reporters = 0 := by
    rw [HasReporter, hs] at h
    exact h
  refine HasReporter.report ?_ _
  show max s.reporters 1 = 1
  rw [hnone]
  rfl

/-- A request keeps the invariant, whether it is granted, refused, or the first one. -/
theorem start (h : s.HasReporter) (level : Text) (target : Target) :
    (s.start level target).session.HasReporter := by
  unfold Session.start
  split
  · exact h
  · split
    · exact h
    · next hs =>
      split
      · exact h
      · exact h.activate hs _ _

/-- Every action keeps the invariant. -/
theorem step (h : s.HasReporter) (action : Action) : (s.step action).session.HasReporter := by
  cases action with
  | start level target => exact h.start level target
  | startFrom config => exact h.start config.logLevel config.target
  | work events => exact h.report _
  | panic location payload => exact h.report _

/-- **No actions install a second reporter, or miss the first.** -/
theorem after (h : s.HasReporter) (actions : List Action) : (s.after actions).HasReporter := by
  induction actions generalizing s with
  | nil => exact h
  | cons action actions ih => exact ih (h.step action)

end HasReporter

theorem hasReporter_fresh (files : Tree) : (fresh files).HasReporter :=
  rfl

-- ---------------------------------------------------------------------------
-- One panic
-- ---------------------------------------------------------------------------

/-- **A panic without an active log leaves everything as it is.** -/
theorem step_panic_of_inactive (hs : s.logger = none) :
    s.step (.panic location payload) = ⟨s, .ok (), []⟩ := by
  rw [step, report, hs]

/-- **A panic with an active log is one record more**, and changes nothing else. -/
theorem step_panic_of_active (h : s.HasReporter) (hs : s.logger = some active) :
    s.step (.panic location payload) =
      ⟨{ s with files := active.target.write [.ofPanic location payload] s.files }, .ok (),
        [.ofPanic location payload]⟩ := by
  -- one reporter, so that the panic is reported once
  have hreports : List.replicate s.reporters (.ofPanic location payload) =
      [Event.ofPanic location payload] := by
    rw [HasReporter, hs] at h
    rw [h]
    rfl
  rw [step, hreports, report, hs]
  dsimp only
  rw [active.passed_ofPanic]

/-- **The line of a panic is written at the end of the log file**, and nothing before it changes. -/
theorem read_step_panic (h : s.HasReporter) (hs : s.logger = some active) {file : Text}
    {place : Place} (hfile : active.target.file? = some file)
    (hplace : s.files.find? place ≠ some .directory) (hpath : s.files.resolve file = .ok place) :
    (s.step (.panic location payload)).session.files.read file =
      .ok ((s.files.read file).toOption.getD [] ++
        encode (logText [.ofPanic location payload])) := by
  rw [step_panic_of_active h hs]
  exact Target.read_write hfile hplace hpath (List.cons_ne_nil _ _)

/-- A panic leaves the log active, or not active, as it was. -/
theorem step_panic_logger :
    (s.step (.panic location payload)).session.logger = s.logger :=
  report_logger _

-- ---------------------------------------------------------------------------
-- All panics
-- ---------------------------------------------------------------------------

theorem records_append (actions more : List Action) :
    s.records (actions ++ more) = s.records actions ++ (s.after actions).records more := by
  induction actions generalizing s with
  | nil => rfl
  | cons action actions ih =>
    rw [List.cons_append, records_cons, records_cons, after_cons, ih, List.append_assoc]

/-- Nothing is in the log of a session whose log is not active yet. -/
theorem records_eq_nil (hs : s.logger = none) {actions : List Action}
    (h : (s.after actions).logger = none) : s.records actions = [] := by
  rw [logger_after_eq_none_iff hs] at h
  induction actions generalizing s with
  | nil => rfl
  | cons action actions ih =>
    obtain ⟨hfirst, hidle⟩ := idle_cons.mp h
    obtain ⟨hnone, hwritten⟩ := step_of_inactive hs hfirst
    rw [records_cons, hwritten, ih hnone hidle]
    rfl

/-- A step of a session with an active log records a panic exactly if it is one. -/
theorem filter_written (h : s.HasReporter) (hs : s.logger = some active) (action : Action) :
    (s.step action).written.filter Event.isPanic = action.panicRecord?.toList := by
  cases action with
  | start level target =>
    rw [step_of_active hs rfl]
    rfl
  | startFrom config =>
    rw [step_of_active hs rfl]
    rfl
  | work events =>
    -- work reports events of the codec only
    refine List.filter_eq_nil_iff.mpr fun e he => ?_
    obtain ⟨event, -, rfl⟩ := List.mem_map.mp (mem_of_mem_report he)
    exact Bool.false_ne_true
  | panic location payload =>
    rw [step_panic_of_active h hs]
    rfl

/-- **An active log has one record for each panic**, in the order of the panics. -/
theorem filter_records_of_hasReporter (h : s.HasReporter) (hs : s.logger = some active)
    (actions : List Action) :
    (s.records actions).filter Event.isPanic = actions.filterMap Action.panicRecord? := by
  induction actions generalizing s with
  | nil => rfl
  | cons action actions ih =>
    rw [records_cons, List.filter_append, filter_written h hs,
      ih (h.step action) (step_logger_of_active hs action)]
    cases haction : action.panicRecord? with
    | none => rw [List.filterMap_cons_none haction, Option.toList_none, List.nil_append]
    | some e => rw [List.filterMap_cons_some haction, Option.toList_some, List.singleton_append]

/-- **The panics in a log are those since it is active**, one record each. -/
theorem filter_records_of_opening (h : s.HasReporter) (hs : s.logger = none)
    {before later : List Action} {action : Action} (hbefore : (s.after before).logger = none)
    (hopened : (s.after (before ++ [action])).logger = some active) :
    (s.records (before ++ action :: later)).filter Event.isPanic =
      later.filterMap Action.panicRecord? := by
  rw [after_append] at hopened
  by_cases hactivates : ∃ logger, Activates (s.after before).files action logger
  · -- nothing was recorded before, the activation records no panic, and the rest has an active log
    obtain ⟨logger, hlogger⟩ := hactivates
    obtain ⟨-, -, hwritten⟩ := step_of_activates hbefore hlogger
    have hlater := filter_records_of_hasReporter ((h.after before).step action) hopened later
    rw [records_append, records_eq_nil hs hbefore, records_cons, hwritten, List.nil_append,
      List.filter_append, logger.filter_opening, hlater]
    rfl
  · -- the log would still not be active
    have hnone := (step_of_inactive hbefore (not_exists.mp hactivates)).1
    exact absurd (hopened.symm.trans hnone) (nomatch ·)

-- ---------------------------------------------------------------------------
-- Sessions
-- ---------------------------------------------------------------------------

/-- What a panic does in a session. -/
structure RecordsPanic (s : Session) (location : Text) (payload : Option Text) : Prop where
  /-- The log stays active as it is, or not active. -/
  status : (s.step (.panic location payload)).session.logger = s.logger
  /-- A log that is not active is not written to, and no file is touched. -/
  inactive : s.logger = none →
    (s.step (.panic location payload)).written = [] ∧
      (s.step (.panic location payload)).session = s
  /-- An active log has one record more, an error with what is shown of the panic's text. -/
  active : ∀ logger, s.logger = some logger →
    ∃ text, Text.Shows panicTextLimit (payload.getD "non-string panic payload".toList) text ∧
      text.IsOneLine ∧
      (Event.panicCaptured location text).level = .error ∧
      (s.step (.panic location payload)).written = [.panicCaptured location text] ∧
      (s.step (.panic location payload)).session.files =
        logger.target.write [.panicCaptured location text] s.files

/-- How the panics of a session are recorded. -/
structure RecordsPanics (files : Tree) (actions : List Action) : Prop where
  /-- The next panic is recorded if the log is active by then. -/
  next : ∀ location payload, ((fresh files).after actions).RecordsPanic location payload
  /-- While the log is not active nothing is recorded. -/
  before : ((fresh files).after actions).logger = none → (fresh files).records actions = []
  /-- Of all panics those are recorded that come after the activation, in order and once each. -/
  since : ∀ idle action later logger, actions = idle ++ action :: later →
    ((fresh files).after idle).logger = none →
    ((fresh files).after (idle ++ [action])).logger = some logger →
    ((fresh files).records actions).filter Event.isPanic = later.filterMap Action.panicRecord?

/-- What a panic does follows from the invariant alone. -/
theorem recordsPanic_of_hasReporter (h : s.HasReporter) (location : Text) (payload : Option Text) :
    s.RecordsPanic location payload where
  status := step_panic_logger
  inactive hs := by
    rw [step_panic_of_inactive hs]
    exact ⟨rfl, rfl⟩
  active logger hs := by
    rw [step_panic_of_active h hs]
    refine ⟨_, Text.shows_iff.mpr rfl, ?_, rfl, rfl, rfl⟩
    exact Text.lineBreaks_eq_nil_iff.mp (Text.lineBreaks_oneLine _ _)

/-- **Panics are recorded once.** Whatever was done in a session, a panic leaves the log's level and
target alone, adds nothing to a log that is not active, and adds one error to a log that is: a
record with the panic's text on one line, however many requests for logging were made before. -/
theorem recordsPanics (files : Tree) (actions : List Action) : RecordsPanics files actions where
  next location payload :=
    recordsPanic_of_hasReporter ((hasReporter_fresh files).after actions) location payload
  before h := records_eq_nil rfl h
  since idle action later logger hactions hidle hopened := by
    rw [hactions]
    exact filter_records_of_opening (hasReporter_fresh files) rfl hidle hopened

end Session

end BlockExplorer
