import BlockExplorer.Proofs.Files.Path
import BlockExplorer.Session

/-!
# BlockExplorer — when logging becomes active

A session's log becomes active at the first request that can be served, and
stays as it is from then on. `Activates` says of one request that it can be
served, from the texts and the files alone; `Idle` and `Activated` follow a
session through its actions. The proofs look at one action first: it either
keeps the log, or makes it active with the record of that
(`step_of_activates`, `step_of_not_activates`, `step_of_active`). What holds of
all actions comes from there by induction.

Main results:

* `logger_after_eq_none_iff`, `logger_after_eq_some_iff` — which log is active
  after any actions.
* `filter_records` — the activation is recorded at most once.
* `activatesOnce` — the whole of it, for every list of actions.
-/

namespace BlockExplorer

-- ---------------------------------------------------------------------------
-- Requests
-- ---------------------------------------------------------------------------

/-- The level and the target that an action asks for, if it is a request. -/
def Action.request? : Action → Option (Text × Target)
  | .start level target => some (level, target)
  | .startFrom config => some (config.logLevel, config.target)
  | .work _ => none
  | .panic _ _ => none

namespace Target

/-- Standard error, or a directory at an absolute path. -/
def IsProper : Target → Prop
  | stderr => True
  | directory path => path ≠ [] ∧ Path.isAbsolute path = true

/-- Nothing is missing that cannot be made. -/
def CanBeMade (files : Tree) : Target → Prop
  | stderr => True
  | directory path => (files.makeDirectories path).result = .ok ()

/-- The same place: both are standard error, or absolute paths that lead through the same names. -/
def Matches (active : Target) : Target → Prop
  | stderr => active = stderr
  | directory path => ∃ p, active = directory p ∧ Path.SamePlace p path

end Target

/-- The action asks for this log, and it can be had. -/
def Activates (files : Tree) (action : Action) (logger : Logger) : Prop :=
  ∃ level, action.request? = some (level, logger.target) ∧
    Level.ofText? level = some logger.level ∧ logger.target.IsProper ∧
    logger.target.CanBeMade files

theorem Activates.eq {files : Tree} {action : Action} {logger logger' : Logger}
    (h : Activates files action logger) (h' : Activates files action logger') :
    logger = logger' := by
  obtain ⟨level, hrequest, hlevel, -, -⟩ := h
  obtain ⟨level', hrequest', hlevel', -, -⟩ := h'
  have hboth : (level, logger.target) = (level', logger'.target) :=
    Option.some.inj (hrequest.symm.trans hrequest')
  obtain ⟨rfl, htarget⟩ := Prod.mk.inj hboth
  have hname : logger.level = logger'.level := Option.some.inj (hlevel.symm.trans hlevel')
  cases logger
  cases logger'
  simp_all

/-- The record of an activation, unless the level drops it. -/
def Logger.opening (logger : Logger) : List Event :=
  if logger.level.lets .info then [.loggingStarted logger.level logger.target] else []

/-- A log lets the record of its own activation through, unless its level drops it. -/
theorem Logger.passed_loggingStarted (logger : Logger) :
    logger.passed [.loggingStarted logger.level logger.target] = logger.opening := by
  unfold Logger.passed Logger.opening
  exact List.filter_cons

/-- The event tells that logging became active. -/
def Event.isOpening : Event → Bool
  | loggingStarted _ _ => true
  | _ => false

/-- The targets without a fault are the proper ones. -/
theorem fault?_eq_none_iff {target : Target} : target.fault? = none ↔ target.IsProper := by
  cases target with
  | stderr => exact iff_of_true rfl trivial
  | directory path =>
    show (if path = [] then _ else if Path.isAbsolute path then none else _) = none ↔
      path ≠ [] ∧ Path.isAbsolute path = true
    by_cases hpath : path = []
    · simp [hpath]
    · by_cases habsolute : Path.isAbsolute path = true <;> simp [hpath, habsolute]

/-- A request is in order when its level has a name that is known and its target is proper. -/
theorem ofRequest_eq_ok_iff {level : Text} {target : Target} {logger : Logger} :
    Logger.ofRequest level target = .ok logger ↔
      Level.ofText? level = some logger.level ∧ target = logger.target ∧
        logger.target.IsProper := by
  unfold Logger.ofRequest
  constructor
  · intro h
    split at h
    · cases h
    · next l hlevel =>
      split at h
      · cases h
      · next hfault =>
        cases h
        exact ⟨hlevel, rfl, fault?_eq_none_iff.mp hfault⟩
  · rintro ⟨hlevel, rfl, hproper⟩
    rw [hlevel, fault?_eq_none_iff.mpr hproper]

theorem prepare_eq_ok_iff {target : Target} {files : Tree} :
    (target.prepare files).1 = .ok () ↔ target.CanBeMade files := by
  cases target with
  | stderr => exact iff_of_true rfl trivial
  | directory path =>
    show ((files.makeDirectories path).result.mapError _) = _ ↔ _ = _
    cases (files.makeDirectories path).result with
    | ok u => exact iff_of_true rfl rfl
    | error e => exact iff_of_false (nomatch ·) (nomatch ·)

/-- Targets are compared by the places that they lead to, if the active one is proper. -/
theorem same_iff_matches {active target : Target} (hactive : active.IsProper) :
    active.same target = true ↔ active.Matches target := by
  cases active with
  | stderr => cases target <;> simp [Target.same, Target.Matches]
  | directory p =>
    cases target with
    | stderr => simp [Target.same, Target.Matches]
    | directory path =>
      simp only [Target.same, Target.Matches, Target.directory.injEq, exists_eq_left']
      exact Path.same_eq_true_iff hactive.2

/-- What matches a target is proper: its path is absolute. -/
theorem Target.Matches.isProper {active target : Target} (h : active.Matches target) :
    target.IsProper := by
  cases target with
  | stderr => trivial
  | directory path =>
    obtain ⟨p, -, -, hpath, -⟩ := h
    refine ⟨?_, hpath⟩
    rintro rfl
    cases hpath

namespace Session

variable {s : Session}

-- ---------------------------------------------------------------------------
-- One action
-- ---------------------------------------------------------------------------

/-- The two ways to ask for logging are one. -/
theorem step_of_request {action : Action} {level : Text} {target : Target}
    (h : action.request? = some (level, target)) : s.step action = s.start level target := by
  cases action with
  | start level' target' =>
    cases h
    rfl
  | startFrom config =>
    cases h
    rfl
  | work events => cases h
  | panic location payload => cases h

@[simp] theorem report_logger (events : List Event) :
    (s.report events).session.logger = s.logger := by
  unfold report
  split <;> simp_all

/-- What is reported reaches the log as it is, or not at all. -/
theorem mem_of_mem_report {events : List Event} {e : Event} (h : e ∈ (s.report events).written) :
    e ∈ events := by
  unfold report at h
  split at h
  · cases h
  · exact (List.mem_filter.mp h).1

/-- An action is a request, or it only reports events, and not that of an activation. -/
theorem request_or_report (s : Session) (action : Action) :
    (∃ level target, action.request? = some (level, target)) ∨
      ∃ events, s.step action = s.report events ∧ ∀ e ∈ events, e.isOpening = false := by
  cases action with
  | start level target => exact .inl ⟨level, target, rfl⟩
  | startFrom config => exact .inl ⟨config.logLevel, config.target, rfl⟩
  | work events =>
    refine .inr ⟨events.map .codec, rfl, fun e he => ?_⟩
    obtain ⟨event, -, rfl⟩ := List.mem_map.mp he
    rfl
  | panic location payload =>
    refine .inr ⟨List.replicate s.reporters (.ofPanic location payload), rfl, fun e he => ?_⟩
    rw [List.eq_of_mem_replicate he]
    rfl

/-- **A request that can be served makes the log active**, with the record of it. -/
theorem step_of_activates (hs : s.logger = none) {action : Action} {logger : Logger}
    (h : Activates s.files action logger) :
    (s.step action).result = .ok () ∧ (s.step action).session.logger = some logger ∧
      (s.step action).written = logger.opening := by
  obtain ⟨level, hrequest, hlevel, hproper, hmade⟩ := h
  -- the directory is made, with whatever files there are then
  have hprepare : logger.target.prepare s.files =
      (.ok (), (logger.target.prepare s.files).2) :=
    Prod.ext (prepare_eq_ok_iff.mpr hmade) rfl
  have hstep : s.step action = s.activate logger (logger.target.prepare s.files).2 := by
    rw [step_of_request hrequest, start, ofRequest_eq_ok_iff.mpr ⟨hlevel, rfl, hproper⟩]
    dsimp only
    rw [hs]
    dsimp only
    rw [hprepare]
  rw [hstep]
  refine ⟨rfl, report_logger _, ?_⟩
  exact logger.passed_loggingStarted

/-- A request that cannot be served fails, and leaves no trace in the log. -/
theorem step_of_not_activates (hs : s.logger = none) {action : Action} {level : Text}
    {target : Target} (hrequest : action.request? = some (level, target))
    (h : ∀ logger, ¬ Activates s.files action logger) :
    (s.step action).result ≠ .ok () ∧ (s.step action).session.logger = none ∧
      (s.step action).written = [] := by
  rw [step_of_request hrequest, start]
  -- the request is not in order, or its directory cannot be made
  split
  · exact ⟨(nomatch ·), hs, rfl⟩
  · next requested hrequested =>
    obtain ⟨hlevel, rfl, hproper⟩ := ofRequest_eq_ok_iff.mp hrequested
    rw [hs]
    dsimp only
    split
    · exact ⟨(nomatch ·), rfl, rfl⟩
    · next files hprepare =>
      have hmade : requested.target.CanBeMade s.files :=
        prepare_eq_ok_iff.mp (congrArg Prod.fst hprepare)
      exact absurd ⟨level, hrequest, hlevel, hproper, hmade⟩ (h requested)

/-- **An active log stays active**, whatever is done; a request only compares with it. -/
theorem step_of_active {active : Logger} (hs : s.logger = some active) {action : Action}
    {level : Text} {target : Target} (hrequest : action.request? = some (level, target)) :
    s.step action = ⟨s, (Logger.ofRequest level target).bind active.serves, []⟩ := by
  rw [step_of_request hrequest, start]
  split
  · next hrequested =>
    rw [hrequested]
    rfl
  · next hrequested =>
    rw [hs, hrequested]
    rfl

/-- An active log serves requests for the same target and the same level. -/
theorem serves_eq_ok_iff {active requested : Logger} :
    active.serves requested = .ok () ↔
      active.target.same requested.target = true ∧ active.level = requested.level := by
  unfold Logger.serves
  split
  · simp_all
  · split <;> simp_all

/-- A request is granted by an active log when it names the same level and the same place. -/
theorem step_of_active_eq_ok_iff {active : Logger} (hs : s.logger = some active)
    (hactive : active.target.IsProper) {action : Action} {level : Text} {target : Target}
    (hrequest : action.request? = some (level, target)) :
    (s.step action).result = .ok () ↔
      Level.ofText? level = some active.level ∧ active.target.Matches target := by
  rw [step_of_active hs hrequest]
  show (Logger.ofRequest level target).bind active.serves = .ok () ↔ _
  -- the request has to be in order by itself before it is compared
  constructor
  · intro h
    cases hrequested : Logger.ofRequest level target with
    | error e =>
      rw [hrequested] at h
      cases h
    | ok requested =>
      rw [hrequested] at h
      obtain ⟨hsame, hlevel⟩ := serves_eq_ok_iff.mp h
      obtain ⟨hname, rfl, -⟩ := ofRequest_eq_ok_iff.mp hrequested
      exact ⟨hlevel ▸ hname, (same_iff_matches hactive).mp hsame⟩
  · rintro ⟨hname, hmatches⟩
    have hrequested : Logger.ofRequest level target = .ok ⟨active.level, target⟩ :=
      ofRequest_eq_ok_iff.mpr ⟨hname, rfl, hmatches.isProper⟩
    rw [hrequested]
    exact serves_eq_ok_iff.mpr ⟨(same_iff_matches hactive).mpr hmatches, rfl⟩

/-- Only the activation records itself. -/
theorem isOpening_eq_false_of_mem {active : Logger} (hs : s.logger = some active) {action : Action}
    {e : Event} (he : e ∈ (s.step action).written) : e.isOpening = false := by
  rcases s.request_or_report action with ⟨level, target, hrequest⟩ | ⟨events, hstep, hevents⟩
  · rw [step_of_active hs hrequest] at he
    exact absurd he List.not_mem_nil
  · rw [hstep] at he
    exact hevents e (mem_of_mem_report he)

/-- No action replaces an active log. -/
theorem step_logger_of_active {active : Logger} (hs : s.logger = some active) (action : Action) :
    (s.step action).session.logger = some active := by
  rcases s.request_or_report action with ⟨level, target, hrequest⟩ | ⟨events, hstep, -⟩
  · rw [step_of_active hs hrequest]
    exact hs
  · rw [hstep, report_logger, hs]

/-- Without an active log nothing is written but by the activation. -/
theorem step_of_inactive (hs : s.logger = none) {action : Action}
    (h : ∀ logger, ¬ Activates s.files action logger) :
    (s.step action).session.logger = none ∧ (s.step action).written = [] := by
  rcases s.request_or_report action with ⟨level, target, hrequest⟩ | ⟨events, hstep, -⟩
  · exact (step_of_not_activates hs hrequest h).2
  · rw [hstep, report, hs]
    exact ⟨hs, rfl⟩

-- ---------------------------------------------------------------------------
-- All actions
-- ---------------------------------------------------------------------------

/-- The session after a list of actions. -/
def after (s : Session) (actions : List Action) : Session :=
  actions.foldl (fun s action => (s.step action).session) s

/-- All records that a list of actions brings to the log. -/
def records (s : Session) (actions : List Action) : List Event :=
  (s.run actions).flatMap (·.written)

/-- None of the actions is a request that can be served at its turn. -/
def Idle (s : Session) (actions : List Action) : Prop :=
  ∀ before action later, actions = before ++ action :: later →
    ∀ logger, ¬ Activates (s.after before).files action logger

/-- The first of the actions that is a request that can be served asks for this log. -/
def Activated (s : Session) (actions : List Action) (logger : Logger) : Prop :=
  ∃ before action later, actions = before ++ action :: later ∧ s.Idle before ∧
    Activates (s.after before).files action logger

theorem after_cons (action : Action) (actions : List Action) :
    s.after (action :: actions) = (s.step action).session.after actions :=
  rfl

theorem after_append (actions more : List Action) :
    s.after (actions ++ more) = (s.after actions).after more :=
  List.foldl_append

theorem records_cons (action : Action) (actions : List Action) :
    s.records (action :: actions) =
      (s.step action).written ++ (s.step action).session.records actions :=
  rfl

/-- Actions are idle when the first one is, and the others are after it. -/
theorem idle_cons {action : Action} {actions : List Action} :
    s.Idle (action :: actions) ↔
      (∀ logger, ¬ Activates s.files action logger) ∧ (s.step action).session.Idle actions := by
  constructor
  · intro h
    refine ⟨h [] action actions rfl, fun before action' later hactions => ?_⟩
    exact h (action :: before) action' later (congrArg (action :: ·) hactions)
  · rintro ⟨hhead, htail⟩ before action' later hactions
    -- the action in question is the first one or comes later
    cases before with
    | nil =>
      cases hactions
      exact hhead
    | cons first before =>
      obtain ⟨rfl, hactions'⟩ := List.cons.inj hactions
      exact htail before action' later hactions'

/-- **The active log is never replaced.** -/
theorem logger_after_of_active {active : Logger} (hs : s.logger = some active)
    (actions : List Action) : (s.after actions).logger = some active := by
  induction actions generalizing s with
  | nil => exact hs
  | cons action actions ih => exact ih (step_logger_of_active hs action)

/-- **No log is active until a request can be served.** -/
theorem logger_after_eq_none_iff (hs : s.logger = none) {actions : List Action} :
    (s.after actions).logger = none ↔ s.Idle actions := by
  induction actions generalizing s with
  | nil =>
    refine iff_of_true hs fun before action later hactions => ?_
    exact absurd hactions.symm (by simp)
  | cons action actions ih =>
    rw [after_cons, idle_cons]
    by_cases h : ∃ logger, Activates s.files action logger
    · obtain ⟨logger, hlogger⟩ := h
      obtain ⟨-, hactive, -⟩ := step_of_activates hs hlogger
      rw [logger_after_of_active hactive]
      exact iff_of_false (nomatch ·) fun h => h.1 logger hlogger
    · rw [not_exists] at h
      rw [ih (step_of_inactive hs h).1, and_iff_right h]

/-- **The active log is that of the first request that can be served.** -/
theorem logger_after_eq_some_iff (hs : s.logger = none) {actions : List Action} {logger : Logger} :
    (s.after actions).logger = some logger ↔ s.Activated actions logger := by
  constructor
  · intro h
    induction actions generalizing s with
    | nil =>
      rw [after, List.foldl_nil, hs] at h
      cases h
    | cons action actions ih =>
      by_cases hfirst : ∃ logger, Activates s.files action logger
      · obtain ⟨first, hfirst⟩ := hfirst
        obtain ⟨-, hactive, -⟩ := step_of_activates hs hfirst
        rw [after_cons, logger_after_of_active hactive] at h
        cases h
        exact ⟨[], action, actions, rfl, (logger_after_eq_none_iff hs).mp hs, hfirst⟩
      · rw [not_exists] at hfirst
        obtain ⟨before, action', later, rfl, hidle, hlogger⟩ := ih (step_of_inactive hs hfirst).1 h
        exact ⟨action :: before, action', later, rfl, idle_cons.mpr ⟨hfirst, hidle⟩, hlogger⟩
  · rintro ⟨before, action, later, rfl, hidle, hlogger⟩
    have hnone : (s.after before).logger = none := (logger_after_eq_none_iff hs).mpr hidle
    obtain ⟨-, hactive, -⟩ := step_of_activates hnone hlogger
    rw [after_append, after_cons]
    exact logger_after_of_active hactive later

/-- An active log records no activation. -/
theorem filter_records_of_active {active : Logger} (hs : s.logger = some active)
    (actions : List Action) : (s.records actions).filter Event.isOpening = [] := by
  induction actions generalizing s with
  | nil => rfl
  | cons action actions ih =>
    have hwritten : (s.step action).written.filter Event.isOpening = [] := by
      rw [List.filter_eq_nil_iff]
      intro e he
      rw [isOpening_eq_false_of_mem hs he]
      exact Bool.false_ne_true
    rw [records_cons, List.filter_append, hwritten, ih (step_logger_of_active hs action)]
    rfl

/-- **The activation is recorded once**, if it is let through, and otherwise never. -/
theorem filter_records (hs : s.logger = none) (actions : List Action) :
    (s.records actions).filter Event.isOpening =
      (s.after actions).logger.elim [] Logger.opening := by
  induction actions generalizing s with
  | nil =>
    rw [after, List.foldl_nil, hs]
    rfl
  | cons action actions ih =>
    rw [records_cons, after_cons, List.filter_append]
    by_cases h : ∃ logger, Activates s.files action logger
    · obtain ⟨logger, hlogger⟩ := h
      obtain ⟨-, hactive, hwritten⟩ := step_of_activates hs hlogger
      have hopening : logger.opening.filter Event.isOpening = logger.opening := by
        unfold Logger.opening
        split <;> rfl
      rw [filter_records_of_active hactive, logger_after_of_active hactive, hwritten, hopening,
        List.append_nil]
      rfl
    · rw [not_exists] at h
      obtain ⟨hnone, hwritten⟩ := step_of_inactive hs h
      rw [hwritten, ih hnone]
      rfl

-- ---------------------------------------------------------------------------
-- Sessions
-- ---------------------------------------------------------------------------

/-- What comes of a request for logging, with or without an active log. -/
structure Answers (s : Session) (action : Action) (level : Text) (target : Target) : Prop where
  /-- A request that fails changes nothing about the log and adds nothing to it. -/
  failed : (s.step action).result ≠ .ok () →
    (s.step action).session.logger = s.logger ∧ (s.step action).written = []
  /-- As long as no log is active, a request is granted when it can be served. -/
  granted : s.logger = none →
    ((s.step action).result = .ok () ↔ ∃ logger, Activates s.files action logger)
  /-- Afterwards it is granted when it names the level and the place of the active log. -/
  compared : ∀ active, s.logger = some active →
    ((s.step action).result = .ok () ↔
      Level.ofText? level = some active.level ∧ active.target.Matches target)

/-- How the log of a session stands after a list of actions. -/
structure ActivatesOnce (files : Tree) (actions : List Action) : Prop where
  /-- No log is active until a request can be served. -/
  inactive : ((fresh files).after actions).logger = none ↔ (fresh files).Idle actions
  /-- An active log is that of the first request that could be served. -/
  active : ∀ logger, ((fresh files).after actions).logger = some logger ↔
    (fresh files).Activated actions logger
  /-- It stays active whatever follows. -/
  forever : ∀ logger more, ((fresh files).after actions).logger = some logger →
    ((fresh files).after (actions ++ more)).logger = some logger
  /-- The next request for logging is answered by the log as it stands. -/
  answers : ∀ action level target, action.request? = some (level, target) →
    ((fresh files).after actions).Answers action level target
  /-- A request that can be served when no log is active makes its log active and records this. -/
  opens : ∀ action logger, ((fresh files).after actions).logger = none →
    Activates ((fresh files).after actions).files action logger →
    (((fresh files).after actions).step action).session.logger = some logger ∧
      (((fresh files).after actions).step action).written = logger.opening
  /-- No other action records an activation. -/
  origin : ∀ action level target,
    .loggingStarted level target ∈ (((fresh files).after actions).step action).written →
    ((fresh files).after actions).logger = none ∧
      Activates ((fresh files).after actions).files action ⟨level, target⟩
  /-- Of all records the activation is one at most: of the active log, if its level allows it. -/
  recorded : ((fresh files).records actions).filter Event.isOpening =
    ((fresh files).after actions).logger.elim [] Logger.opening

theorem activatedTarget_isProper {actions : List Action} {logger : Logger}
    (h : s.Activated actions logger) : logger.target.IsProper := by
  obtain ⟨before, action, later, -, -, level, -, -, hproper, -⟩ := h
  exact hproper

/-- The target of an active log has to be known as proper, to be compared by its components. -/
theorem answers_of_request (hproper : ∀ active, s.logger = some active → active.target.IsProper)
    {action : Action} {level : Text} {target : Target}
    (hrequest : action.request? = some (level, target)) : s.Answers action level target := by
  cases hs : s.logger with
  | none =>
    by_cases h : ∃ logger, Activates s.files action logger
    · obtain ⟨logger, hlogger⟩ := h
      obtain ⟨hresult, -, -⟩ := step_of_activates hs hlogger
      refine ⟨fun hfailed => absurd hresult hfailed, fun _ => iff_of_true hresult ⟨logger, hlogger⟩,
        fun active hactive => ?_⟩
      rw [hs] at hactive
      cases hactive
    · obtain ⟨hresult, hnone, hwritten⟩ :=
        step_of_not_activates hs hrequest (not_exists.mp h)
      refine ⟨fun _ => ⟨hnone.trans hs.symm, hwritten⟩, fun _ => iff_of_false hresult h,
        fun active hactive => ?_⟩
      rw [hs] at hactive
      cases hactive
  | some active =>
    refine ⟨fun _ => ?_, fun hnone => ?_, fun active' hactive => ?_⟩
    · rw [step_of_active hs hrequest]
      exact ⟨rfl, rfl⟩
    · rw [hs] at hnone
      cases hnone
    · exact step_of_active_eq_ok_iff hactive (hproper active' hactive) hrequest

/-- The record of an activation is made by the request that is served, and tells of its log. -/
theorem activates_of_loggingStarted {action : Action} {level : Level} {target : Target}
    (h : .loggingStarted level target ∈ (s.step action).written) :
    s.logger = none ∧ Activates s.files action ⟨level, target⟩ := by
  cases hs : s.logger with
  | some active =>
    have hopening := isOpening_eq_false_of_mem hs h
    cases hopening
  | none =>
    refine ⟨rfl, ?_⟩
    by_cases hlogger : ∃ logger, Activates s.files action logger
    · obtain ⟨logger, hlogger⟩ := hlogger
      obtain ⟨-, -, hwritten⟩ := step_of_activates hs hlogger
      rw [hwritten, Logger.opening] at h
      split at h
      · cases List.mem_singleton.mp h
        exact hlogger
      · cases h
    · obtain ⟨-, hwritten⟩ := step_of_inactive hs (not_exists.mp hlogger)
      rw [hwritten] at h
      cases h

/-- **Logging becomes active once.** The log of a session is that of its first request that can be
served, for good; every later request is compared with it, a request that fails leaves no trace in
the log, and of all records one at most tells of the activation. -/
theorem activatesOnce (files : Tree) (actions : List Action) : ActivatesOnce files actions where
  inactive := logger_after_eq_none_iff rfl
  active _ := logger_after_eq_some_iff rfl
  forever logger more h := by
    rw [after_append]
    exact logger_after_of_active h more
  answers action level target hrequest := by
    refine answers_of_request (fun active hactive => ?_) hrequest
    exact activatedTarget_isProper ((logger_after_eq_some_iff rfl).mp hactive)
  opens action logger hnone h := (step_of_activates hnone h).2
  origin action level target h := activates_of_loggingStarted h
  recorded := filter_records rfl actions

/-- A directory under another spelling is granted, and one that leads elsewhere is not. -/
example : ((fresh ⟨[], []⟩).run [.start "info".toList (.directory "/log".toList),
      .start " INFO".toList (.directory "//./log/".toList),
      .start "info".toList (.directory "/log/..".toList)]).map (·.result) =
    [.ok (), .ok (),
      .error (.targetConflict (.directory "/log".toList) (.directory "/log/..".toList))] := by
  rfl

end Session

end BlockExplorer
