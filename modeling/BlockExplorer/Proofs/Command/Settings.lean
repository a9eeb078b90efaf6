import BlockExplorer.Command.Run
import BlockExplorer.Proofs.Config.Validity

/-!
# BlockExplorer — the settings of a run

A run takes its settings from three places: the options of the command line,
the document of the settings file, and the defaults. `Overrides.Finds` says
what a settings file assigns, `Overrides.Settles` which place each field is
taken from. The options stand over the document, but only over its level and
its directory, and they do not make a bad document good: it has to be valid by
itself, before the options are looked at.

Main results:

* `resolve_eq_ok_iff` — a run has the settings that the three places settle on, if the file
  by itself and the outcome are valid.
* `resolve_agrees_with_start` — what that means for the log that the settings ask for.
-/

namespace BlockExplorer

namespace Overrides

variable {o : Overrides} {read : Text → Except FileError (List UInt8)}

/-- What the settings file assigns: nothing when there is no file, and otherwise what its text
denotes, which has to be valid without the options of the command line. -/
inductive Finds (o : Overrides) (read : Text → Except FileError (List UInt8)) :
    Assignment → Prop where
  | nothing (hconfig : o.config = none) : Finds o read {}
  | document {path document : Text} {a : Assignment} (hconfig : o.config = some path)
      (hread : read path = .ok (encode document)) (hdocument : Denotes document a)
      (hvalid : (a.applyTo Config.default).IsValid) : Finds o read a

/-- The settings take level and directory from the command line, then from the file, then from the
defaults, and the other fields from the file or the defaults. -/
structure Settles (o : Overrides) (a : Assignment) (config : Config) : Prop where
  logLevel     : config.logLevel = (o.logLevel.or a.logLevel).getD Config.default.logLevel
  logDir       : config.logDir = ((o.logDir.map some).or a.logDir).getD Config.default.logDir
  decodeMode   : config.decodeMode = a.decodeMode.getD Config.default.decodeMode
  byteFormat   : config.byteFormat = a.byteFormat.getD Config.default.byteFormat
  redactedKeys : config.redactedKeys = a.redactedKeys.getD Config.default.redactedKeys

-- ---------------------------------------------------------------------------
-- Three places
-- ---------------------------------------------------------------------------

theorem getD_or {α : Type} (x y : Option α) (d : α) : (x.or y).getD d = x.getD (y.getD d) := by
  cases x <;> rfl

/-- A directory of the command line stands over the one of the file, also over the file's wish to
have none. -/
theorem or_getD_logDir (x : Option Text) (y : Option (Option Text)) (d : Option Text) :
    ((x.map some).or y).getD d = x.or (y.getD d) := by
  cases x <;> rfl

/-- The three places settle on the options laid over the file, laid over the defaults. -/
theorem settles_iff {a : Assignment} {config : Config} :
    o.Settles a config ↔ config = o.apply (a.applyTo Config.default) := by
  constructor
  · intro ⟨hlevel, hdir, hmode, hformat, hkeys⟩
    rw [getD_or] at hlevel
    rw [or_getD_logDir] at hdir
    cases config
    simp_all [apply, Assignment.applyTo]
  · intro h
    subst h
    exact ⟨(getD_or ..).symm, (or_getD_logDir ..).symm, rfl, rfl, rfl⟩

/-- The settings before the options for level and directory are looked at. -/
def base (o : Overrides) (read : Text → Except FileError (List UInt8)) : Except Failure Config :=
  match o.config with
  | none => .ok Config.default
  | some path => (Config.ofBytes path (read path)).mapError (.loadingConfig path)

/-- The options are laid over what the file gives, and the outcome is checked once more. -/
theorem resolve_eq (o : Overrides) (read : Text → Except FileError (List UInt8)) :
    o.resolve read = o.base read >>= fun base =>
      (o.apply base).validate.mapError .invalidConfig >>= fun _ => .ok (o.apply base) := by
  unfold resolve base
  cases o.config <;> rfl

/-- Without the options, the settings are what the file assigns, over the defaults. -/
theorem base_eq_ok_iff {base : Config} :
    o.base read = .ok base ↔ ∃ a, o.Finds read a ∧ base = a.applyTo Config.default := by
  unfold Overrides.base
  constructor
  · intro h
    -- there is no file, and nothing is assigned, or it has to be readable and valid by itself
    split at h
    · next hnone =>
      cases h
      exact ⟨{}, .nothing hnone, rfl⟩
    · next path hpath =>
      obtain ⟨document, a, hread, hdocument, hbase, hvalid⟩ :=
        Config.ofBytes_eq_ok_iff.mp (exceptMapError_eq_ok_iff.mp h)
      exact ⟨a, .document hpath hread hdocument (hbase ▸ hvalid), hbase⟩
  · intro ⟨a, hfinds, hbase⟩
    cases hfinds with
    | nothing hnone =>
      rw [hnone, hbase]
      rfl
    | @document path document _ hpath hread hdocument hvalid =>
      rw [hpath]
      exact exceptMapError_eq_ok_iff.mpr (Config.ofBytes_eq_ok_iff.mpr
        ⟨document, a, hread, hdocument, hbase, hbase ▸ hvalid⟩)

/-- **A run has the settings that the three places settle on**, if they are valid. -/
theorem resolve_eq_ok_iff {config : Config} :
    o.resolve read = .ok config ↔ ∃ a, o.Finds read a ∧ o.Settles a config ∧ config.IsValid := by
  -- the file is checked by itself, and again with the options laid over it
  rw [resolve_eq, exceptBind_eq_ok_iff]
  constructor
  · intro ⟨base, hbase, h⟩
    obtain ⟨a, hfinds, ha⟩ := base_eq_ok_iff.mp hbase
    obtain ⟨u, hvalid, hconfig⟩ := exceptBind_eq_ok_iff.mp h
    cases hconfig
    exact ⟨a, hfinds, settles_iff.mpr (ha ▸ rfl),
      Config.validate_eq_ok_iff.mp (exceptMapError_eq_ok_iff.mp hvalid)⟩
  · intro ⟨a, hfinds, hsettles, hvalid⟩
    rw [settles_iff] at hsettles
    subst hsettles
    refine ⟨a.applyTo Config.default, base_eq_ok_iff.mpr ⟨a, hfinds, rfl⟩, ?_⟩
    rw [Config.validate_eq_ok_iff.mpr hvalid]
    rfl

/-- **The settings of a run, and the log that they ask for.** A run has settings exactly when its
file can be used without the options, and its outcome can be used with them. Settings that passed
the check are never refused by a session because of the request that they make, and a session
accepts the request of other settings only if one of their masked keys is blank. -/
theorem resolve_agrees_with_start (o : Overrides) (read : Text → Except FileError (List UInt8)) :
    (∀ config, o.resolve read = .ok config ↔
      ∃ a, o.Finds read a ∧ o.Settles a config ∧ config.IsValid) ∧
    ((∃ config, o.resolve read = .ok config) ↔
      ∃ a, o.Finds read a ∧ (o.apply (a.applyTo Config.default)).IsValid) ∧
    (∀ config : Config, config.validate = .ok () ↔ config.IsValid) ∧
    (∀ config : Config, config.validate = .ok () ↔
      (∃ logger, Logger.ofRequest config.logLevel config.target = .ok logger) ∧
        ∀ key ∈ config.redactedKeys, ∃ c ∈ key, Text.isBlank c = false) ∧
    (∀ (config : Config) (s : Session) (e : LogError), config.validate = .ok () →
      (s.startFrom config).result = .error e → e.isOfRequest = false) ∧
    ∀ (config : Config) (s : Session),
      (∃ e, (s.startFrom config).result = .error e ∧ e.isOfRequest = true) ↔
        ¬ ∃ logger, Logger.ofRequest config.logLevel config.target = .ok logger := by
  refine ⟨fun config => resolve_eq_ok_iff, ?_, fun config => Config.validate_eq_ok_iff,
    fun config => Config.validate_eq_ok_iff_ofRequest, ?_,
    fun config s => Session.exists_isOfRequest_iff⟩
  · simp only [resolve_eq_ok_iff, settles_iff]
    constructor
    · intro ⟨config, a, hfinds, hconfig, hvalid⟩
      exact ⟨a, hfinds, hconfig ▸ hvalid⟩
    · intro ⟨a, hfinds, hvalid⟩
      exact ⟨_, a, hfinds, rfl, hvalid⟩
  · intro config s e hvalid hresult
    obtain ⟨⟨logger, hrequest⟩, -⟩ := Config.validate_eq_ok_iff_ofRequest.mp hvalid
    exact Session.isOfRequest_eq_false_of_start hrequest hresult

end Overrides

end BlockExplorer
