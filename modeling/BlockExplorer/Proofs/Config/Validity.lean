import BlockExplorer.Proofs.Codec.RoundTrip
import BlockExplorer.Proofs.Config.Acceptance
import BlockExplorer.Proofs.Session.Activation

/-!
# BlockExplorer — valid settings

Settings are checked twice, each time by rules of its own: when they are read,
and when logging is asked for with them. `IsValid` says without an order what
the first check asks for; the second one has to do with a level and a target,
and finds an empty path at fault apart from other paths that are not absolute.
The two checks agree: a request for logging is in order by itself exactly when
level and directory are valid (`ofRequest_target_eq_ok_iff`), so that settings
that passed the first check are never refused by the second.

Main results:

* `validate_eq_ok_iff` — the check passes exactly the valid settings.
* `isValid_ofBuild` — the defaults of every build are valid.
* `ofBytes_eq_ok_iff` — settings that are read are denoted by their document, and
  valid.
* `validate_eq_ok_iff_ofRequest` — what the two checks have in common.
* `exists_isOfRequest_iff` — when a session refuses a request for its own sake.
-/

namespace BlockExplorer

namespace Config

-- ---------------------------------------------------------------------------
-- The check of settings
-- ---------------------------------------------------------------------------

/-- The settings can be used: the level has a name that is known, the directory has a path from the
root, and each masked key has a character that is not blank. -/
structure IsValid (config : Config) : Prop where
  level     : ∃ level, Level.ofText? config.logLevel = some level
  directory : ∀ path, config.logDir = some path → Path.isAbsolute path = true
  keys      : ∀ key ∈ config.redactedKeys, ∃ c ∈ key, Text.isBlank c = false

theorem any_isAllBlank_eq_false_iff {keys : List Text} :
    keys.any Text.isAllBlank = false ↔ ∀ key ∈ keys, ∃ c ∈ key, Text.isBlank c = false := by
  simp [Text.isAllBlank]

/-- **The check passes exactly the valid settings.** -/
theorem validate_eq_ok_iff {config : Config} : config.validate = .ok () ↔ config.IsValid := by
  -- the keys are checked last, with a directory and without one
  have hkeys : (if config.redactedKeys.any Text.isAllBlank then .error .blankKey else .ok () :
      Except ConfigError Unit) = .ok () ↔
        ∀ key ∈ config.redactedKeys, ∃ c ∈ key, Text.isBlank c = false := by
    rw [← any_isAllBlank_eq_false_iff]
    cases config.redactedKeys.any Text.isAllBlank <;> simp
  unfold validate
  dsimp only
  split
  · next hnone =>
    refine iff_of_false (nomatch ·) fun hvalid => ?_
    obtain ⟨level, hlevel⟩ := hvalid.level
    simp [hlevel] at hnone
  · next hsome =>
    have hlevel : ∃ level, Level.ofText? config.logLevel = some level := by
      simpa [← Option.ne_none_iff_exists'] using hsome
    split
    · next path hdir =>
      split
      · next hrelative =>
        refine iff_of_false (nomatch ·) fun hvalid => ?_
        exact hrelative (hvalid.directory path hdir)
      · next habsolute =>
        refine hkeys.trans ⟨fun h => ⟨hlevel, fun p hp => ?_, h⟩, fun hvalid => hvalid.keys⟩
        rw [hdir] at hp
        obtain rfl := Option.some.inj hp
        exact not_not.mp habsolute
    · next hdir =>
      refine hkeys.trans ⟨fun h => ⟨hlevel, fun p hp => ?_, h⟩, fun hvalid => hvalid.keys⟩
      exact absurd hp (hdir p)

/-- **What a build takes when nothing is asked for is valid.** -/
theorem isValid_ofBuild (build : Build) : (ofBuild build).IsValid where
  level := ⟨build.defaultLevel, Level.ofText?_name build.defaultLevel⟩
  directory path hdir := by cases hdir
  keys key hkey := by
    obtain rfl := List.mem_singleton.mp hkey
    exact ⟨'s', List.mem_cons_self .., rfl⟩

/-- A text gives the settings that it denotes, if they are valid. -/
theorem ofText_eq_ok_iff {document : Text} {config : Config} :
    ofText document = .ok config ↔
      ∃ a, Denotes document a ∧ config = a.applyTo default ∧ config.IsValid := by
  constructor
  · intro h
    cases hread : Assignment.ofText document with
    | error reason =>
      rw [ofText, hread] at h
      cases h
    | ok a =>
      rw [ofText_of_assignment hread] at h
      obtain ⟨u, hvalid, rfl⟩ := exceptMap_eq_ok_iff.mp h
      exact ⟨a, ofText_assignment_eq_ok_iff.mp hread, rfl, validate_eq_ok_iff.mp hvalid⟩
  · intro h
    obtain ⟨a, ha, hconfig, hvalid⟩ := h
    subst hconfig
    rw [ofText_of_assignment (ofText_assignment_eq_ok_iff.mpr ha), validate_eq_ok_iff.mpr hvalid]
    rfl

/-- **Settings that are read** come from the encoding of a document that denotes them, and are
valid. -/
theorem ofBytes_eq_ok_iff {path : Text} {content : Except FileError (List UInt8)}
    {config : Config} :
    ofBytes path content = .ok config ↔
      ∃ document a, content = .ok (encode document) ∧ Denotes document a ∧
        config = a.applyTo default ∧ config.IsValid := by
  constructor
  · intro h
    unfold ofBytes at h
    split at h
    · cases h
    · next bytes =>
      split at h
      · cases h
      · next document htext =>
        -- strict decoding takes the bytes only if they are the encoding of the text
        obtain ⟨a, ha, hconfig, hvalid⟩ := ofText_eq_ok_iff.mp h
        have hbytes : encode document = bytes := encode_of_scanStrict htext
        exact ⟨document, a, by rw [hbytes], ha, hconfig, hvalid⟩
  · intro ⟨document, a, hcontent, ha, hconfig, hvalid⟩
    have htext : textOfBytes (encode document) = .ok document := scanStrict_encode 0 document
    rw [hcontent, ofBytes, htext]
    exact ofText_eq_ok_iff.mpr ⟨a, ha, hconfig, hvalid⟩

end Config

-- ---------------------------------------------------------------------------
-- The check of a request for logging
-- ---------------------------------------------------------------------------

/-- The request itself is at fault, whatever log is active and whatever files there are. -/
def LogError.isOfRequest : LogError → Bool
  | unsupportedLevel _ => true
  | emptyDirectory => true
  | relativeDirectory _ => true
  | _ => false

/-- What is wrong with a target by itself is wrong with the request. -/
theorem isOfRequest_of_fault? {target : Target} {e : LogError} (h : target.fault? = some e) :
    e.isOfRequest = true := by
  cases target with
  | stderr => cases h
  | directory path =>
    -- a path is empty, or not absolute, or without fault
    change (if path = [] then _ else if Path.isAbsolute path then none else _) = some e at h
    split at h
    · cases h
      rfl
    · split at h
      · cases h
      · cases h
        rfl

/-- What a request is refused for before the log is looked at is wrong with the request. -/
theorem isOfRequest_of_ofRequest {level : Text} {target : Target} {e : LogError}
    (h : Logger.ofRequest level target = .error e) : e.isOfRequest = true := by
  unfold Logger.ofRequest at h
  split at h
  · cases h
    rfl
  · split at h
    · next hfault =>
      cases h
      exact isOfRequest_of_fault? hfault
    · cases h

namespace Config

/-- The target that settings ask for is proper when their directory is valid. -/
theorem target_isProper_iff {config : Config} :
    config.target.IsProper ↔ ∀ path, config.logDir = some path → Path.isAbsolute path = true := by
  unfold target
  cases config.logDir with
  | none => simp [Target.IsProper]
  | some path =>
    have hne : Path.isAbsolute path = true → path ≠ [] := by
      intro habsolute hnil
      rw [hnil] at habsolute
      cases habsolute
    simpa [Target.IsProper] using hne

/-- A request with these settings is in order exactly when their level and their directory are
valid. -/
theorem ofRequest_target_eq_ok_iff {config : Config} :
    (∃ logger, Logger.ofRequest config.logLevel config.target = .ok logger) ↔
      (∃ level, Level.ofText? config.logLevel = some level) ∧
        ∀ path, config.logDir = some path → Path.isAbsolute path = true := by
  rw [← target_isProper_iff]
  constructor
  · intro ⟨logger, h⟩
    obtain ⟨hlevel, htarget, hproper⟩ := ofRequest_eq_ok_iff.mp h
    exact ⟨⟨logger.level, hlevel⟩, htarget ▸ hproper⟩
  · intro ⟨⟨level, hlevel⟩, hproper⟩
    exact ⟨⟨level, config.target⟩, ofRequest_eq_ok_iff.mpr ⟨hlevel, rfl, hproper⟩⟩

/-- **The two checks agree** on level and directory; the first looks at the keys besides. -/
theorem validate_eq_ok_iff_ofRequest {config : Config} :
    config.validate = .ok () ↔
      (∃ logger, Logger.ofRequest config.logLevel config.target = .ok logger) ∧
        ∀ key ∈ config.redactedKeys, ∃ c ∈ key, Text.isBlank c = false := by
  rw [validate_eq_ok_iff, ofRequest_target_eq_ok_iff]
  constructor
  · intro hvalid
    exact ⟨⟨hvalid.level, hvalid.directory⟩, hvalid.keys⟩
  · intro ⟨⟨hlevel, hdirectory⟩, hkeys⟩
    exact ⟨hlevel, hdirectory, hkeys⟩

end Config

/-- What stands in the way of the files of a target is not a matter of the request. -/
theorem isOfRequest_eq_false_of_prepare {target : Target} {files : Tree} {e : LogError}
    (h : (target.prepare files).1 = .error e) : e.isOfRequest = false := by
  cases target with
  | stderr => cases h
  | directory path =>
    change (files.makeDirectories path).result.mapError (.directoryNotMade path) = .error e at h
    cases hmade : (files.makeDirectories path).result with
    | ok u =>
      rw [hmade] at h
      cases h
    | error reason =>
      rw [hmade] at h
      cases h
      rfl

/-- An active log refuses another level or another target, and nothing else. -/
theorem isOfRequest_eq_false_of_serves {active requested : Logger} {e : LogError}
    (h : active.serves requested = .error e) : e.isOfRequest = false := by
  unfold Logger.serves at h
  split at h
  · cases h
    rfl
  · split at h
    · cases h
      rfl
    · cases h

theorem Session.report_result (s : Session) (events : List Event) :
    (s.report events).result = .ok () := by
  unfold report
  split <;> rfl

/-- A request that is in order may be refused because of the active log or of the files, but not
because of itself. -/
theorem Session.isOfRequest_eq_false_of_start {s : Session} {level : Text} {target : Target}
    {logger : Logger} (hrequest : Logger.ofRequest level target = .ok logger) {e : LogError}
    (h : (s.start level target).result = .error e) : e.isOfRequest = false := by
  rw [start, hrequest] at h
  dsimp only at h
  -- an active log answers first; otherwise the files of the target are made
  split at h
  · exact isOfRequest_eq_false_of_serves h
  · split at h
    · next reason files hprepare =>
      have herror : (target.prepare s.files).1 = .error e := by
        rw [hprepare]
        exact h
      exact isOfRequest_eq_false_of_prepare herror
    · rw [activate, report_result] at h
      cases h

/-- A session refuses a request because of the request itself exactly when the request is not in
order, whatever log is active. -/
theorem Session.exists_isOfRequest_iff {s : Session} {level : Text} {target : Target} :
    (∃ e, (s.start level target).result = .error e ∧ e.isOfRequest = true) ↔
      ¬ ∃ logger, Logger.ofRequest level target = .ok logger := by
  constructor
  · intro ⟨e, hresult, hisOfRequest⟩ ⟨logger, hrequest⟩
    rw [isOfRequest_eq_false_of_start hrequest hresult] at hisOfRequest
    cases hisOfRequest
  · intro hnot
    cases hrequest : Logger.ofRequest level target with
    | ok logger => exact absurd ⟨logger, hrequest⟩ hnot
    | error e =>
      refine ⟨e, ?_, isOfRequest_of_ofRequest hrequest⟩
      rw [start, hrequest]

end BlockExplorer
