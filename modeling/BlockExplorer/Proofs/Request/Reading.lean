import BlockExplorer.Proofs.Request.Pairs
import BlockExplorer.Proofs.Request.Params

/-!
# BlockExplorer — what a query is read as

Reading a query goes through its pairs once: the first that cannot be shown ends
it with an error, and of several values for one key the last one stays. Both are
said about the list of pairs as a whole. `FirstFailure` follows the pairs up to
the one at fault, and `ShowsLast` relates the parameters to positions among the
pairs; it leaves no choice, since parameters are determined by their values.

Main results:

* `collect_eq_error_iff` — collecting pairs fails exactly with the first failure.
* `showsLast_of_parse` — parameters that are read show the last value of each key.
* `parse_value_iff` — what a query is read as, in either case.
-/

namespace BlockExplorer

/-- The key that an error names. -/
def QueryError.key : QueryError → Text
  | malformedEscape key _ => key
  | invalidText key _ => key

/-- An error of decoding names the key that was decoded. -/
theorem Percent.key_of_decodeValue {key raw : Text} {e : QueryError}
    (h : (decodeValue key raw).value = .error e) : e.key = key := by
  unfold decodeValue at h
  split at h
  · cases h
    rfl
  · simp only [Logged.value_bind] at h
    split at h
    · cases h
    · cases h
      rfl

namespace Query

-- ---------------------------------------------------------------------------
-- One pair
-- ---------------------------------------------------------------------------

/-- The value that is shown for a pair: the mask for a key on the list, and otherwise what the raw
value decodes to. -/
inductive IsShown (redacted : List Text) (key raw : Text) : Text → Prop where
  | masked (hkey : key ∈ redacted) : IsShown redacted key raw mask
  | decoded {value : Text} (hkey : key ∉ redacted)
      (hvalue : (Percent.decodeValue key raw).value = .ok value) : IsShown redacted key raw value

/-- The key of the pair is not on the list, and its raw value fails to decode. -/
def Fails (redacted : List Text) (p : Text × Text) (e : QueryError) : Prop :=
  p.1 ∉ redacted ∧ (Percent.decodeValue p.1 p.2).value = .error e

section Reading

variable {redacted : List Text}

theorem shownValue_eq_ok_iff {key raw value : Text} :
    (shownValue redacted key raw).value = .ok value ↔ IsShown redacted key raw value := by
  unfold shownValue
  constructor
  · intro h
    split at h
    · next hkey =>
      cases h
      exact .masked hkey
    · next hkey => exact .decoded hkey h
  · rintro (hkey | ⟨hkey, hvalue⟩)
    · rw [if_pos hkey]
      rfl
    · rwa [if_neg hkey]

theorem shownValue_eq_error_iff {key raw : Text} {e : QueryError} :
    (shownValue redacted key raw).value = .error e ↔ Fails redacted (key, raw) e := by
  unfold shownValue Fails
  by_cases hkey : key ∈ redacted
  · rw [if_pos hkey]
    exact ⟨(nomatch ·), fun h => absurd hkey h.1⟩
  · rw [if_neg hkey]
    exact ⟨fun h => ⟨hkey, h⟩, fun h => h.2⟩

theorem IsShown.not_fails {key raw value : Text} (h : IsShown redacted key raw value)
    (e : QueryError) : ¬ Fails redacted (key, raw) e := by
  intro hfails
  have hok := shownValue_eq_ok_iff.mpr h
  rw [shownValue_eq_error_iff.mpr hfails] at hok
  cases hok

theorem IsShown.eq {key raw value value' : Text} (h : IsShown redacted key raw value)
    (h' : IsShown redacted key raw value') : value = value' := by
  have hok := shownValue_eq_ok_iff.mpr h
  rw [shownValue_eq_ok_iff.mpr h'] at hok
  cases hok
  rfl

/-- One step of collecting. -/
theorem collect_cons_value (key raw : Text) (rest : List (Text × Text)) (params : Params) :
    (collect redacted ((key, raw) :: rest) params).value =
      match (shownValue redacted key raw).value with
      | .ok value => (collect redacted rest (params.insert key value)).value
      | .error e => .error e := by
  rw [collect, Logged.value_bind]
  cases (shownValue redacted key raw).value <;> rfl

-- ---------------------------------------------------------------------------
-- The first failure
-- ---------------------------------------------------------------------------

/-- The error of the first pair that fails; it names the key of that pair. -/
inductive FirstFailure (redacted : List Text) : List (Text × Text) → QueryError → Prop where
  | here {p : Text × Text} {rest : List (Text × Text)} {e : QueryError}
      (hp : Fails redacted p e) (hkey : e.key = p.1) : FirstFailure redacted (p :: rest) e
  | later {p : Text × Text} {rest : List (Text × Text)} {e : QueryError}
      (hp : ∀ e', ¬ Fails redacted p e') (h : FirstFailure redacted rest e) :
      FirstFailure redacted (p :: rest) e

/-- **Collecting fails with the first failure**, whatever was collected before. -/
theorem collect_eq_error_iff {ps : List (Text × Text)} {params : Params} {e : QueryError} :
    (collect redacted ps params).value = .error e ↔ FirstFailure redacted ps e := by
  induction ps generalizing params with
  | nil => exact ⟨(nomatch ·), (nomatch ·)⟩
  | cons p rest ih =>
    obtain ⟨key, raw⟩ := p
    rw [collect_cons_value]
    cases hshown : (shownValue redacted key raw).value with
    | ok value =>
      have hnot := (shownValue_eq_ok_iff.mp hshown).not_fails
      refine ih.trans ⟨.later hnot, ?_⟩
      rintro (⟨hp, -⟩ | ⟨-, h⟩)
      · exact absurd hp (hnot e)
      · exact h
    -- the failure is here, and it cannot be a later one
    | error e' =>
      have hfails := shownValue_eq_error_iff.mp hshown
      constructor
      · intro h
        cases h
        exact .here hfails (Percent.key_of_decodeValue hfails.2)
      · rintro (⟨hp, -⟩ | ⟨hnot, -⟩)
        · have heq := shownValue_eq_error_iff.mpr hp
          rw [hshown] at heq
          cases heq
          rfl
        · exact absurd hfails (hnot e')

/-- There is a first failure when some pair fails at all. -/
theorem exists_firstFailure_iff {ps : List (Text × Text)} :
    (∃ e, FirstFailure redacted ps e) ↔ ∃ p ∈ ps, ∃ e, Fails redacted p e := by
  constructor
  · rintro ⟨e, h⟩
    induction h with
    | here hp _ => exact ⟨_, List.mem_cons_self .., _, hp⟩
    | later _ _ ih =>
      obtain ⟨p, hp, hfails⟩ := ih
      exact ⟨p, List.mem_cons_of_mem _ hp, hfails⟩
  · rintro ⟨p, hp, hfails⟩
    induction ps with
    | nil => cases hp
    | cons q rest ih =>
      by_cases hq : ∃ e, Fails redacted q e
      · obtain ⟨e, hq⟩ := hq
        exact ⟨e, .here hq (Percent.key_of_decodeValue hq.2)⟩
      · rcases List.mem_cons.mp hp with rfl | hp
        · exact absurd hfails hq
        · obtain ⟨e, h⟩ := ih hp
          exact ⟨e, .later (fun e' he' => hq ⟨e', he'⟩) h⟩

-- ---------------------------------------------------------------------------
-- The last values
-- ---------------------------------------------------------------------------

/-- The parameters show the pairs: their keys are those of the pairs, ascending by code points, and
each has the value of the last pair with it. -/
structure ShowsLast (redacted : List Text) (ps : List (Text × Text)) (params : Params) : Prop where
  ascending : params.keys.Pairwise Text.Before
  mem_keys  : ∀ key, key ∈ params.keys ↔ ∃ raw, (key, raw) ∈ ps
  last      : ∀ front key raw back, ps = front ++ (key, raw) :: back → (∀ p ∈ back, p.1 ≠ key) →
                ∃ value, IsShown redacted key raw value ∧ params.get? key = some value

/-- Collecting pairs adds their keys, and no others. -/
theorem mem_keys_of_collect {ps : List (Text × Text)} {params params' : Params}
    (h : (collect redacted ps params).value = .ok params') (key : Text) :
    key ∈ params'.keys ↔ key ∈ params.keys ∨ ∃ raw, (key, raw) ∈ ps := by
  induction ps generalizing params with
  | nil =>
    cases h
    simp
  | cons p rest ih =>
    obtain ⟨k, raw⟩ := p
    rw [collect_cons_value] at h
    split at h
    · rw [ih h, Params.mem_keys_insert]
      simp only [List.mem_cons, Prod.mk.injEq, exists_or, exists_and_left, exists_eq, and_true]
      exact or_assoc.trans or_left_comm
    · cases h

/-- A key that no pair has keeps its value. -/
theorem get?_of_collect {ps : List (Text × Text)} {params params' : Params}
    (h : (collect redacted ps params).value = .ok params') {key : Text}
    (hkey : ∀ p ∈ ps, p.1 ≠ key) : params'.get? key = params.get? key := by
  induction ps generalizing params with
  | nil =>
    cases h
    rfl
  | cons p rest ih =>
    obtain ⟨k, raw⟩ := p
    rw [collect_cons_value] at h
    split at h
    · rw [ih h fun p hp => hkey p (List.mem_cons_of_mem _ hp), Params.get?_insert,
        if_neg (hkey _ (List.mem_cons_self ..)).symm]
    · cases h

/-- The induction is on the pairs before the last one of the key. -/
theorem get?_last_of_collect {front back : List (Text × Text)} {key raw : Text}
    {params params' : Params}
    (h : (collect redacted (front ++ (key, raw) :: back) params).value = .ok params')
    (hback : ∀ p ∈ back, p.1 ≠ key) :
    ∃ value, IsShown redacted key raw value ∧ params'.get? key = some value := by
  induction front generalizing params with
  | nil =>
    rw [List.nil_append, collect_cons_value] at h
    split at h
    · next value hshown =>
      refine ⟨value, shownValue_eq_ok_iff.mp hshown, ?_⟩
      rw [get?_of_collect h hback, Params.get?_insert, if_pos rfl]
    · cases h
  | cons p front ih =>
    rw [List.cons_append, collect_cons_value] at h
    split at h
    · exact ih h
    · cases h

/-- Parameters that are read show the last value of each key. -/
theorem showsLast_of_parse {query : Text} {params : Params}
    (h : (parse redacted query).value = .ok params) :
    ShowsLast redacted (pairs query) params where
  ascending := params.pairwise_keys
  mem_keys key := by
    have hempty : key ∉ Params.empty.keys := List.not_mem_nil
    rw [mem_keys_of_collect h key, or_iff_right hempty]
  last front key raw back heq hback := by
    rw [parse, heq] at h
    exact get?_last_of_collect h hback

/-- Of the pairs of a key there is a last one. -/
theorem exists_last_pair {ps : List (Text × Text)} {key raw : Text} (h : (key, raw) ∈ ps) :
    ∃ front raw' back, ps = front ++ (key, raw') :: back ∧ ∀ p ∈ back, p.1 ≠ key := by
  induction ps generalizing raw with
  | nil => cases h
  | cons p rest ih =>
    -- the last pair of the key is behind this one, or it is this one
    by_cases hrest : ∃ raw', (key, raw') ∈ rest
    · obtain ⟨raw', hraw'⟩ := hrest
      obtain ⟨front, raw'', back, rfl, hback⟩ := ih hraw'
      exact ⟨p :: front, raw'', back, rfl, hback⟩
    · rcases List.mem_cons.mp h with rfl | h
      · refine ⟨[], raw, rest, rfl, ?_⟩
        rintro ⟨k, r⟩ hmem rfl
        exact hrest ⟨r, hmem⟩
      · exact absurd ⟨raw, h⟩ hrest

/-- The pairs leave no choice. -/
theorem ShowsLast.eq {ps : List (Text × Text)} {params params' : Params}
    (h : ShowsLast redacted ps params) (h' : ShowsLast redacted ps params') :
    params = params' := by
  apply Params.ext_get?
  intro key
  -- a key of some pair has the value of its last one, and any other key has none
  by_cases hkey : ∃ raw, (key, raw) ∈ ps
  · obtain ⟨raw, hraw⟩ := hkey
    obtain ⟨front, raw', back, heq, hback⟩ := exists_last_pair hraw
    obtain ⟨value, hshown, hvalue⟩ := h.last front key raw' back heq hback
    obtain ⟨value', hshown', hvalue'⟩ := h'.last front key raw' back heq hback
    rw [hvalue, hvalue', hshown.eq hshown']
  · rw [Params.get?_eq_none_iff.mpr fun hmem => hkey ((h.mem_keys key).mp hmem),
      Params.get?_eq_none_iff.mpr fun hmem => hkey ((h'.mem_keys key).mp hmem)]

-- ---------------------------------------------------------------------------
-- Queries
-- ---------------------------------------------------------------------------

theorem parse_eq_error_iff {query : Text} {e : QueryError} :
    (parse redacted query).value = .error e ↔ FirstFailure redacted (pairs query) e :=
  collect_eq_error_iff

/-- Reading gives the parameters that show the last values, unless some pair fails. -/
theorem parse_eq_ok_iff {query : Text} {params : Params} :
    (parse redacted query).value = .ok params ↔
      (∀ p ∈ pairs query, ∀ e, ¬ Fails redacted p e) ∧
        ShowsLast redacted (pairs query) params := by
  constructor
  · intro h
    refine ⟨fun p hp e hfails => ?_, showsLast_of_parse h⟩
    obtain ⟨e', hfirst⟩ := exists_firstFailure_iff.mpr ⟨p, hp, e, hfails⟩
    rw [parse_eq_error_iff.mpr hfirst] at h
    cases h
  · rintro ⟨hnone, hshows⟩
    cases hvalue : (parse redacted query).value with
    | ok params' => rw [hshows.eq (showsLast_of_parse hvalue)]
    | error e =>
      obtain ⟨p, hp, e', hfails⟩ :=
        exists_firstFailure_iff.mp ⟨e, parse_eq_error_iff.mp hvalue⟩
      exact absurd hfails (hnone p hp e')

/-- **What a query is read as.** Its pairs are the pieces with exactly one `=`. Reading fails
exactly when some pair with a key that is not on the list fails to decode, and then with the error
of the first such pair; otherwise it gives the parameters that show the last value of each key. -/
theorem parse_value_iff (redacted : List Text) (query : Text) :
    PairsOf (Text.split (· = '&') query) (pairs query) ∧
    ((∃ e, (parse redacted query).value = .error e) ↔
      ∃ p ∈ pairs query, ∃ e, Fails redacted p e) ∧
    (∀ e, (parse redacted query).value = .error e ↔ FirstFailure redacted (pairs query) e) ∧
    ((∃ params, (parse redacted query).value = .ok params) ↔
      ∀ p ∈ pairs query, ∀ e, ¬ Fails redacted p e) ∧
    ∀ params, (parse redacted query).value = .ok params ↔
      (∀ p ∈ pairs query, ∀ e, ¬ Fails redacted p e) ∧
        ShowsLast redacted (pairs query) params := by
  have herror : (∃ e, (parse redacted query).value = .error e) ↔
      ∃ p ∈ pairs query, ∃ e, Fails redacted p e := by
    rw [← exists_firstFailure_iff]
    exact exists_congr fun e => parse_eq_error_iff
  refine ⟨pairsOf_pairs query, herror, fun e => parse_eq_error_iff, ?_,
    fun params => parse_eq_ok_iff⟩
  constructor
  · rintro ⟨params, h⟩
    exact (parse_eq_ok_iff.mp h).1
  · intro hnone
    cases hvalue : (parse redacted query).value with
    | ok params => exact ⟨params, rfl⟩
    | error e =>
      obtain ⟨p, hp, e', hfails⟩ := herror.mp ⟨e, hvalue⟩
      exact absurd hfails (hnone p hp e')

end Reading

end Query

end BlockExplorer
