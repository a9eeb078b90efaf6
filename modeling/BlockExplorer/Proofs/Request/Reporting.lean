import BlockExplorer.Proofs.Request.OnePass
import BlockExplorer.Proofs.Request.Reading

/-!
# BlockExplorer — what reading a query reports

Of all that happens when a query is read, only strict decoding reports anything,
and only when it fails. A failure ends the reading, so that at most one event
comes out of a query, however many pairs it has: that of the first pair that
fails, if its octets are not text. `Reports` says this of the list of pairs, for
every way the reading can end, with the octets of the one-pass decoder.

A masked pair is not decoded, and so the events of a query are those of its
other pairs (`events_collect_filter`).

Main results:

* `reports_collect` — the events of collecting pairs, by its result.
* `reports_parse` — a query reports an event exactly when it holds bytes that are
  not text, and this event is a warning that tells their number and the error.
-/

namespace BlockExplorer

-- ---------------------------------------------------------------------------
-- One value
-- ---------------------------------------------------------------------------

/-- Strict decoding reports nothing, or fails and reports its error. -/
theorem decodeStrict_eq (bytes : List UInt8) :
    decodeStrict bytes = ⟨(decodeStrict bytes).value,
      match (decodeStrict bytes).value with
      | .ok _ => []
      | .error e => [.strictFailure bytes.length e]⟩ := by
  unfold decodeStrict
  split <;> rfl

namespace Query

section Reporting

variable {redacted : List Text}

/-- The octets of the pair's value are not text; nothing is wrong with its escapes. -/
structure Undecodable (redacted : List Text) (p : Text × Text) (octets : List UInt8)
    (source : CodecError) : Prop where
  unmasked : p.1 ∉ redacted
  scanned  : Percent.scan 0 (encode p.2) = .ok octets
  failed   : (decodeStrict octets).value = .error source

/-- A value is shown without a report, or its escapes are malformed, which is not reported either,
or its octets are not text. -/
theorem shownValue_cases (redacted : List Text) (key raw : Text) :
    (∃ value, shownValue redacted key raw = pure (.ok value)) ∨
    (∃ offset, shownValue redacted key raw = pure (.error (.malformedEscape key offset))) ∨
    ∃ octets source, Undecodable redacted (key, raw) octets source ∧
      shownValue redacted key raw =
        ⟨.error (.invalidText key source), [.strictFailure octets.length source]⟩ := by
  by_cases hkey : key ∈ redacted
  · exact .inl ⟨mask, if_pos hkey⟩
  have hshown : shownValue redacted key raw = Percent.decodeInOnePass key raw := by
    rw [shownValue, if_neg hkey, Percent.decodeValue_eq]
  rw [hshown, Percent.decodeInOnePass]
  cases hscan : Percent.scan 0 (encode raw) with
  | error offset => exact .inr (.inl ⟨offset, rfl⟩)
  | ok octets =>
    dsimp only
    rw [decodeStrict_eq octets]
    cases hvalue : (decodeStrict octets).value with
    | ok value => exact .inl ⟨value, rfl⟩
    | error source => exact .inr (.inr ⟨octets, source, ⟨hkey, hscan, hvalue⟩, rfl⟩)

-- ---------------------------------------------------------------------------
-- All pairs
-- ---------------------------------------------------------------------------

/-- The ways in which reading pairs can end, each with the events that it reports. -/
inductive Reports (redacted : List Text) (ps : List (Text × Text)) :
    Logged CodecEvent (Except QueryError Params) → Prop where
  | read {params : Params} : Reports redacted ps ⟨.ok params, []⟩
  | malformed {key : Text} {offset : Nat} :
      Reports redacted ps ⟨.error (.malformedEscape key offset), []⟩
  | undecodable {front back : List (Text × Text)} {key raw : Text} {octets : List UInt8}
      {source : CodecError} (hparts : ps = front ++ (key, raw) :: back)
      (hfront : ∀ p ∈ front, ∀ e, ¬ Fails redacted p e)
      (hpair : Undecodable redacted (key, raw) octets source) :
      Reports redacted ps
        ⟨.error (.invalidText key source), [.strictFailure octets.length source]⟩

/-- A pair in front that does not fail makes no difference. -/
theorem Reports.cons {ps : List (Text × Text)} {p : Text × Text}
    {x : Logged CodecEvent (Except QueryError Params)} (h : Reports redacted ps x)
    (hp : ∀ e, ¬ Fails redacted p e) : Reports redacted (p :: ps) x := by
  cases h with
  | read => exact .read
  | malformed => exact .malformed
  | @undecodable front back key raw octets source hparts hfront hpair =>
    have hparts' : p :: ps = (p :: front) ++ (key, raw) :: back := congrArg (p :: ·) hparts
    exact .undecodable hparts' (List.forall_mem_cons.mpr ⟨hp, hfront⟩) hpair

theorem not_fails_of_shownValue {key raw value : Text}
    (h : shownValue redacted key raw = pure (.ok value)) (e : QueryError) :
    ¬ Fails redacted (key, raw) e :=
  (shownValue_eq_ok_iff.mp (congrArg Logged.value h)).not_fails e

/-- **Collecting pairs reports the first failure, or nothing.** The induction is on the pairs; what
was collected before has no part in it. -/
theorem reports_collect (ps : List (Text × Text)) (params : Params) :
    Reports redacted ps (collect redacted ps params) := by
  -- the pair in front is shown, and the others decide, or it ends the reading
  induction ps generalizing params with
  | nil => exact .read
  | cons p rest ih =>
    obtain ⟨key, raw⟩ := p
    rw [collect]
    obtain ⟨value, hshown⟩ | ⟨offset, hshown⟩ | ⟨octets, source, hpair, hshown⟩ :=
      shownValue_cases redacted key raw
    · rw [hshown]
      exact (ih (params.insert key value)).cons (not_fails_of_shownValue hshown)
    · rw [hshown]
      exact .malformed
    · rw [hshown]
      have hnone : ∀ p ∈ ([] : List (Text × Text)), ∀ e, ¬ Fails redacted p e :=
        fun p hp => absurd hp List.not_mem_nil
      exact .undecodable rfl hnone hpair

/-- **Masked pairs are not heard of**: without them the same events are reported. -/
theorem events_collect_filter (redacted : List Text) (ps : List (Text × Text))
    (params params' : Params) :
    (collect redacted (ps.filter fun p => p.1 ∉ redacted) params').events =
      (collect redacted ps params).events := by
  induction ps generalizing params params' with
  | nil => rfl
  | cons p rest ih =>
    obtain ⟨key, raw⟩ := p
    -- a masked pair reports nothing, any other pair reports the same with and without them
    by_cases hkey : key ∈ redacted
    · rw [List.filter_cons_of_neg (by simpa using hkey), collect, shownValue, if_pos hkey]
      exact ih (params.insert key mask) params'
    · rw [List.filter_cons_of_pos (by simpa using hkey), collect, collect, Logged.events_bind,
        Logged.events_bind]
      cases (shownValue redacted key raw).value with
      | error e => rfl
      | ok value => rw [ih (params.insert key value) (params'.insert key value)]

-- ---------------------------------------------------------------------------
-- Queries
-- ---------------------------------------------------------------------------

/-- There is an event exactly when the octets of a value are not text. -/
theorem Reports.events_ne_nil_iff {ps : List (Text × Text)}
    {x : Logged CodecEvent (Except QueryError Params)} (h : Reports redacted ps x) :
    x.events ≠ [] ↔ ∃ key source, x.value = .error (.invalidText key source) := by
  cases h <;> simp

/-- **A query reports that its bytes are not text, and nothing else.** There is an event exactly
when the result is this error; it is one event, of the first pair that fails, and tells the number
of the pair's octets and the error. Masked pairs add nothing to it and take nothing away. -/
theorem reports_parse (redacted : List Text) (query : Text) :
    ((parse redacted query).events ≠ [] ↔
      ∃ key source, (parse redacted query).value = .error (.invalidText key source)) ∧
    Reports redacted (pairs query) (parse redacted query) ∧
    (parse redacted query).events =
      (collect redacted ((pairs query).filter fun p => p.1 ∉ redacted) Params.empty).events ∧
    ∀ length source, (CodecEvent.strictFailure length source).level = .warn ∧
      (CodecEvent.strictFailure length source).message =
        "event=decode module=codec status=error mode=strict " ++
          s!"input_len={length} error_code={source.code} error={source.message}" := by
  have hreports : Reports redacted (pairs query) (parse redacted query) :=
    reports_collect (pairs query) Params.empty
  have hfilter := events_collect_filter redacted (pairs query) Params.empty Params.empty
  refine ⟨hreports.events_ne_nil_iff, hreports, hfilter.symm, ?_⟩
  intro length source
  exact ⟨rfl, rfl⟩

/-- A secret is no text either, and neither is the value behind the one that fails. -/
example : (parse ["pin".toList] "pin=%FF&a=%41&b=%C3%28+&c=%FF".toList).events =
    [.strictFailure 3 (.invalidContinuation 1 0x28)] := by cbv

end Reporting

end Query

end BlockExplorer
