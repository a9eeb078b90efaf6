import BlockExplorer.Proofs.Command.Outcome
import BlockExplorer.Proofs.Request.Reporting
import BlockExplorer.Proofs.Request.Spelling
import BlockExplorer.Proofs.Text.Numeral
import BlockExplorer.Proofs.Text.OneLine

/-!
# BlockExplorer — log records on one line

A log is read line by line, so a record should be one line. The record of a
panic has no line breaks of the panic's text, since that text is put on one line
first (`lineBreaks_ofPanic`). The record of a query has the keys of the
parameters in it as they are. Everything else in it is on one line, so that its
line breaks are those of the keys (`lineBreaks_queryParsed`), and a key that
stands in the query with a line break of its own starts a new line of the log.
Values cannot do that: none is in the record, also when it decodes to a line
break.

Main result: `isOneLine_record_iff`.
-/

namespace BlockExplorer

namespace Text

/-- Joining with commas adds no line breaks. -/
theorem lineBreaks_join (ts : List Text) :
    (join [','] ts).lineBreaks = ts.flatMap lineBreaks := by
  cases ts with
  | nil => rfl
  | cons t ts =>
    rw [join_cons, lineBreaks_append, List.flatMap_cons]
    congr 1
    induction ts with
    | nil => rfl
    | cons u us ih =>
      rw [List.flatMap_cons, lineBreaks_append, List.flatMap_cons, ih]
      rfl

theorem lineBreaks_toDigits (n : Nat) : lineBreaks (Nat.toDigits 10 n) = [] := by
  rw [lineBreaks, List.filter_eq_nil_iff]
  intro c hc
  obtain ⟨d, -, rfl⟩ := Numeral.mem_toDigits (by decide) hc
  simp

end Text

open Text

-- ---------------------------------------------------------------------------
-- Line breaks of records
-- ---------------------------------------------------------------------------

/-- What stands in front of the message of a record has no line breaks. -/
theorem lineBreaks_line (e : Event) :
    lineBreaks e.line.toList = lineBreaks e.message.toList := by
  -- in front of the message stand the label of the level and a blank
  have hlabel : lineBreaks e.level.label.toList = [] := by
    cases e.level <;> rfl
  show lineBreaks (e.level.label ++ " " ++ e.message).toList = _
  rw [String.toList_append, String.toList_append, lineBreaks_append, lineBreaks_append, hlabel]
  rfl

theorem queryParsed_message (keys : List Text) :
    (Event.queryParsed keys).message =
      "event=query_parse module=cli status=ok param_count=" ++ Nat.repr keys.length ++ " keys=" ++
        String.ofList (join [','] keys) :=
  rfl

theorem panicCaptured_message (location payload : Text) :
    (Event.panicCaptured location payload).message =
      "event=panic_captured module=logging status=error location=" ++ String.ofList location ++
        " payload=" ++ String.ofList payload :=
  rfl

/-- **The line breaks in the record of a query are those of the keys.** -/
theorem lineBreaks_queryParsed (keys : List Text) :
    lineBreaks (Event.queryParsed keys).line.toList = keys.flatMap lineBreaks := by
  rw [lineBreaks_line, queryParsed_message]
  simp only [String.toList_append, String.toList_ofList, Nat.toList_repr, lineBreaks_append,
    lineBreaks_toDigits, lineBreaks_join]
  rfl

/-- The record of a panic has the line breaks of its place, and none of the panic's text. -/
theorem lineBreaks_ofPanic (location : Text) (payload : Option Text) :
    lineBreaks (Event.ofPanic location payload).line.toList = location.lineBreaks := by
  rw [lineBreaks_line, Event.ofPanic, panicCaptured_message]
  simp only [String.toList_append, String.toList_ofList, lineBreaks_append, lineBreaks_oneLine,
    List.append_nil]
  exact List.append_nil _

-- ---------------------------------------------------------------------------
-- The query command
-- ---------------------------------------------------------------------------

/-- Reading parameters with success reports nothing. -/
theorem parameters_events {redacted : List Text} {url : Text} {params : Params}
    (h : (Url.parameters redacted url).value = .ok params) :
    (Url.parameters redacted url).events = [] := by
  have hreports : Query.Reports redacted
      (Query.pairs (Url.queryPart (Url.stripCacheBusters url))) (Url.parameters redacted url) :=
    Query.reports_collect _ Params.empty
  -- a record is made only of bytes that are no text, and then reading fails
  by_contra hevents
  obtain ⟨key, source, herror⟩ := hreports.events_ne_nil_iff.mp hevents
  rw [h] at herror
  cases herror

/-- An address with one parameter, of a key that is not masked. -/
theorem parameters_of_pair {redacted : List Text} {url key raw value : Text}
    (hpairs : Query.pairs (Url.queryPart (Url.stripCacheBusters url)) = [(key, raw)])
    (hkey : key ∉ redacted) (hraw : Percent.WritesText value raw) :
    (Url.parameters redacted url).value = .ok (Params.empty.insert key value) := by
  -- the value is decoded, since the key is not masked
  have hshown : (Query.shownValue redacted key raw).value = .ok value :=
    Query.shownValue_eq_ok_iff.mpr (.decoded hkey (Percent.decodeValue_of_writesText hraw key))
  rw [Url.parameters, Query.parse, hpairs, Query.collect_cons_value, hshown]
  rfl

namespace Command

variable {config : Config} {input : Text} {params : Params}

/-- The query command has one record, of the keys. -/
theorem output_query_events (h : (Url.parameters config.redactedKeys input).value = .ok params) :
    ((query input).output config).events = [.queryParsed params.keys] := by
  have hevents := parameters_events h
  rw [output, queryOutput_eq]
  split
  · next hread =>
    rw [hread] at h
    cases h
  · next hread =>
    rw [hread] at h hevents
    obtain rfl := Except.ok.inj h
    obtain rfl : _ = [] := hevents
    rfl

/-- **The record of a query is one line exactly when all keys in the query are.** It has the line
breaks of the keys, one key after the other, and no others. -/
theorem isOneLine_record_iff
    (h : (Url.parameters config.redactedKeys input).value = .ok params) :
    ((query input).output config).events = [.queryParsed params.keys] ∧
    lineBreaks (Event.queryParsed params.keys).line.toList = params.keys.flatMap lineBreaks ∧
    (IsOneLine (Event.queryParsed params.keys).line.toList ↔
      ∀ key raw, (key, raw) ∈ Query.pairs (Url.queryPart (Url.stripCacheBusters input)) →
        IsOneLine key) := by
  have hkeys := (Query.showsLast_of_parse h).mem_keys
  refine ⟨output_query_events h, lineBreaks_queryParsed params.keys, ?_⟩
  rw [← lineBreaks_eq_nil_iff, lineBreaks_queryParsed, List.flatMap_eq_nil_iff]
  simp only [lineBreaks_eq_nil_iff, hkeys]
  -- every key of the parameters is the key of a pair, and the other way round
  constructor
  · intro hall key raw hmem
    exact hall key ⟨raw, hmem⟩
  · intro hall key ⟨raw, hmem⟩
    exact hall key raw hmem

/-- A value that decodes to a line break leaves the record on one line. -/
theorem isOneLine_record_decoded :
    ∃ params, (Url.parameters Config.default.redactedKeys "/s?a=%0A&b".toList).value =
        .ok params ∧
      params.get? "a".toList = some ['\n'] ∧
      IsOneLine (Event.queryParsed params.keys).line.toList := by
  have hstrip : Url.stripCacheBusters "/s?a=%0A&b".toList = "/s?a=%0A&b".toList := by
    cbv
  have hpairs : Query.pairs (Url.queryPart (Url.stripCacheBusters "/s?a=%0A&b".toList)) =
      [("a".toList, "%0A".toList)] := by
    rw [hstrip]
    rfl
  have hfeed : Percent.WritesChar '\n' ["%0A".toList].flatten :=
    .escapes (.cons (.escape (.inl rfl) (.inr rfl)) .nil)
  have hread : (Url.parameters Config.default.redactedKeys "/s?a=%0A&b".toList).value =
      .ok (Params.empty.insert "a".toList ['\n']) :=
    parameters_of_pair hpairs (by decide) (.cons hfeed .nil)
  refine ⟨_, hread, rfl, (isOneLine_record_iff hread).2.2.mpr ?_⟩
  intro key raw hmem
  rw [hpairs, List.mem_singleton] at hmem
  obtain ⟨rfl, -⟩ := Prod.mk.inj hmem
  decide

/-- A key with a line feed starts a new line of the log. -/
theorem not_isOneLine_record :
    ∃ params, (Url.parameters Config.default.redactedKeys "/s?a\nb=1".toList).value =
        .ok params ∧
      ((query "/s?a\nb=1".toList).output Config.default).events = [.queryParsed params.keys] ∧
      ¬ IsOneLine (Event.queryParsed params.keys).line.toList := by
  have hstrip : Url.stripCacheBusters "/s?a\nb=1".toList = "/s?a\nb=1".toList := by
    cbv
  have hpairs : Query.pairs (Url.queryPart (Url.stripCacheBusters "/s?a\nb=1".toList)) =
      [("a\nb".toList, "1".toList)] := by
    rw [hstrip]
    rfl
  have hread : (Url.parameters Config.default.redactedKeys "/s?a\nb=1".toList).value =
      .ok (Params.empty.insert "a\nb".toList "1".toList) :=
    parameters_of_pair hpairs (by decide) (.cons (.literal (by decide)) .nil)
  refine ⟨_, hread, output_query_events hread, ?_⟩
  rw [← lineBreaks_eq_nil_iff, lineBreaks_queryParsed]
  decide

end Command

end BlockExplorer
