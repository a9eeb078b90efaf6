import BlockExplorer.Command.Run
import BlockExplorer.Proofs.Request.CacheBuster
import BlockExplorer.Proofs.Request.Redaction

/-!
# BlockExplorer — secrets in the outcome of a command

The value of a masked parameter leaves no trace in what the query command does:
not in its output, its failure or its records. The address is cleaned first, as
plain text, and the secret stands in the middle of it; that no cache-buster runs
into the parameter is what `Url.stripCacheBusters_parameter` says. Behind the
cleaning the two addresses still differ in the secret alone, so that their
queries are the same (`Url.CutsParameter`) or differ in one pair of a masked key
(`samePairs_of_secret`), and the rest of the command sees the parameters only.

Main results:

* `parameters_eq_of_secret` — the parameters of an address do not depend on the
  value of a masked one.
* `sameOutcome_withParameter` — neither does anything that the command does.
-/

namespace BlockExplorer

-- ---------------------------------------------------------------------------
-- The parameters of an address
-- ---------------------------------------------------------------------------

namespace Url

/-- A text without the characters that divide an address: a key, or a value as it is written. -/
def Undivided (t : Text) : Prop :=
  '?' ∉ t ∧ '&' ∉ t ∧ '=' ∉ t

/-- An address with a parameter between two parts. -/
def withParameter (before key value after : Text) : Text :=
  before ++ (key ++ '=' :: value) ++ after

theorem Undivided.parameter {key value : Text} (hkey : Undivided key)
    (hvalue : Undivided value) : '?' ∉ key ++ '=' :: value := by
  simp [hkey.1, hvalue.1]

section Secret

variable {redacted : List Text} {key v w : Text}

/-- The value of a masked key, behind the start of a piece, does not matter to the parameters that
are read. -/
theorem parse_eq_of_secret (hkey : key ∈ redacted) (hfree : Undivided key)
    (hv : Undivided v) (hw : Undivided w) {front : Text} (hfront : OpensPiece front)
    (after : Text) :
    Query.parse redacted (withParameter front key v after) =
      Query.parse redacted (withParameter front key w after) := by
  have hpairs := Query.samePairs_of_secret hkey hfree.2 hv.2 hw.2 after
  apply Query.collect_eq_of_samePairs
  rcases hfront with rfl | ⟨t, rfl⟩
  · exact hpairs
  · have hcut : ∀ value, Query.pairs (withParameter (t ++ ['&']) key value after) =
        Query.pairs t ++ Query.pairs (key ++ '=' :: value ++ after) := by
      intro value
      rw [withParameter, List.append_assoc, List.append_assoc, List.singleton_append,
        Query.pairs_append_cons]
    -- the pairs before the secret are the same
    rw [hcut, hcut]
    exact List.rel_append (Query.samePairs_refl _) hpairs

/-- **The parameters of an address do not depend on a secret**: they are the same, or the error is,
and so are the events, whatever value a masked parameter has. -/
theorem parameters_eq_of_secret (hkey : key ∈ redacted) (hne : key ≠ busterKey)
    (hfree : Undivided key) (hv : Undivided v) (hw : Undivided w) {before : Text}
    (hbefore : OpensParameter before) (after : Text) :
    parameters redacted (withParameter before key v after) =
      parameters redacted (withParameter before key w after) := by
  unfold parameters withParameter
  rw [stripCacheBusters_parameter hbefore hfree.2 hne hv.2.1,
    stripCacheBusters_parameter hbefore hfree.2 hne hw.2.1]
  rcases keeps_or_cuts (opensParameter_stripCacheBusters hbefore) (stripCacheBusters after) with
    ⟨front, hfront, hquery⟩ | ⟨query, hquery⟩
  · rw [hquery _ (hfree.parameter hv), hquery _ (hfree.parameter hw)]
    exact parse_eq_of_secret hkey hfree hv hw hfront _
  · rw [hquery _ (hfree.parameter hv), hquery _ (hfree.parameter hw)]

end Secret

end Url

-- ---------------------------------------------------------------------------
-- The command
-- ---------------------------------------------------------------------------

namespace Command

/-- The query command does the same for two addresses: it gives one result or one failure and
reports the same events, and so the outcome is the same however logging started and however long
the command took. -/
def SameOutcome (config : Config) (url url' : Text) : Prop :=
  (query url).output config = (query url').output config ∧
    ∀ started milliseconds,
      (query url).outcome started milliseconds ((query url).output config) =
        (query url').outcome started milliseconds ((query url').output config)

/-- The query command depends on an address by the parameters in it. -/
theorem sameOutcome_of_parameters {config : Config} {url url' : Text}
    (h : Url.parameters config.redactedKeys url = Url.parameters config.redactedKeys url') :
    SameOutcome config url url' := by
  have houtput : (query url).output config = (query url').output config := by
    rw [output, output, queryOutput, queryOutput, h]
  refine ⟨houtput, fun started milliseconds => ?_⟩
  -- of the command itself the outcome shows its name alone
  rw [houtput]
  rfl

/-- **Redaction of the whole command.** Whatever value a masked parameter has, wherever it stands in
an address and whatever follows it there, the query command does the same. -/
theorem sameOutcome_withParameter {config : Config} {before key v w : Text}
    (hbefore : Url.OpensParameter before) (hkey : key ∈ config.redactedKeys)
    (hne : key ≠ "random".toList) (hfree : Url.Undivided key) (hv : Url.Undivided v)
    (hw : Url.Undivided w) (after : Text) :
    SameOutcome config (Url.withParameter before key v after)
      (Url.withParameter before key w after) :=
  sameOutcome_of_parameters (Url.parameters_eq_of_secret hkey hne hfree hv hw hbefore after)

/-- The secret stands between two cache-busters; the text behind the second ends up in its piece,
and a value behind it fails to decode. -/
theorem sameOutcome_secretPhrase :
    SameOutcome Config.default
      (Url.withParameter ("/node?a=1&random=0.5".toList ++ ['&']) "secretPhrase".toList
        "%Z1".toList "&random=7x&b=%C3".toList)
      (Url.withParameter ("/node?a=1&random=0.5".toList ++ ['&']) "secretPhrase".toList
        "random".toList "&random=7x&b=%C3".toList) :=
  sameOutcome_withParameter (.ampersand _) (List.mem_singleton_self _) (by decide)
    ⟨by decide, by decide, by decide⟩ ⟨by decide, by decide, by decide⟩
    ⟨by decide, by decide, by decide⟩ _

end Command

end BlockExplorer
