import BlockExplorer.Proofs.Command.Outcome
import BlockExplorer.Proofs.Json.Object
import BlockExplorer.Proofs.Request.Params

/-!
# BlockExplorer — what the query command prints

The query command prints its parameters as an object. Keys and values come from
the request and may be any texts, but whatever they are, the object that is
printed holds the entries of the parameters and no others
(`Json.holdsObject_prettyObject_iff`), and parameters are determined by their
entries. So different parameters are never printed alike.

Main result: `printed_iff_and_injective`.
-/

namespace BlockExplorer

theorem Text.Before.ne {t u : Text} (h : Text.Before t u) : t ≠ u := by
  intro hsame
  subst hsame
  exact Text.not_before_self t h

/-- The entries have their keys in ascending order, no key twice, and are those of the
parameters. -/
structure Params.ListedBy (params : Params) (entries : List (Text × Text)) : Prop where
  ascending : (entries.map (·.1)).Pairwise Text.Before
  nodup     : (entries.map (·.1)).Nodup
  mem_iff   : ∀ key value, (key, value) ∈ entries ↔ params.get? key = some value

theorem Params.listedBy_entries (params : Params) : params.ListedBy params.entries where
  ascending := params.pairwise_keys
  nodup := params.pairwise_keys.imp Text.Before.ne
  mem_iff := fun _ _ => mem_entries_iff

/-- Parameters are determined by a list of their entries. -/
theorem Params.ListedBy.eq {params params' : Params} {entries : List (Text × Text)}
    (h : params.ListedBy entries) (h' : params'.ListedBy entries) : params = params' := by
  refine ext_get? fun key => Option.ext fun value => ?_
  rw [← h.mem_iff, h'.mem_iff]

namespace Command

/-- The query command prints the parameters that it reads, if it reads any. -/
theorem output_query_eq_ok_iff {config : Config} {input printed : Text} :
    ((query input).output config).value = .ok printed ↔
      ∃ params, (Url.parameters config.redactedKeys input).value = .ok params ∧
        printed = Json.prettyObject params.entries := by
  rw [output, queryOutput_eq]
  constructor
  · intro h
    split at h
    · cases h
    · next params events hparams =>
      rw [hparams]
      exact ⟨params, rfl, (Except.ok.inj h).symm⟩
  · intro h
    obtain ⟨params, hparams, hprinted⟩ := h
    split
    · next hread =>
      rw [hread] at hparams
      cases hparams
    · next hread =>
      rw [hread] at hparams
      obtain rfl := Except.ok.inj hparams
      rw [hprinted]

/-- **What the query command prints can be read in one way.** It is an object that holds the entries
of the parameters, with their keys in ascending order and none twice, whatever texts they are and
whatever blanks end the output; and no two lists of parameters are printed alike. -/
theorem printed_iff_and_injective :
    (∀ config input printed, ((query input).output config).value = .ok printed ↔
      ∃ params, (Url.parameters config.redactedKeys input).value = .ok params ∧
        printed = Json.prettyObject params.entries) ∧
    (∀ (params : Params) (b : Text), Json.Blanks b →
      ∃ entries, params.ListedBy entries ∧
        ∀ entries', Json.HoldsObject (Json.prettyObject params.entries ++ b) entries' ↔
          entries' = entries) ∧
    ∀ params params' : Params,
      Json.prettyObject params.entries = Json.prettyObject params'.entries → params = params' := by
  refine ⟨fun _ _ _ => output_query_eq_ok_iff, ?_, ?_⟩
  · intro params b hb
    exact ⟨params.entries, params.listedBy_entries, fun _ => Json.holdsObject_prettyObject_iff hb⟩
  · intro params params' hprinted
    have hobject := (Json.isObject_prettyObject params.entries).holds
    rw [hprinted] at hobject
    have hentries := hobject.eq (Json.isObject_prettyObject params'.entries).holds
    exact params.listedBy_entries.eq (hentries ▸ params'.listedBy_entries)

end Command

end BlockExplorer
