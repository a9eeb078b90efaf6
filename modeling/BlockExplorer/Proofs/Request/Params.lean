import Mathlib.Data.List.Sort
import BlockExplorer.Request.Params

/-!
# BlockExplorer — parameters as a map

A list of parameters is sorted by key with no key twice, so it is the graph of
`Params.get?`: an entry stands in it exactly when its value is found under its
key (`mem_entries_iff`), and two lists with the same values under the same keys
are the same list (`ext_get?`). Everything that is said about parameters later is
said through `get?`, of which `get?_insert` is the one equation.
-/

namespace BlockExplorer

theorem lookup_entry_cons (key value : Text) (rest : List (Text × Text)) (k : Text) :
    ((key, value) :: rest).lookup k = if k = key then some value else rest.lookup k := by
  by_cases hk : k = key
  · rw [if_pos hk, List.lookup_cons, beq_iff_eq.mpr hk]
  · rw [if_neg hk, List.lookup_cons, beq_false_of_ne hk]

/-- Inserting gives one key its value, and leaves the values of the others. -/
theorem lookup_insertSorted (key value : Text) (entries : List (Text × Text)) (k : Text) :
    (insertSorted key value entries).lookup k =
      if k = key then some value else entries.lookup k := by
  induction entries with
  | nil => exact lookup_entry_cons key value [] k
  | cons entry rest ih =>
    obtain ⟨k', v'⟩ := entry
    rw [insertSorted]
    split
    · exact lookup_entry_cons key value _ k
    split
    · next hkey =>
      -- the entry of the key is replaced where it stands
      rw [lookup_entry_cons, lookup_entry_cons, hkey]
      by_cases hk : k = k'
      · rw [if_pos hk, if_pos hk]
      · rw [if_neg hk, if_neg hk, if_neg hk]
    · next hkey =>
      rw [lookup_entry_cons, lookup_entry_cons, ih]
      by_cases hk : k = k'
      · rw [if_pos hk, if_pos hk, if_neg fun heq => hkey (heq.symm.trans hk)]
      · rw [if_neg hk, if_neg hk]

/-- In a list without a key twice, what is found is what stands in it. -/
theorem lookup_eq_some_iff_mem {entries : List (Text × Text)}
    (h : entries.Pairwise fun p q => Text.Before p.1 q.1) {key value : Text} :
    entries.lookup key = some value ↔ (key, value) ∈ entries := by
  -- the induction is on the entries, of which the first has the least key
  induction entries with
  | nil => simp
  | cons entry rest ih =>
    obtain ⟨k, v⟩ := entry
    obtain ⟨hfirst, hrest⟩ := List.pairwise_cons.mp h
    rw [lookup_entry_cons, List.mem_cons, ← ih hrest]
    by_cases hk : key = k
    · -- the key stands at the front, and so nowhere behind it
      subst hk
      have hnot : ¬ rest.lookup key = some value := fun hmem =>
        Text.not_before_self key (hfirst _ ((ih hrest).mp hmem))
      simp [hnot, eq_comm]
    · simp [hk]

namespace Params

@[simp] theorem get?_empty (key : Text) : empty.get? key = none := rfl

@[simp] theorem get?_insert (key value : Text) (params : Params) (k : Text) :
    (params.insert key value).get? k = if k = key then some value else params.get? k :=
  lookup_insertSorted key value params.entries k

theorem mem_entries_iff {params : Params} {key value : Text} :
    (key, value) ∈ params.entries ↔ params.get? key = some value :=
  (lookup_eq_some_iff_mem params.sorted).symm

theorem mem_keys_iff {params : Params} {key : Text} :
    key ∈ params.keys ↔ ∃ value, params.get? key = some value := by
  simp only [keys, List.mem_map, Prod.exists, mem_entries_iff]
  constructor
  · rintro ⟨k, value, hvalue, rfl⟩
    exact ⟨value, hvalue⟩
  · rintro ⟨value, hvalue⟩
    exact ⟨key, value, hvalue, rfl⟩

theorem get?_eq_none_iff {params : Params} {key : Text} :
    params.get? key = none ↔ key ∉ params.keys := by
  rw [mem_keys_iff, ← Option.isSome_iff_exists, Option.not_isSome_iff_eq_none]

theorem mem_keys_insert {params : Params} {key value k : Text} :
    k ∈ (params.insert key value).keys ↔ k = key ∨ k ∈ params.keys := by
  rw [mem_keys_iff, mem_keys_iff, get?_insert]
  by_cases hk : k = key <;> simp [hk]

/-- Sets the values of several keys, one after the other. -/
def insertAll (params : Params) (ps : List (Text × Text)) : Params :=
  ps.foldl (fun params p => params.insert p.1 p.2) params

/-- Of several values for one key the last one stays. -/
theorem get?_insertAll (params : Params) (ps : List (Text × Text)) (k : Text) :
    (params.insertAll ps).get? k = (ps.reverse.lookup k).or (params.get? k) := by
  induction ps generalizing params with
  | nil => rfl
  | cons p ps ih =>
    obtain ⟨key, value⟩ := p
    have hcons : params.insertAll ((key, value) :: ps) = (params.insert key value).insertAll ps :=
      rfl
    rw [hcons, ih, get?_insert, List.reverse_cons, List.lookup_append, Option.or_assoc,
      lookup_entry_cons]
    by_cases hk : k = key
    · rw [if_pos hk, if_pos hk]
      rfl
    · rw [if_neg hk, if_neg hk]
      rfl

/-- The keys ascend by code points, so that none stands twice. -/
theorem pairwise_keys (params : Params) : params.keys.Pairwise Text.Before :=
  List.pairwise_map.mpr params.sorted

/-- **Parameters are determined by their values.** -/
theorem ext_get? {params params' : Params} (h : ∀ key, params.get? key = params'.get? key) :
    params = params' := by
  have hirrefl : Std.Irrefl fun p q : Text × Text => Text.Before p.1 q.1 :=
    ⟨fun p => Text.not_before_self p.1⟩
  have hantisymm : Std.Antisymm fun p q : Text × Text => Text.Before p.1 q.1 :=
    ⟨fun p _ hpq hqp => absurd (hpq.trans hqp) (Text.not_before_self p.1)⟩
  have hmem : ∀ entry, entry ∈ params.entries ↔ entry ∈ params'.entries := by
    rintro ⟨key, value⟩
    rw [mem_entries_iff, mem_entries_iff, h]
  -- sorted lists with the same entries are equal
  have hentries := params.sorted.eq_of_mem_iff params'.sorted hmem
  cases params
  cases params'
  cases hentries
  rfl

end Params

end BlockExplorer
