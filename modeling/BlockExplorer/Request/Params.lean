import BlockExplorer.Text.Basic

/-!
# BlockExplorer — parameters

The parameters of a request, one value a key, in the order of the keys by code
points. A parameter that is inserted twice keeps the later value; the order of
the keys is part of the type.
-/

namespace BlockExplorer

/-- Puts a value under a key into a list that is sorted by keys. -/
def insertSorted (key value : Text) : List (Text × Text) → List (Text × Text)
  | [] => [(key, value)]
  | (k, v) :: rest =>
    if Text.Before key k then (key, value) :: (k, v) :: rest
    else if key = k then (key, value) :: rest
    else (k, v) :: insertSorted key value rest

theorem mem_insertSorted {key value : Text} {entries : List (Text × Text)} {e : Text × Text}
    (h : e ∈ insertSorted key value entries) : e = (key, value) ∨ e ∈ entries := by
  induction entries with
  | nil => simpa [insertSorted] using h
  | cons p rest ih =>
    simp only [insertSorted] at h
    split at h
    · simpa using h
    split at h
    · simp only [List.mem_cons] at h ⊢
      rcases h with h | h
      · exact .inl h
      · exact .inr (.inr h)
    · simp only [List.mem_cons] at h ⊢
      rcases h with h | h
      · exact .inr (.inl h)
      · rcases ih h with h | h
        · exact .inl h
        · exact .inr (.inr h)

/-- Inserting keeps the order of the keys. -/
theorem pairwise_insertSorted (key value : Text) {entries : List (Text × Text)}
    (h : entries.Pairwise (fun p q => Text.Before p.1 q.1)) :
    (insertSorted key value entries).Pairwise (fun p q => Text.Before p.1 q.1) := by
  induction entries with
  | nil => simp [insertSorted]
  | cons p rest ih =>
    have hp := List.pairwise_cons.mp h
    simp only [insertSorted]
    split
    · next hlt =>
      refine List.pairwise_cons.mpr ⟨fun q hq => ?_, h⟩
      rcases List.mem_cons.mp hq with rfl | hq
      · exact hlt
      · exact hlt.trans (hp.1 q hq)
    split
    · next heq =>
      -- the entry takes the place of one with the same key
      subst heq
      exact List.pairwise_cons.mpr hp
    · next hnlt hne =>
      refine List.pairwise_cons.mpr ⟨fun q hq => ?_, ih hp.2⟩
      rcases mem_insertSorted hq with rfl | hq
      · exact Text.before_of_not_before hnlt hne
      · exact hp.1 q hq

/-- Parameters, sorted by key, with no key twice. -/
structure Params where
  entries : List (Text × Text)
  sorted : entries.Pairwise (fun p q => Text.Before p.1 q.1)
  deriving DecidableEq

namespace Params

def empty : Params := ⟨[], .nil⟩

/-- Sets the value of a key. -/
def insert (key value : Text) (params : Params) : Params :=
  ⟨insertSorted key value params.entries, pairwise_insertSorted key value params.sorted⟩

def keys (params : Params) : List Text :=
  params.entries.map (·.1)

/-- The value of a key. -/
def get? (params : Params) (key : Text) : Option Text :=
  params.entries.lookup key

end Params

end BlockExplorer
