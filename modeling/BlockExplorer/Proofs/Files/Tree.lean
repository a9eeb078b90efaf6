import BlockExplorer.Files.Tree
import BlockExplorer.Proofs.Except

/-!
# BlockExplorer — what is written to a file

A file that is written to is found again by the same path, with the new bytes at
its end. That the path still leads to it is not a matter of course, since a path
is walked through the tree, and the tree has changed. But a walk only goes on
from directories, and what was written is a file: no walk that came to its place
before could have gone on from there, and so the walk stands on the same places
as before (`walk_put`).

Main result:

* `read_append` — a file has the bytes that were appended at its end.
-/

namespace BlockExplorer.Tree

variable {tree tree' : Tree} {place other : Place} {path : Text}

-- ---------------------------------------------------------------------------
-- One place
-- ---------------------------------------------------------------------------

/-- Leaving out the entry of one place does not change what is found at another. -/
theorem lookup_filter_ne {entries : List (Place × Entry)} (h : other ≠ place) :
    (entries.filter (·.1 ≠ place)).lookup other = entries.lookup other := by
  induction entries with
  | nil => rfl
  | cons entry entries ih =>
    obtain ⟨first, e⟩ := entry
    by_cases hfirst : first = place
    · have hother : other ≠ first := hfirst ▸ h
      rw [List.filter_cons_of_neg (by simpa using hfirst), ih, List.lookup_cons,
        beq_false_of_ne hother]
    · rw [List.filter_cons_of_pos (by simpa using hfirst), List.lookup_cons, List.lookup_cons, ih]

theorem find?_put_self (hplace : place ≠ []) (tree : Tree) (entry : Entry) :
    (tree.put place entry).find? place = some entry := by
  simp [find?, put, hplace]

/-- All other places hold what they held. -/
theorem find?_put_of_ne (h : other ≠ place) (tree : Tree) (entry : Entry) :
    (tree.put place entry).find? other = tree.find? other := by
  unfold find? put
  rw [List.lookup_cons, beq_false_of_ne h]
  exact congrArg (if other = [] then some .directory else ·) (lookup_filter_ne h)

-- ---------------------------------------------------------------------------
-- Walks
-- ---------------------------------------------------------------------------

variable (hplace : tree.find? place ≠ some .directory)
include hplace

/-- A step starts from a directory, and so from another place. -/
theorem step_put {start next : Place} {part : Text} (h : tree.step start part = .ok next)
    (entry : Entry) : (tree.put place entry).step start part = .ok next := by
  have hne : start ≠ place := by
    rintro rfl
    unfold step at h
    split at h
    · cases h
    · cases h
    · next hdirectory => exact hplace hdirectory
  rw [← h]
  unfold step
  rw [find?_put_of_ne hne]

/-- **What is put where no directory stands is in no walk's way.** -/
theorem walk_put {start last : Place} {parts : List Text} (h : tree.walk start parts = .ok last)
    (entry : Entry) : (tree.put place entry).walk start parts = .ok last := by
  unfold walk at h ⊢
  induction parts generalizing start with
  | nil => exact h
  | cons part parts ih =>
    rw [List.foldlM_cons] at h ⊢
    obtain ⟨next, hstep, hrest⟩ := exceptBind_eq_ok_iff.mp h
    rw [step_put hplace hstep]
    exact ih hrest

/-- A path leads to the same place as before. -/
theorem resolve_put {last : Place} (h : tree.resolve path = .ok last) (entry : Entry) :
    (tree.put place entry).resolve path = .ok last := by
  unfold resolve at h ⊢
  split at h
  · cases h
  · exact walk_put hplace h entry

-- ---------------------------------------------------------------------------
-- Files
-- ---------------------------------------------------------------------------

/-- Bytes are appended to what the path leads to, and to nothing if there is nothing. -/
theorem append_eq_ok (hpath : tree.resolve path = .ok place) (bytes : List UInt8) :
    tree.append path bytes =
      .ok (tree.put place (.file ((tree.read path).toOption.getD [] ++ bytes))) := by
  unfold append read get
  rw [hpath]
  cases hfind : tree.find? place with
  | none =>
    simp only [bind, Except.bind, hfind]
    rfl
  | some entry =>
    cases entry with
    | file content =>
      simp only [bind, Except.bind, hfind]
      rfl
    | directory => exact absurd hfind hplace

/-- **What is appended to a file is read back**, behind what was in the file. The path may lead
anywhere but to a directory. -/
theorem read_append (hpath : tree.resolve path = .ok place) {bytes : List UInt8}
    (h : tree.append path bytes = .ok tree') :
    tree'.read path = .ok ((tree.read path).toOption.getD [] ++ bytes) := by
  rw [append_eq_ok hplace hpath, Except.ok.injEq] at h
  have hne : place ≠ [] := by
    rintro rfl
    exact hplace rfl
  subst h
  unfold read get
  rw [resolve_put hplace hpath]
  simp only [bind, Except.bind, find?_put_self hne]
  rfl

end BlockExplorer.Tree
