import Mathlib.Data.List.Forall2

/-!
# BlockExplorer — results that may be errors

When a computation in `Except` succeeds, and with which error it fails, by its
parts. Of a list that is gone through in order (`mapM`), a result takes every
element, and an error is that of the first element at fault.
-/

namespace BlockExplorer

variable {ε ε' α β : Type}

/-- A result of `map` comes from a result. -/
theorem exceptMap_eq_ok_iff {f : α → β} {x : Except ε α} {b : β} :
    x.map f = .ok b ↔ ∃ a, x = .ok a ∧ f a = b := by
  cases x <;> simp [Except.map]

/-- An error passes through `map` as it is. -/
theorem exceptMap_eq_error_iff {f : α → β} {x : Except ε α} {e : ε} :
    x.map f = .error e ↔ x = .error e := by
  cases x <;> simp [Except.map]

/-- A result passes through `mapError` as it is. -/
theorem exceptMapError_eq_ok_iff {f : ε → ε'} {x : Except ε α} {a : α} :
    x.mapError f = .ok a ↔ x = .ok a := by
  cases x with
  | ok b => simp [Except.mapError]
  | error e => exact iff_of_false (nomatch ·) (nomatch ·)

/-- Changing the result and changing the error do not meet. -/
theorem exceptMapError_map (f : α → β) (g : ε → ε') (x : Except ε α) :
    (x.map f).mapError g = (x.mapError g).map f := by
  cases x <;> rfl

/-- Two steps give a result when the first does, and the second does with what the first gave. -/
theorem exceptBind_eq_ok_iff {x : Except ε α} {f : α → Except ε β} {b : β} :
    (x >>= f) = .ok b ↔ ∃ a, x = .ok a ∧ f a = .ok b := by
  cases x with
  | ok a =>
    refine ⟨fun h => ⟨a, rfl, h⟩, ?_⟩
    rintro ⟨a', ha, h⟩
    cases ha
    exact h
  | error e =>
    refine ⟨(nomatch ·), ?_⟩
    rintro ⟨a, ha, -⟩
    cases ha

/-- A list is gone through with success when each of its elements is. -/
theorem exceptMapM_eq_ok_iff {f : α → Except ε β} {xs : List α} {ys : List β} :
    xs.mapM f = .ok ys ↔ List.Forall₂ (fun x y => f x = .ok y) xs ys := by
  induction xs generalizing ys with
  | nil =>
    rw [List.mapM_nil, List.forall₂_nil_left_iff]
    exact ⟨fun h => (Except.ok.inj h).symm, fun h => congrArg Except.ok h.symm⟩
  | cons x xs ih =>
    rw [List.mapM_cons, exceptBind_eq_ok_iff, List.forall₂_cons_left_iff]
    constructor
    · rintro ⟨y, hy, h⟩
      obtain ⟨zs, hzs, h⟩ := exceptBind_eq_ok_iff.mp h
      exact ⟨y, zs, hy, ih.mp hzs, (Except.ok.inj h).symm⟩
    · rintro ⟨y, zs, hy, hzs, rfl⟩
      exact ⟨y, hy, exceptBind_eq_ok_iff.mpr ⟨zs, ih.mpr hzs, rfl⟩⟩

/-- The error of a list is that of its first element at fault. -/
theorem exceptMapM_eq_error_iff {f : α → Except ε β} {xs : List α} {e : ε} :
    xs.mapM f = .error e ↔ ∃ front x back, xs = front ++ x :: back ∧
      (∀ y ∈ front, ∃ b, f y = .ok b) ∧ f x = .error e := by
  induction xs with
  | nil =>
    refine ⟨(nomatch ·), ?_⟩
    rintro ⟨front, x, back, hparts, -⟩
    exact absurd hparts (by simp)
  | cons x xs ih =>
    rw [List.mapM_cons]
    -- the first element decides whether the error is its own or that of another
    cases hx : f x with
    | error e' =>
      constructor
      · intro h
        cases h
        exact ⟨[], x, xs, rfl, (fun _ hy => nomatch hy), hx⟩
      · rintro ⟨front, y, back, hparts, hfront, hy⟩
        cases front with
        | nil =>
          obtain ⟨rfl, rfl⟩ := List.cons.inj hparts
          rw [← hx, hy]
          rfl
        | cons z front =>
          obtain ⟨rfl, rfl⟩ := List.cons.inj hparts
          obtain ⟨b, hb⟩ := hfront x (List.mem_cons_self ..)
          rw [hx] at hb
          cases hb
    | ok b =>
      -- the first element has a result, and so an error is that of the others
      have hothers : (xs.mapM f >>= fun bs => pure (b :: bs)) = .error e ↔
          xs.mapM f = .error e := exceptMap_eq_error_iff
      refine hothers.trans (ih.trans ?_)
      constructor
      · rintro ⟨front, y, back, rfl, hfront, hy⟩
        exact ⟨x :: front, y, back, rfl, List.forall_mem_cons.mpr ⟨⟨b, hx⟩, hfront⟩, hy⟩
      · rintro ⟨front, y, back, hparts, hfront, hy⟩
        cases front with
        | nil =>
          obtain ⟨rfl, rfl⟩ := List.cons.inj hparts
          rw [hx] at hy
          cases hy
        | cons z front =>
          obtain ⟨rfl, rfl⟩ := List.cons.inj hparts
          exact ⟨front, y, back, rfl, (List.forall_mem_cons.mp hfront).2, hy⟩

end BlockExplorer
