import BlockExplorer.Text.Basic

/-!
# BlockExplorer — cutting texts at separators

What `Text.split` does to a text that is put together from parts: a separator
between two parts cuts there (`split_append_cons`), a part without separators
stays in one piece (`split_append_of_notMem`, `split_eq_singleton`), no piece
holds a separator (`notMem_of_mem_split`), and there is one piece more than there
are separators (`length_split`). So splitting undoes joining (`split_join`).
-/

namespace BlockExplorer.Text

variable {isSeparator : Char → Bool}

theorem split_cons_of_separator {c : Char} (hc : isSeparator c = true) (t : Text) :
    split isSeparator (c :: t) = [] :: split isSeparator t := by
  simp [split, pieces, hc]

/-- A character that is no separator goes to the front of the first piece. -/
theorem split_cons_of_not {c : Char} (hc : isSeparator c = false) (t : Text) :
    split isSeparator (c :: t) =
      (c :: (pieces isSeparator t).1) :: (pieces isSeparator t).2 := by
  simp [split, pieces, hc]

/-- **A separator cuts**: what stands before it and what follows it are cut on their own. -/
theorem split_append_cons {c : Char} (hc : isSeparator c = true) (t u : Text) :
    split isSeparator (t ++ c :: u) = split isSeparator t ++ split isSeparator u := by
  induction t with
  | nil =>
    rw [List.nil_append, split_cons_of_separator hc]
    rfl
  | cons d t ih =>
    rw [List.cons_append]
    cases hd : isSeparator d with
    | true =>
      rw [split_cons_of_separator hd, split_cons_of_separator hd, ih]
      rfl
    | false =>
      -- the first piece grows by `d`, the others are those of the rest
      rw [split, split, List.cons_append, List.cons.injEq] at ih
      rw [split_cons_of_not hd, split_cons_of_not hd, ih.1, ih.2]
      rfl

/-- A text without separators is one piece. -/
theorem split_eq_singleton {t : Text} (h : ∀ c ∈ t, isSeparator c = false) :
    split isSeparator t = [t] := by
  induction t with
  | nil => rfl
  | cons c t ih =>
    have hrest := ih fun d hd => h d (List.mem_cons_of_mem _ hd)
    rw [split, List.cons.injEq] at hrest
    rw [split_cons_of_not (h c (List.mem_cons_self ..)), hrest.1, hrest.2]

theorem split_eq_singleton_of_notMem {sep : Char} {t : Text} (h : sep ∉ t) :
    split (· = sep) t = [t] := by
  refine split_eq_singleton fun c hc => decide_eq_false ?_
  rintro rfl
  exact h hc

/-- A part without separators goes to the front of the first piece. -/
theorem split_append_of_notMem {sep : Char} {t : Text} (h : sep ∉ t) (u : Text) :
    split (· = sep) (t ++ u) =
      (t ++ (pieces (· = sep) u).1) :: (pieces (· = sep) u).2 := by
  induction t with
  | nil => rfl
  | cons c t ih =>
    have hc : c ≠ sep := fun heq => h (heq ▸ List.mem_cons_self ..)
    have hrest := ih fun hmem => h (List.mem_cons_of_mem _ hmem)
    rw [split, List.cons.injEq] at hrest
    rw [List.cons_append, split_cons_of_not (decide_eq_false hc), hrest.1, hrest.2]
    rfl

/-- **Splitting undoes joining** when no piece holds the separator. -/
theorem split_join {sep : Char} {t : Text} {us : List Text} (h : ∀ u ∈ t :: us, sep ∉ u) :
    split (· = sep) (join [sep] (t :: us)) = t :: us := by
  induction us generalizing t with
  | nil => exact split_eq_singleton_of_notMem (h t (List.mem_singleton_self t))
  | cons u us ih =>
    rw [join, List.append_assoc, List.singleton_append, split_append_cons (decide_eq_true rfl),
      split_eq_singleton_of_notMem (h t (List.mem_cons_self ..)),
      ih fun v hv => h v (List.mem_cons_of_mem _ hv)]
    rfl

/-- No piece holds a separator. -/
theorem notMem_of_mem_split {sep : Char} {t u : Text} (h : u ∈ split (· = sep) t) : sep ∉ u := by
  induction t generalizing u with
  | nil =>
    rw [List.mem_singleton.mp h]
    exact List.not_mem_nil
  | cons c t ih =>
    by_cases hc : c = sep
    · rw [split_cons_of_separator (decide_eq_true hc), List.mem_cons] at h
      rcases h with rfl | h
      · exact List.not_mem_nil
      · exact ih h
    · rw [split_cons_of_not (decide_eq_false hc), List.mem_cons] at h
      rcases h with rfl | h
      · -- the first piece grew by `c`
        exact List.not_mem_cons_of_ne_of_not_mem (Ne.symm hc) (ih (List.mem_cons_self ..))
      · exact ih (List.mem_cons_of_mem _ h)

/-- There is one piece more than there are separators. -/
theorem length_split (isSeparator : Char → Bool) (t : Text) :
    (split isSeparator t).length = t.countP isSeparator + 1 := by
  induction t with
  | nil => rfl
  | cons c t ih =>
    cases hc : isSeparator c with
    | true =>
      rw [split_cons_of_separator hc, List.length_cons, ih, List.countP_cons_of_pos hc]
    | false =>
      rw [split_cons_of_not hc, List.countP_cons_of_neg (by simp [hc]), ← ih]
      rfl

end BlockExplorer.Text
