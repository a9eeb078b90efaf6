import BlockExplorer.Text.Basic
import Mathlib.Data.List.Forall2

/-!
# BlockExplorer — what is shown of a text on one line

A text of unknown content is shown flat, with a blank for each of its line
breaks, and a long one only up to a limit, with three dots for the rest. `Shows`
states this by what the text consists of: it fits the limit, or it is a front of
just that length with something behind it. The front is all that is looked at of
a long text, so that two texts are shown alike exactly when they have the same
flat front and lie on the same side of the limit (`oneLine_eq_oneLine_iff`).

With its dots, a text that was cut is longer than the limit again. It is cut at
the same place when it is shown once more, and the dots come back
(`oneLine_oneLine`).

Main result: `oneLine_shows_and_idempotent`.
-/

namespace BlockExplorer.Text

-- ---------------------------------------------------------------------------
-- Line breaks
-- ---------------------------------------------------------------------------

/-- The text has neither a line feed nor a carriage return. -/
def IsOneLine (t : Text) : Prop :=
  '\n' ∉ t ∧ '\r' ∉ t

instance (t : Text) : Decidable t.IsOneLine :=
  inferInstanceAs (Decidable (_ ∧ _))

/-- The line feeds and carriage returns of a text, in their order. -/
def lineBreaks (t : Text) : Text :=
  t.filter fun c => c = '\n' ∨ c = '\r'

theorem lineBreaks_eq_nil_iff {t : Text} : t.lineBreaks = [] ↔ t.IsOneLine := by
  simp only [lineBreaks, List.filter_eq_nil_iff, decide_eq_true_eq, not_or, IsOneLine]
  constructor
  · intro h
    exact ⟨fun hmem => (h _ hmem).1 rfl, fun hmem => (h _ hmem).2 rfl⟩
  · intro ⟨hfeed, hreturn⟩ c hc
    exact ⟨fun heq => hfeed (heq ▸ hc), fun heq => hreturn (heq ▸ hc)⟩

@[simp] theorem lineBreaks_append (t u : Text) :
    lineBreaks (t ++ u) = t.lineBreaks ++ u.lineBreaks :=
  List.filter_append t u

/-- A flat text has no line breaks. -/
theorem lineBreaks_flat (t : Text) : t.flat.lineBreaks = [] := by
  rw [flat, lineBreaks, List.filter_map, List.map_eq_nil_iff, List.filter_eq_nil_iff]
  intro c _
  by_cases hbreak : c = '\n' ∨ c = '\r'
  · simp [hbreak]
  · simp [hbreak]

/-- What is shown has no line breaks. -/
theorem lineBreaks_oneLine (limit : Nat) (t : Text) : (oneLine limit t).lineBreaks = [] := by
  -- a front of a flat text has no more line breaks than all of it
  have htake : lineBreaks (t.flat.take limit) = [] := by
    rw [← List.sublist_nil, ← lineBreaks_flat t]
    exact (List.take_sublist ..).filter _
  rw [oneLine, lineBreaks_append, htake]
  split <;> rfl

variable {limit : Nat} {t u : Text}

-- ---------------------------------------------------------------------------
-- The flat text
-- ---------------------------------------------------------------------------

/-- The second text has a blank for every line break of the first, and the same characters
everywhere else. -/
def Flattens : Text → Text → Prop :=
  List.Forall₂ fun c d => if c = '\n' ∨ c = '\r' then d = ' ' else d = c

/-- The flat text is determined, character by character. -/
theorem flattens_iff : Flattens t u ↔ u = flat t := by
  have hchar : (fun c d : Char => if c = '\n' ∨ c = '\r' then d = ' ' else d = c) =
      fun c d => (if c = '\n' ∨ c = '\r' then ' ' else c) = d := by
    funext c d
    split <;> exact propext eq_comm
  have hmap : Flattens t u ↔ List.Forall₂ (· = ·) t.flat u := by
    rw [Flattens, hchar, flat, List.forall₂_map_left_iff]
  rw [hmap, List.forall₂_eq_eq_eq, eq_comm]

@[simp] theorem length_flat (t : Text) : t.flat.length = t.length :=
  List.length_map _

/-- One line is flat. -/
theorem flat_eq_self (h : IsOneLine t) : t.flat = t := by
  have hkeep : ∀ c ∈ t, (if c = '\n' ∨ c = '\r' then ' ' else c) = c := by
    intro c hc
    refine if_neg ?_
    rintro (rfl | rfl)
    · exact h.1 hc
    · exact h.2 hc
  rw [flat, List.map_congr_left hkeep]
  exact List.map_id t

theorem flat_flat (t : Text) : t.flat.flat = t.flat :=
  flat_eq_self (lineBreaks_eq_nil_iff.mp (lineBreaks_flat t))

-- ---------------------------------------------------------------------------
-- The text that is shown
-- ---------------------------------------------------------------------------

/-- What is shown of a text when `limit` characters can be shown. -/
inductive Shows (limit : Nat) : Text → Text → Prop where
  /-- A text that is not too long is shown whole. -/
  | whole {t u : Text} (fits : t.length ≤ limit) (flattens : Flattens t u) : Shows limit t u
  /-- Of a longer one a front is shown that just fits, and dots for what follows. -/
  | cut {front rest u : Text} (fits : front.length = limit) (more : rest ≠ [])
      (flattens : Flattens front u) : Shows limit (front ++ rest) (u ++ ['.', '.', '.'])

/-- A text may be cut first and flattened then. -/
theorem oneLine_eq (limit : Nat) (t : Text) :
    oneLine limit t = flat (t.take limit) ++ if limit < t.length then ['.', '.', '.'] else [] := by
  rw [oneLine, flat, flat, List.map_take]

theorem oneLine_of_le (h : t.length ≤ limit) : oneLine limit t = flat t := by
  rw [oneLine_eq, List.take_of_length_le h, if_neg (Nat.not_lt.mpr h), List.append_nil]

/-- A text that does not fit is shown by its front and dots. -/
theorem oneLine_append {front rest : Text} (hfront : front.length = limit) (hrest : rest ≠ []) :
    oneLine limit (front ++ rest) = flat front ++ ['.', '.', '.'] := by
  have hlonger : limit < (front ++ rest).length := by
    have hpos := List.length_pos_of_ne_nil hrest
    rw [List.length_append]
    omega
  rw [oneLine_eq, if_pos hlonger, List.take_left' hfront]

/-- A text fits the limit, or is cut there. -/
theorem le_or_exists_front (limit : Nat) (t : Text) :
    t.length ≤ limit ∨ ∃ front rest, t = front ++ rest ∧ front.length = limit ∧ rest ≠ [] := by
  by_cases h : t.length ≤ limit
  · exact .inl h
  · refine .inr ⟨t.take limit, t.drop limit, (List.take_append_drop limit t).symm, ?_, ?_⟩
    · exact List.length_take_of_le (by omega)
    · rw [Ne, List.drop_eq_nil_iff]
      exact h

/-- What is shown is determined by the text and the limit. -/
theorem shows_iff : Shows limit t u ↔ u = oneLine limit t := by
  constructor
  · intro h
    cases h with
    | whole fits flattens => rw [oneLine_of_le fits, flattens_iff.mp flattens]
    | cut fits more flattens => rw [oneLine_append fits more, flattens_iff.mp flattens]
  · rintro rfl
    -- one case for each way to be shown
    rcases le_or_exists_front limit t with hfits | ⟨front, rest, rfl, hfront, hrest⟩
    · rw [oneLine_of_le hfits]
      exact .whole hfits (flattens_iff.mpr rfl)
    · rw [oneLine_append hfront hrest]
      exact .cut hfront hrest (flattens_iff.mpr rfl)

/-- What is shown has the length of the text up to the limit, and three for the dots. -/
theorem length_oneLine (limit : Nat) (t : Text) :
    (oneLine limit t).length = min limit t.length + if limit < t.length then 3 else 0 := by
  rw [oneLine_eq, List.length_append, length_flat, List.length_take]
  split <;> rfl

/-- What is shown of a text is too long exactly when the text was. -/
theorem lt_length_oneLine_iff : limit < (oneLine limit t).length ↔ limit < t.length := by
  rw [length_oneLine]
  split <;> omega

/-- **Two texts are shown alike** when their fronts are, and both are cut or none is. -/
theorem oneLine_eq_oneLine_iff :
    oneLine limit t = oneLine limit u ↔
      flat (t.take limit) = flat (u.take limit) ∧ (limit < t.length ↔ limit < u.length) := by
  constructor
  · intro h
    -- the dots tell on which side of the limit a text lies
    have hside : limit < t.length ↔ limit < u.length := by
      rw [← lt_length_oneLine_iff, h, lt_length_oneLine_iff]
    rw [oneLine_eq, oneLine_eq, if_congr hside rfl rfl] at h
    exact ⟨List.append_cancel_right h, hside⟩
  · rintro ⟨hfront, hside⟩
    rw [oneLine_eq, oneLine_eq, hfront, if_congr hside rfl rfl]

/-- **What is shown is shown as it is.** -/
theorem oneLine_oneLine (limit : Nat) (t : Text) :
    oneLine limit (oneLine limit t) = oneLine limit t := by
  rcases le_or_exists_front limit t with hfits | ⟨front, rest, rfl, hfront, hrest⟩
  · have hflat : t.flat.length ≤ limit := by
      rw [length_flat]
      exact hfits
    rw [oneLine_of_le hfits, oneLine_of_le hflat, flat_flat]
  · -- the front is as long as before, so that the dots are what is cut off
    have hflat : front.flat.length = limit := by
      rw [length_flat, hfront]
    rw [oneLine_append hfront hrest, oneLine_append hflat (List.cons_ne_nil _ _), flat_flat]

/-- **A text on one line**, for every limit: the flat text, or its front and dots. It has no line
breaks and at most three characters more than the limit, says no more of the text than its front
and that it was cut, and stays as it is when it is put on one line again. -/
theorem oneLine_shows_and_idempotent (limit : Nat) (t : Text) :
    (∀ u, oneLine limit t = u ↔ Shows limit t u) ∧
      IsOneLine (oneLine limit t) ∧
      (oneLine limit t).length ≤ limit + 3 ∧
      (∀ u, oneLine limit t = oneLine limit u ↔
        flat (t.take limit) = flat (u.take limit) ∧ (limit < t.length ↔ limit < u.length)) ∧
      oneLine limit (oneLine limit t) = oneLine limit t := by
  refine ⟨fun u => ?_, ?_, ?_, fun u => oneLine_eq_oneLine_iff, oneLine_oneLine limit t⟩
  · rw [shows_iff, eq_comm]
  · exact lineBreaks_eq_nil_iff.mp (lineBreaks_oneLine limit t)
  · rw [length_oneLine]
    split <;> omega

/-- A text that is cut behind a line break, and the same again. -/
example : oneLine 4 "a\nb\rcd".toList = "a b ...".toList ∧
    oneLine 4 "a b ...".toList = "a b ...".toList := by
  decide

end BlockExplorer.Text
