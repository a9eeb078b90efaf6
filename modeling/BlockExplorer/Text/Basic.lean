/-!
# BlockExplorer — text

A text is a list of Unicode scalar values. This module holds the operations on
texts that every other part shares.

* Cutting a text at separators and joining the pieces again. A cut never loses a
  character other than the separators, which `join_split` states.
* Putting a text of unknown content on one line, cut to a length, before it is
  shown in a log.
* The order of texts by their code points: at the first difference the smaller
  code point comes first, and a text comes before every longer text that starts
  with it. `Text.Before` is a strict total order.
-/

namespace BlockExplorer

/-- A text, as the list of its characters. -/
abbrev Text := List Char

namespace Text

-- ---------------------------------------------------------------------------
-- Pieces
-- ---------------------------------------------------------------------------

/-- The piece before the first separator, and the pieces after it. -/
def pieces (isSeparator : Char → Bool) : Text → Text × List Text
  | [] => ([], [])
  | c :: cs =>
    let (first, others) := pieces isSeparator cs
    if isSeparator c then ([], first :: others) else (c :: first, others)

/-- The pieces of a text between separators: one more than there are separators. -/
def split (isSeparator : Char → Bool) (t : Text) : List Text :=
  (pieces isSeparator t).1 :: (pieces isSeparator t).2

/-- Puts `separator` between the pieces. -/
def join (separator : Text) : List Text → Text
  | [] => []
  | [t] => t
  | t :: u :: us => t ++ separator ++ join separator (u :: us)

/-- Removes one leading `mark`, if there is one. -/
def dropMark? (mark : Text) (t : Text) : Option Text :=
  if mark.isPrefixOf t then some (t.drop mark.length) else none

/-- Behind the first piece each has a separator before it. -/
theorem join_cons (separator t : Text) (us : List Text) :
    join separator (t :: us) = t ++ us.flatMap (separator ++ ·) := by
  induction us generalizing t with
  | nil => simp [join]
  | cons u us ih => simp [join, ih]

/-- Splitting at a character and joining with it gives the text back. -/
theorem join_split (c : Char) (t : Text) : join [c] (split (· = c) t) = t := by
  induction t with
  | nil => simp [split, pieces, join]
  | cons d t ih =>
    rw [split, join_cons] at ih
    by_cases h : d = c <;> simp_all [split, pieces, join_cons]

-- ---------------------------------------------------------------------------
-- One line
-- ---------------------------------------------------------------------------

/-- The text with a blank for every line feed and carriage return. -/
def flat (t : Text) : Text :=
  t.map fun c => if c = '\n' ∨ c = '\r' then ' ' else c

/-- At most `limit` characters of the flat text, with dots in place of the rest. -/
def oneLine (limit : Nat) (t : Text) : Text :=
  (flat t).take limit ++ if limit < t.length then ['.', '.', '.'] else []

-- ---------------------------------------------------------------------------
-- Order
-- ---------------------------------------------------------------------------

/-- The first text comes before the second by code points. -/
def Before (t u : Text) : Prop :=
  List.Lex (fun c d : Char => c.toNat < d.toNat) t u

instance : DecidableRel Before := fun t u =>
  inferInstanceAs (Decidable (List.Lex (fun c d : Char => c.toNat < d.toNat) t u))

theorem not_before_self (t : Text) : ¬ Before t t :=
  List.lex_irrefl (fun c : Char => Nat.lt_irrefl c.toNat) t

theorem Before.trans {t u v : Text} (htu : Before t u) (huv : Before u v) : Before t v :=
  List.lex_trans (fun h₁ h₂ => Nat.lt_trans h₁ h₂) htu huv

/-- Of two texts that differ, one comes before the other. -/
theorem before_of_not_before {t u : Text} (h : ¬ Before t u) (hne : t ≠ u) : Before u t := by
  induction t generalizing u with
  | nil =>
    cases u with
    | nil => exact absurd rfl hne
    | cons d u => exact absurd .nil h
  | cons c t ih =>
    cases u with
    | nil => exact .nil
    | cons d u =>
      by_cases hcd : c = d
      · subst hcd
        exact .cons (ih (fun h' => h (.cons h')) (fun h' => hne (h' ▸ rfl)))
      · refine .rel (Nat.lt_of_le_of_ne (Nat.le_of_not_lt fun hlt => h (.rel hlt)) ?_)
        exact fun heq => hcd (Char.toNat_inj.mp heq).symm

end Text

end BlockExplorer
