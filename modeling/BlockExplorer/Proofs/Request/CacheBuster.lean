import Mathlib.Data.List.TakeWhile
import BlockExplorer.Request.Url

/-!
# BlockExplorer — addresses without their cache-busters

Cache-busters are removed from the address as a whole, before it is cut into
parameters. What keeps the removal inside single parameters is that a
cache-buster holds no `&` but its first character, and no `?` at all: such a
character ends what stands before it (`stripCacheBusters_append_cons`), so that
a parameter behind it is left alone whatever its value is. The query is looked
for in what is left, and the parameter either stands in it or lies before it.

Main results:

* `stripCacheBusters_append_cons` — what stands before a character that no
  cache-buster can run over is cleaned on its own.
* `stripCacheBusters_parameter` — cleaning passes over a parameter that is no
  cache-buster, and goes on behind it.
* `keeps_or_cuts` — whether a parameter stands in the query, and what stands
  around it there, does not depend on the parameter.
-/

namespace BlockExplorer.Url

-- ---------------------------------------------------------------------------
-- One cache-buster
-- ---------------------------------------------------------------------------

/-- No cache-buster runs over the character: it can only be the first of one. -/
def EndsBuster (c : Char) : Prop :=
  c ∉ busterMark.tail ∧ isBusterDigit c = false

theorem endsBuster_ampersand : EndsBuster '&' := ⟨by decide, by decide⟩

theorem endsBuster_questionMark : EndsBuster '?' := ⟨by decide, by decide⟩

/-- No cache-buster begins where its mark does not. -/
theorem busterLength_eq_zero {t : Text} (h : ¬ busterMark <+: t) : busterLength t = 0 := by
  have hmark : ¬ busterMark.isPrefixOf t = true := by
    rwa [List.isPrefixOf_iff_prefix]
  rw [busterLength, Text.dropMark?, if_neg hmark]

theorem busterLength_cons_of_ne {c : Char} (h : c ≠ '&') (t : Text) :
    busterLength (c :: t) = 0 :=
  busterLength_eq_zero fun hprefix => h (List.cons_prefix_cons.mp hprefix).1.symm

theorem busterLength_le_length (t : Text) : busterLength t ≤ t.length := by
  unfold busterLength
  split
  · exact Nat.zero_le _
  · next rest hdrop =>
    unfold Text.dropMark? at hdrop
    split at hdrop
    · next hmark =>
      have hlen := (List.isPrefixOf_iff_prefix.mp hmark).length_le
      have htake := (List.takeWhile_sublist isBusterDigit (l := rest)).length_le
      cases hdrop
      rw [List.length_drop] at htake
      split <;> omega
    · cases hdrop

/-- A mark does not run over a character that can only be its first. -/
theorem busterMark_prefix_append_cons {c : Char} (hc : c ∉ busterMark.tail) {t : Text}
    (ht : t ≠ []) (u : Text) : busterMark <+: t ++ c :: u ↔ busterMark <+: t := by
  constructor
  · intro h
    rcases Nat.lt_or_ge t.length busterMark.length with hlt | hge
    · -- the mark would run over `c` behind its first character
      exfalso
      have hfront : t ++ [c] <+: t ++ c :: u :=
        ⟨u, by rw [List.append_assoc, List.singleton_append]⟩
      have hlen : (t ++ [c]).length ≤ busterMark.length := by
        rw [List.length_append, List.length_singleton]
        omega
      obtain ⟨rest, hrest⟩ := List.prefix_of_prefix_length_le hfront h hlen
      apply hc
      rw [← hrest, List.append_assoc, List.tail_append_of_ne_nil ht]
      simp
    · exact List.prefix_of_prefix_length_le h (List.prefix_append t _) hge
  · intro h
    exact h.trans (List.prefix_append t _)

theorem dropMark?_append_cons {c : Char} (hc : c ∉ busterMark.tail) {t : Text} (ht : t ≠ [])
    (u : Text) :
    Text.dropMark? busterMark (t ++ c :: u) =
      (Text.dropMark? busterMark t).map (· ++ c :: u) := by
  unfold Text.dropMark?
  simp only [List.isPrefixOf_iff_prefix, busterMark_prefix_append_cons hc ht]
  split
  · next hmark =>
    rw [List.drop_append_of_le_length hmark.length_le]
    rfl
  · rfl

/-- Whether a cache-buster begins, and where it ends, is decided before such a character. -/
theorem busterLength_append_cons {c : Char} (hc : EndsBuster c) {t : Text} (ht : t ≠ [])
    (u : Text) : busterLength (t ++ c :: u) = busterLength t := by
  rw [busterLength, busterLength, dropMark?_append_cons hc.1 ht]
  cases Text.dropMark? busterMark t with
  | none => rfl
  | some rest =>
    have htake : (rest ++ c :: u).takeWhile isBusterDigit = rest.takeWhile isBusterDigit := by
      rw [List.takeWhile_append, List.takeWhile_cons, hc.2]
      -- the number may run up to the character, and stops there
      split
      · next hall =>
        rw [if_neg Bool.false_ne_true, List.append_nil]
        exact ((List.takeWhile_prefix isBusterDigit).eq_of_length hall).symm
      · rfl
    simp only [Option.map_some, htake]

-- ---------------------------------------------------------------------------
-- Cleaning an address
-- ---------------------------------------------------------------------------

theorem stripCacheBusters_cons_of_ne {c : Char} (h : c ≠ '&') (t : Text) :
    stripCacheBusters (c :: t) = c :: stripCacheBusters t := by
  rw [stripCacheBusters, busterLength_cons_of_ne h]

/-- **A character that no cache-buster runs over divides the work.** The induction is on the
cleaning of what stands before it. -/
theorem stripCacheBusters_append_cons {c : Char} (hc : EndsBuster c) (t u : Text) :
    stripCacheBusters (t ++ c :: u) = stripCacheBusters t ++ stripCacheBusters (c :: u) := by
  fun_induction stripCacheBusters t with
  | case1 => rfl
  | case2 d t hzero ih =>
    have hlen := busterLength_append_cons hc (List.cons_ne_nil d t) u
    rw [hzero, List.cons_append] at hlen
    rw [List.cons_append, stripCacheBusters, hlen]
    exact congrArg (d :: ·) ih
  -- the cache-buster that goes away lies before the character
  | case3 d t n hsucc ih =>
    have hlen := busterLength_append_cons hc (List.cons_ne_nil d t) u
    have hle := busterLength_le_length (d :: t)
    rw [hsucc, List.length_cons] at hle
    rw [hsucc, List.cons_append] at hlen
    rw [List.cons_append, stripCacheBusters, hlen]
    show stripCacheBusters ((t ++ c :: u).drop n) = _
    rw [List.drop_append_of_le_length (by omega), ih]

/-- A character that no cache-buster runs over stays when it is the last one. -/
theorem stripCacheBusters_concat {c : Char} (hc : EndsBuster c) (t : Text) :
    stripCacheBusters (t ++ [c]) = stripCacheBusters t ++ [c] := by
  -- one character is too short for a mark
  have hshort : ¬ busterMark <+: [c] := by
    intro h
    have hmark : busterMark.length = 8 := by decide
    have hlen := h.length_le
    rw [hmark, List.length_singleton] at hlen
    omega
  rw [stripCacheBusters_append_cons hc, stripCacheBusters, busterLength_eq_zero hshort,
    stripCacheBusters]

/-- A part without `&` stays as it is. -/
theorem stripCacheBusters_append_of_notMem {t : Text} (h : '&' ∉ t) (u : Text) :
    stripCacheBusters (t ++ u) = t ++ stripCacheBusters u := by
  induction t with
  | nil => rfl
  | cons c t ih =>
    have hc : c ≠ '&' := fun heq => h (heq ▸ List.mem_cons_self ..)
    rw [List.cons_append, stripCacheBusters_cons_of_ne hc,
      ih fun hmem => h (List.mem_cons_of_mem _ hmem)]
    rfl

/-- Cleaning only ever removes characters. -/
theorem stripCacheBusters_sublist (t : Text) : (stripCacheBusters t).Sublist t := by
  fun_induction stripCacheBusters t with
  | case1 => exact List.Sublist.refl []
  | case2 c t _ ih => exact ih.cons_cons c
  | case3 c t n _ ih => exact (ih.trans (List.drop_sublist n t)).cons c

-- ---------------------------------------------------------------------------
-- A parameter inside an address
-- ---------------------------------------------------------------------------

/-- A parameter can begin behind this part of an address: at its start, behind an `&`, or behind
the first question mark. -/
inductive OpensParameter : Text → Prop where
  | start : OpensParameter []
  | ampersand (t : Text) : OpensParameter (t ++ ['&'])
  | questionMark {t : Text} (h : '?' ∉ t) : OpensParameter (t ++ ['?'])

/-- The key of a parameter that a cache-buster could be taken for. -/
def busterKey : Text := "random".toList

/-- A parameter with another key does not begin as a cache-buster. -/
theorem not_busterMark_prefix_parameter {key : Text} (hkey : '=' ∉ key) (hne : key ≠ busterKey)
    (u : Text) : ¬ busterMark <+: '&' :: (key ++ '=' :: u) := by
  rintro ⟨rest, hrest⟩
  have heq : busterKey ++ '=' :: rest = key ++ '=' :: u := (List.cons.inj hrest).2
  -- the longer of the two keys would hold the `=` behind the shorter one
  rcases List.append_eq_append_iff.mp heq with ⟨more, hmore, htail⟩ | ⟨more, hmore, htail⟩
  · cases more with
    | nil => exact hne (by rw [hmore, List.append_nil])
    | cons c more =>
      obtain ⟨rfl, -⟩ := List.cons.inj htail
      exact hkey (by simp [hmore])
  · cases more with
    | nil => exact hne (by rw [hmore, List.append_nil])
    | cons c more =>
      obtain ⟨rfl, -⟩ := List.cons.inj htail
      have hmem : '=' ∈ busterKey := by simp [hmore]
      exact absurd hmem (by decide)

/-- The `&` before a parameter with another key stays. -/
theorem stripCacheBusters_ampersand {key : Text} (hkey : '=' ∉ key) (hne : key ≠ busterKey)
    (u : Text) :
    stripCacheBusters ('&' :: (key ++ '=' :: u)) = '&' :: stripCacheBusters (key ++ '=' :: u) := by
  rw [stripCacheBusters, busterLength_eq_zero (not_busterMark_prefix_parameter hkey hne u)]

/-- **Cleaning passes over a parameter** that is no cache-buster: nothing of it goes away, and
what stands before it and behind it is cleaned on its own. -/
theorem stripCacheBusters_parameter {before key value : Text} (hbefore : OpensParameter before)
    (hkey : '&' ∉ key ∧ '=' ∉ key) (hne : key ≠ busterKey) (hvalue : '&' ∉ value)
    (after : Text) :
    stripCacheBusters (before ++ (key ++ '=' :: value) ++ after) =
      stripCacheBusters before ++ (key ++ '=' :: value) ++ stripCacheBusters after := by
  have hfree : '&' ∉ key ++ '=' :: value := by
    simp [hkey.1, hvalue]
  have hpast := stripCacheBusters_append_of_notMem hfree after
  cases hbefore with
  | start =>
    rw [List.nil_append, hpast, stripCacheBusters, List.nil_append]
  | ampersand t =>
    -- the `&` could begin a cache-buster, were it not for the key
    have hamp : stripCacheBusters ('&' :: (key ++ '=' :: value ++ after)) =
        '&' :: (key ++ '=' :: value ++ stripCacheBusters after) := by
      rw [List.append_assoc, List.cons_append, stripCacheBusters_ampersand hkey.2 hne,
        ← List.cons_append, ← List.append_assoc, hpast]
    rw [List.append_assoc, List.append_assoc, List.singleton_append,
      stripCacheBusters_append_cons endsBuster_ampersand, hamp,
      stripCacheBusters_concat endsBuster_ampersand]
    simp
  | @questionMark t h =>
    rw [List.append_assoc, List.append_assoc, List.singleton_append,
      stripCacheBusters_append_cons endsBuster_questionMark,
      stripCacheBusters_cons_of_ne (by decide), hpast,
      stripCacheBusters_concat endsBuster_questionMark]
    simp

-- ---------------------------------------------------------------------------
-- The query of an address
-- ---------------------------------------------------------------------------

theorem queryPart_append_cons {t : Text} (h : '?' ∉ t) (u : Text) :
    queryPart (t ++ '?' :: u) = u := by
  have hdrop : (t ++ '?' :: u).dropWhile (· ≠ '?') = '?' :: u := by
    rw [List.dropWhile_append_of_pos]
    · rfl
    · intro c hc
      exact decide_eq_true fun heq => h (heq ▸ hc)
  rw [queryPart, hdrop]

theorem queryPart_eq_self {t : Text} (h : '?' ∉ t) : queryPart t = t := by
  have hdrop : t.dropWhile (· ≠ '?') = [] := by
    rw [List.dropWhile_eq_nil_iff]
    intro c hc
    exact decide_eq_true fun heq => h (heq ▸ hc)
  rw [queryPart, hdrop]

/-- Where a parameter can begin, it can begin after cleaning. -/
theorem opensParameter_stripCacheBusters {t : Text} (h : OpensParameter t) :
    OpensParameter (stripCacheBusters t) := by
  cases h with
  | start =>
    rw [stripCacheBusters]
    exact .start
  | ampersand t =>
    rw [stripCacheBusters_concat endsBuster_ampersand]
    exact .ampersand _
  | questionMark h =>
    rw [stripCacheBusters_concat endsBuster_questionMark]
    exact .questionMark fun hmem => h ((stripCacheBusters_sublist _).mem hmem)

/-- A parameter can begin behind this part of a query: at its start or behind an `&`. -/
def OpensPiece (front : Text) : Prop :=
  front = [] ∨ ∃ t, front = t ++ ['&']

/-- A parameter between the two parts of an address stands in the query, behind a part that does
not depend on it. -/
def KeepsParameter (before after : Text) : Prop :=
  ∃ front, OpensPiece front ∧ ∀ parameter, '?' ∉ parameter →
    queryPart (before ++ parameter ++ after) = front ++ parameter ++ after

/-- The query lies behind the parameter. -/
def CutsParameter (before after : Text) : Prop :=
  ∃ query, ∀ parameter, '?' ∉ parameter → queryPart (before ++ parameter ++ after) = query

/-- Without a question mark before the parameter, the query lies behind it, or is the text from its
start. -/
theorem keeps_or_cuts_of_notMem {before : Text} (hfree : '?' ∉ before)
    (hopens : OpensPiece before) (after : Text) :
    KeepsParameter before after ∨ CutsParameter before after := by
  by_cases hafter : '?' ∈ after
  · -- a question mark behind the parameter is the first one of the address
    right
    obtain ⟨u, query, rfl, hu⟩ := List.eq_append_cons_of_mem hafter
    refine ⟨query, fun parameter hparameter => ?_⟩
    rw [← List.append_assoc]
    exact queryPart_append_cons (by simp [hfree, hparameter, hu]) query
  · left
    refine ⟨before, hopens, fun parameter hparameter => ?_⟩
    exact queryPart_eq_self (by simp [hfree, hparameter, hafter])

/-- **Where a parameter of an address ends up.** It stands in the query, or all of the query lies
behind it; which of the two, and what stands around it, does not depend on the parameter. -/
theorem keeps_or_cuts {before : Text} (hbefore : OpensParameter before) (after : Text) :
    KeepsParameter before after ∨ CutsParameter before after := by
  cases hbefore with
  | start => exact keeps_or_cuts_of_notMem List.not_mem_nil (.inl rfl) after
  | ampersand t =>
    by_cases ht : '?' ∈ t
    · left
      obtain ⟨u, front, rfl, hu⟩ := List.eq_append_cons_of_mem ht
      refine ⟨front ++ ['&'], .inr ⟨front, rfl⟩, fun parameter _ => ?_⟩
      rw [← queryPart_append_cons hu (front ++ ['&'] ++ parameter ++ after)]
      simp
    · exact keeps_or_cuts_of_notMem (by simp [ht]) (.inr ⟨t, rfl⟩) after
  | @questionMark t ht =>
    left
    refine ⟨[], .inl rfl, fun parameter _ => ?_⟩
    rw [← queryPart_append_cons ht ([] ++ parameter ++ after)]
    simp

end BlockExplorer.Url
