import Mathlib.Data.List.Forall2
import BlockExplorer.Proofs.Request.Pairs

/-!
# BlockExplorer — secrets do not show

Two queries that differ only in the values of keys on the list of secrets are
read alike: the parameters are the same, or the error is the same with its key
and offset, and the same events are reported. The difference is followed through
the stages of reading: pieces that differ in a secret give pairs that differ in
it (`samePair_of_samePiece`), such a pair is shown alike
(`shownValue_eq_of_samePair`), and so every step of collecting the pairs does the
same to the parameters that were read so far (`collect_eq_of_samePairs`).

Main result:

* `parse_eq_of_sameButSecrets` — reading a query does not depend on its secrets.
-/

namespace BlockExplorer.Query

-- ---------------------------------------------------------------------------
-- Queries that differ in secrets
-- ---------------------------------------------------------------------------

/-- Two pieces are the same, or they give two values to one key on the list. That a value holds no
`&` goes without saying, since it stands in a piece. -/
inductive SamePiece (redacted : List Text) : Text → Text → Prop where
  | same (piece : Text) : SamePiece redacted piece piece
  | secret {key v w : Text} (hkey : key ∈ redacted) (hv : '=' ∉ v) (hw : '=' ∉ w) :
      SamePiece redacted (key ++ '=' :: v) (key ++ '=' :: w)

/-- Two queries have the same number of pieces, and at each place the same piece but for a
secret. -/
def SameButSecrets (redacted : List Text) (q q' : Text) : Prop :=
  List.Forall₂ (SamePiece redacted) (Text.split (· = '&') q) (Text.split (· = '&') q')

/-- Two pairs have one key, and one value unless the key is on the list. -/
def SamePair (redacted : List Text) (p p' : Text × Text) : Prop :=
  p.1 = p'.1 ∧ (p.1 ∈ redacted ∨ p.2 = p'.2)

section Secrets

variable {redacted : List Text}

/-- Pieces that differ in a secret are pairs that differ in it, or neither is a pair. -/
theorem samePair_of_samePiece {piece piece' : Text} (h : SamePiece redacted piece piece') :
    Option.Rel (SamePair redacted) (pair? piece) (pair? piece') := by
  cases h with
  | same piece =>
    cases pair? piece with
    | none => exact .none
    | some p => exact .some ⟨rfl, .inr rfl⟩
  | @secret key v w hkey hv hw =>
    -- whether there is a pair at all is decided by the key alone
    rw [pair?_append_cons key hv, pair?_append_cons key hw]
    split
    · exact .none
    · exact .some ⟨rfl, .inl hkey⟩

theorem samePairs_of_sameButSecrets {q q' : Text} (h : SameButSecrets redacted q q') :
    List.Forall₂ (SamePair redacted) (pairs q) (pairs q') :=
  List.rel_filterMap (fun _ _ hpiece => samePair_of_samePiece hpiece) h

theorem samePairs_refl (ps : List (Text × Text)) : List.Forall₂ (SamePair redacted) ps ps :=
  List.forall₂_same.mpr fun p _ => show SamePair redacted p p from ⟨rfl, .inr rfl⟩

/-- A pair with a key on the list is the same whatever its value is, also when more text follows
the value in its piece. -/
theorem samePair_of_secret {key v w : Text} (hkey : key ∈ redacted) (hfree : '=' ∉ key)
    (hv : '=' ∉ v) (hw : '=' ∉ w) (more : Text) :
    Option.Rel (SamePair redacted) (pair? (key ++ '=' :: (v ++ more)))
      (pair? (key ++ '=' :: (w ++ more))) := by
  by_cases hmore : '=' ∈ more
  · -- an `=` in what follows makes either piece no pair
    have hnone : ∀ value, pair? (key ++ '=' :: (value ++ more)) = none := by
      intro value
      have hpos : 0 < more.countP (· = '=') := List.countP_pos_iff.mpr ⟨'=', hmore, by decide⟩
      apply pair?_eq_none_of_countP
      rw [List.countP_append, List.countP_cons_of_pos (by decide), List.countP_append]
      omega
    rw [hnone v, hnone w]
    exact .none
  · rw [pair?_append_cons key (by simp [hv, hmore]), pair?_append_cons key (by simp [hw, hmore]),
      if_neg hfree, if_neg hfree]
    exact .some ⟨rfl, .inl hkey⟩

/-- A secret at the front of a query makes no more difference than to its pair. -/
theorem samePairs_of_secret {key v w : Text} (hkey : key ∈ redacted)
    (hfree : '&' ∉ key ∧ '=' ∉ key) (hv : '&' ∉ v ∧ '=' ∉ v) (hw : '&' ∉ w ∧ '=' ∉ w)
    (after : Text) :
    List.Forall₂ (SamePair redacted) (pairs (key ++ '=' :: v ++ after))
      (pairs (key ++ '=' :: w ++ after)) := by
  have hv' : '&' ∉ key ++ '=' :: v := by simp [hfree.1, hv.1]
  have hw' : '&' ∉ key ++ '=' :: w := by simp [hfree.1, hw.1]
  rw [pairs, pairs, Text.split_append_of_notMem hv', Text.split_append_of_notMem hw',
    List.append_assoc, List.append_assoc, List.cons_append, List.cons_append]
  -- the first piece holds the secret, the others are the same
  apply List.rel_filterMap (R := fun piece piece' =>
    Option.Rel (SamePair redacted) (pair? piece) (pair? piece')) (fun _ _ h => h)
  refine .cons (samePair_of_secret hkey hfree.2 hv.2 hw.2 _) ?_
  exact List.forall₂_same.mpr fun piece _ => samePair_of_samePiece (.same piece)

-- ---------------------------------------------------------------------------
-- Reading them
-- ---------------------------------------------------------------------------

/-- Pairs that differ in a secret are shown alike. -/
theorem shownValue_eq_of_samePair {key raw key' raw' : Text}
    (h : SamePair redacted (key, raw) (key', raw')) :
    shownValue redacted key raw = shownValue redacted key' raw' := by
  obtain ⟨rfl, hmem | rfl⟩ := h
  · -- the mask is shown before the raw value is looked at
    rw [shownValue, shownValue, if_pos hmem, if_pos hmem]
  · rfl

/-- The induction is on the pairs; the parameters read so far are the same in both runs. -/
theorem collect_eq_of_samePairs {ps ps' : List (Text × Text)}
    (h : List.Forall₂ (SamePair redacted) ps ps') (params : Params) :
    collect redacted ps params = collect redacted ps' params := by
  induction h generalizing params with
  | nil => rfl
  | @cons p p' ps ps' hpair _ ih =>
    obtain ⟨key, raw⟩ := p
    obtain ⟨key', raw'⟩ := p'
    obtain rfl : key = key' := hpair.1
    rw [collect, collect, shownValue_eq_of_samePair hpair]
    simp only [ih]

/-- **Redaction hides its secrets.** Two queries that differ in nothing but the values of keys on
the list give the same parameters or the same error, and report the same events. -/
theorem parse_eq_of_sameButSecrets {q q' : Text} (h : SameButSecrets redacted q q') :
    parse redacted q = parse redacted q' :=
  collect_eq_of_samePairs (samePairs_of_sameButSecrets h) Params.empty

/-- One secret is malformed, the other one empty, and a value behind them fails to decode. -/
theorem parse_eq_of_pin :
    SameButSecrets ["pin".toList] "pin=%Z&a=1&a&pin=&b=%C3".toList
        "pin=12+3&a=1&a&pin=%4&b=%C3".toList ∧
      parse ["pin".toList] "pin=%Z&a=1&a&pin=&b=%C3".toList =
        parse ["pin".toList] "pin=12+3&a=1&a&pin=%4&b=%C3".toList := by
  have hpin : "pin".toList ∈ ["pin".toList] := List.mem_singleton_self _
  have h : SameButSecrets ["pin".toList] "pin=%Z&a=1&a&pin=&b=%C3".toList
      "pin=12+3&a=1&a&pin=%4&b=%C3".toList :=
    .cons (.secret hpin (by decide) (by decide)) <| .cons (.same _) <| .cons (.same _) <|
      .cons (.secret hpin (by decide) (by decide)) <| .cons (.same _) .nil
  exact ⟨h, parse_eq_of_sameButSecrets h⟩

end Secrets

end BlockExplorer.Query
