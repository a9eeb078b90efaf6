import BlockExplorer.Proofs.Text.Split
import BlockExplorer.Request.Url
import Mathlib.Data.List.Basic

/-!
# BlockExplorer — the pairs of a query

A piece of a query is a pair when exactly one of its characters is an `=`
(`pair?_eq_some_iff`, `pair?_eq_none_iff`). `PairsOf` says which pairs a list of
pieces holds, in order, without computing them; `pairsOf_pairs` says that the
pairs of a query are those of its pieces.
-/

namespace BlockExplorer.Query

-- ---------------------------------------------------------------------------
-- One piece
-- ---------------------------------------------------------------------------

/-- A piece with several `=` is no pair. -/
theorem pair?_eq_none_of_countP {piece : Text} (h : 1 < piece.countP (· = '=')) :
    pair? piece = none := by
  have hlen := Text.length_split (· = '=') piece
  unfold pair?
  split
  · next key raw hsplit =>
    rw [hsplit] at hlen
    simp only [List.length_cons, List.length_nil] at hlen
    omega
  · rfl

/-- A key, an `=` and a value without one are a pair, unless the key holds an `=` itself. -/
theorem pair?_append_cons (key : Text) {raw : Text} (hraw : '=' ∉ raw) :
    pair? (key ++ '=' :: raw) = if '=' ∈ key then none else some (key, raw) := by
  by_cases hkey : '=' ∈ key
  · have hpos : 0 < key.countP (· = '=') :=
      List.countP_pos_iff.mpr ⟨'=', hkey, by decide⟩
    rw [if_pos hkey]
    -- the `=` of the key and the one behind it
    apply pair?_eq_none_of_countP
    rw [List.countP_append, List.countP_cons_of_pos (by decide)]
    omega
  · rw [if_neg hkey, pair?, Text.split_append_cons (by decide),
      Text.split_eq_singleton_of_notMem hkey, Text.split_eq_singleton_of_notMem hraw]
    rfl

/-- **A piece is a pair** when it is a key and a value with an `=` between them, and neither of
the two holds another. -/
theorem pair?_eq_some_iff {piece key raw : Text} :
    pair? piece = some (key, raw) ↔ piece = key ++ '=' :: raw ∧ '=' ∉ key ∧ '=' ∉ raw := by
  constructor
  · intro h
    have hlen := Text.length_split (· = '=') piece
    have hjoin := Text.join_split '=' piece
    unfold pair? at h
    split at h
    · next key' raw' hsplit =>
      cases h
      rw [hsplit, Text.join, Text.join, List.append_assoc, List.singleton_append] at hjoin
      -- the one separator of the piece is the `=` between the two
      rw [hsplit, ← hjoin, List.countP_append, List.countP_cons_of_pos (by decide),
        List.length_cons, List.length_singleton] at hlen
      have hnone : ∀ t : Text, t.countP (· = '=') = 0 → '=' ∉ t := by
        intro t ht hmem
        exact absurd (List.countP_eq_zero.mp ht '=' hmem) (by decide)
      exact ⟨hjoin.symm, hnone key (by omega), hnone raw (by omega)⟩
    · cases h
  · rintro ⟨rfl, hkey, hraw⟩
    rw [pair?_append_cons key hraw, if_neg hkey]

/-- The pieces that are no pairs are those without an `=` and those with several. -/
theorem pair?_eq_none_iff {piece : Text} : pair? piece = none ↔ piece.count '=' ≠ 1 := by
  have hlen := Text.length_split (· = '=') piece
  have hcount : piece.count '=' = piece.countP (· = '=') :=
    List.countP_congr fun c _ => by simp
  rw [hcount]
  unfold pair?
  split
  · next key raw hsplit =>
    rw [hsplit, List.length_cons, List.length_singleton] at hlen
    constructor
    · intro h
      cases h
    · intro hne
      omega
  · next hother =>
    refine ⟨fun _ hone => ?_, fun _ => rfl⟩
    rw [hone] at hlen
    obtain ⟨key, raw, hsplit⟩ := List.length_eq_two.mp hlen
    exact hother key raw hsplit

-- ---------------------------------------------------------------------------
-- All pieces
-- ---------------------------------------------------------------------------

/-- The pieces hold these pairs, in order; the other pieces are passed over. -/
inductive PairsOf : List Text → List (Text × Text) → Prop where
  | nil : PairsOf [] []
  | pair {key raw : Text} {pieces : List Text} {ps : List (Text × Text)} (hkey : '=' ∉ key)
      (hraw : '=' ∉ raw) (h : PairsOf pieces ps) :
      PairsOf ((key ++ '=' :: raw) :: pieces) ((key, raw) :: ps)
  | other {piece : Text} {pieces : List Text} {ps : List (Text × Text)}
      (hpiece : piece.count '=' ≠ 1) (h : PairsOf pieces ps) : PairsOf (piece :: pieces) ps

theorem pairsOf_filterMap (pieces : List Text) : PairsOf pieces (pieces.filterMap pair?) := by
  induction pieces with
  | nil => exact .nil
  | cons piece pieces ih =>
    cases hpair : pair? piece with
    | none =>
      rw [List.filterMap_cons_none hpair]
      exact .other (pair?_eq_none_iff.mp hpair) ih
    | some p =>
      obtain ⟨key, raw⟩ := p
      rw [List.filterMap_cons_some hpair]
      obtain ⟨rfl, hkey, hraw⟩ := pair?_eq_some_iff.mp hpair
      exact .pair hkey hraw ih

/-- The pairs of a query are those of its pieces. -/
theorem pairsOf_pairs (query : Text) : PairsOf (Text.split (· = '&') query) (pairs query) :=
  pairsOf_filterMap _

theorem pairs_append_cons (t u : Text) : pairs (t ++ '&' :: u) = pairs t ++ pairs u := by
  rw [pairs, Text.split_append_cons (by decide), List.filterMap_append]
  rfl

end BlockExplorer.Query
