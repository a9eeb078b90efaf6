import BlockExplorer.Proofs.Text.Split
import BlockExplorer.Text.Class
import Mathlib.Data.List.TakeWhile

/-!
# BlockExplorer — words and trimming

The words of a text are the pieces between separators that are not empty. They
are said without cutting, too: `Runs` goes through a text from one maximal run
of other characters to the next. Texts with given words are put together by
`Spaced`, with some separators between every two words. Trimming is said by what
it takes off (`Trims`), and it leaves the words as they are as long as blanks
are separators.

Main results:

* `runs_iff` — the words are the maximal runs.
* `words_of_spaced` — words with separators between them are read back.
* `trims_iff`, `words_trim` — what trimming leaves.
-/

namespace BlockExplorer.Text

variable {isSeparator : Char → Bool}

-- ---------------------------------------------------------------------------
-- Words of texts that are put together
-- ---------------------------------------------------------------------------

/-- Every separator at the front cuts off an empty piece. -/
theorem split_append_separators {seps : Text} (hseps : ∀ c ∈ seps, isSeparator c = true)
    (t : Text) :
    split isSeparator (seps ++ t) = List.replicate seps.length [] ++ split isSeparator t := by
  induction seps with
  | nil => rfl
  | cons c seps ih =>
    rw [List.cons_append, split_cons_of_separator (hseps c (List.mem_cons_self ..)),
      ih fun d hd => hseps d (List.mem_cons_of_mem _ hd)]
    rfl

/-- Separators at the front make no words. -/
theorem words_separators_append {seps : Text} (hseps : ∀ c ∈ seps, isSeparator c = true)
    (t : Text) :
    (split isSeparator (seps ++ t)).filter (· ≠ []) = (split isSeparator t).filter (· ≠ []) := by
  have hempty : (List.replicate seps.length ([] : Text)).filter (· ≠ []) = [] := by
    simp
  rw [split_append_separators hseps, List.filter_append, hempty, List.nil_append]

/-- **Separators stand between words** and make none, as long as there is one of them. -/
theorem words_append {seps : Text} (hseps : ∀ c ∈ seps, isSeparator c = true) (hne : seps ≠ [])
    (t u : Text) :
    (split isSeparator (t ++ (seps ++ u))).filter (· ≠ []) =
      (split isSeparator t).filter (· ≠ []) ++ (split isSeparator u).filter (· ≠ []) := by
  cases seps with
  | nil => exact absurd rfl hne
  | cons c seps =>
    rw [List.cons_append, split_append_cons (hseps c (List.mem_cons_self ..)),
      List.filter_append, words_separators_append fun d hd => hseps d (List.mem_cons_of_mem _ hd)]

/-- Separators at the end make no words. -/
theorem words_append_separators {seps : Text} (hseps : ∀ c ∈ seps, isSeparator c = true)
    (t : Text) :
    (split isSeparator (t ++ seps)).filter (· ≠ []) = (split isSeparator t).filter (· ≠ []) := by
  cases seps with
  | nil => rw [List.append_nil]
  | cons c seps =>
    have happend := words_append hseps (List.cons_ne_nil c seps) t []
    rwa [List.append_nil, show (split isSeparator []).filter (· ≠ []) = [] from rfl,
      List.append_nil] at happend

theorem words_eq_singleton {t : Text} (ht : ∀ c ∈ t, isSeparator c = false) (hne : t ≠ []) :
    (split isSeparator t).filter (· ≠ []) = [t] := by
  rw [split_eq_singleton ht, List.filter_cons, if_pos (decide_eq_true hne), List.filter_nil]

/-- The text has the words in order, with some separators between every two of them. -/
inductive Spaced (isSeparator : Char → Bool) : List Text → Text → Prop where
  | nil : Spaced isSeparator [] []
  | singleton {u : Text} : Spaced isSeparator [u] u
  | cons {u v seps t : Text} {us : List Text} (hseps : ∀ c ∈ seps, isSeparator c = true)
      (hne : seps ≠ []) (h : Spaced isSeparator (v :: us) t) :
      Spaced isSeparator (u :: v :: us) (u ++ (seps ++ t))

/-- **The words of a text are those that it was put together from.** -/
theorem words_of_spaced {us : List Text} {t : Text} (h : Spaced isSeparator us t)
    (hus : ∀ u ∈ us, u ≠ [] ∧ ∀ c ∈ u, isSeparator c = false) :
    (split isSeparator t).filter (· ≠ []) = us := by
  -- the induction takes off one word and the separators behind it
  induction h with
  | nil => rfl
  | singleton =>
    obtain ⟨hne, hfree⟩ := hus _ (List.mem_cons_self ..)
    exact words_eq_singleton hfree hne
  | cons hseps hne _ ih =>
    obtain ⟨hu, hfree⟩ := hus _ (List.mem_cons_self ..)
    rw [words_append hseps hne, words_eq_singleton hfree hu,
      ih fun v hv => hus v (List.mem_cons_of_mem _ hv)]
    rfl

/-- Words that are joined stand apart by the separators between them. -/
theorem spaced_join {seps : Text} (hseps : ∀ c ∈ seps, isSeparator c = true) (hne : seps ≠ []) :
    ∀ us, Spaced isSeparator us (join seps us)
  | [] => .nil
  | [_] => .singleton
  | u :: v :: us => by
    rw [join, List.append_assoc]
    exact .cons hseps hne (spaced_join hseps hne (v :: us))

/-- A text that is put together has no characters but those of its words and separators. -/
theorem Spaced.mem {us : List Text} {t : Text} (h : Spaced isSeparator us t) {c : Char}
    (hc : c ∈ t) : isSeparator c = true ∨ ∃ u ∈ us, c ∈ u := by
  induction h with
  | nil => cases hc
  | singleton => exact .inr ⟨_, List.mem_cons_self .., hc⟩
  | cons hseps _ _ ih =>
    rw [List.mem_append, List.mem_append] at hc
    rcases hc with hc | hc | hc
    · exact .inr ⟨_, List.mem_cons_self .., hc⟩
    · exact .inl (hseps c hc)
    · rcases ih hc with h | ⟨u, hu, hc⟩
      · exact .inl h
      · exact .inr ⟨u, List.mem_cons_of_mem _ hu, hc⟩

-- ---------------------------------------------------------------------------
-- Maximal runs
-- ---------------------------------------------------------------------------

/-- The maximal runs of characters that are no separators, in order. A run ends where the text
ends or a separator follows, so that the next one has separators before it. -/
inductive Runs (isSeparator : Char → Bool) : Text → List Text → Prop where
  | none {seps : Text} (hseps : ∀ c ∈ seps, isSeparator c = true) : Runs isSeparator seps []
  | run {seps u rest : Text} {us : List Text} (hseps : ∀ c ∈ seps, isSeparator c = true)
      (hne : u ≠ []) (hfree : ∀ c ∈ u, isSeparator c = false)
      (hends : ∀ c ∈ rest.head?, isSeparator c = true) (h : Runs isSeparator rest us) :
      Runs isSeparator (seps ++ (u ++ rest)) (u :: us)

/-- The runs of a text are its words. -/
theorem words_of_runs {t : Text} {us : List Text} (h : Runs isSeparator t us) :
    (split isSeparator t).filter (· ≠ []) = us := by
  induction h with
  | none hseps =>
    have hwords := words_separators_append hseps []
    rwa [List.append_nil] at hwords
  | @run seps u rest us hseps hne hfree hends _ ih =>
    rw [words_separators_append hseps]
    -- behind a run the text ends, or a separator cuts it
    cases rest with
    | nil =>
      obtain rfl : [] = us := ih
      rw [List.append_nil, words_eq_singleton hfree hne]
    | cons c rest =>
      have hc : ∀ d ∈ [c], isSeparator d = true := by
        rw [List.forall_mem_singleton]
        exact hends c rfl
      have hrest := words_separators_append hc rest
      rw [List.singleton_append, ih] at hrest
      rw [← List.singleton_append, words_append hc (List.cons_ne_nil c []),
        words_eq_singleton hfree hne, ← hrest]
      rfl

/-- A run may stand at the front, with no separators before it. -/
theorem Runs.front {u rest : Text} {us : List Text} (hne : u ≠ [])
    (hfree : ∀ c ∈ u, isSeparator c = false) (hends : ∀ c ∈ rest.head?, isSeparator c = true)
    (h : Runs isSeparator rest us) : Runs isSeparator (u ++ rest) (u :: us) :=
  .run (List.forall_mem_nil _) hne hfree hends h

/-- A character in front of the first run makes it longer, or is a run of its own. -/
theorem Runs.cons_of_not {t : Text} {us : List Text} {c : Char} (hc : isSeparator c = false)
    (h : Runs isSeparator t us) : ∃ vs, Runs isSeparator (c :: t) vs := by
  have hsingle : ∀ d ∈ [c], isSeparator d = false := List.forall_mem_singleton.mpr hc
  have halone : ∀ {rest vs}, (∀ d ∈ rest.head?, isSeparator d = true) →
      Runs isSeparator rest vs → Runs isSeparator (c :: rest) ([c] :: vs) := fun hends hrest =>
    .front (List.cons_ne_nil c []) hsingle hends hrest
  cases h with
  | none hseps =>
    exact ⟨_, halone (fun d hd => hseps d (List.mem_of_mem_head? hd)) (.none hseps)⟩
  | @run seps u rest us hseps hne hfree hends hrest =>
    cases seps with
    -- the first run starts right here, and begins one earlier
    | nil =>
      exact ⟨_, .front (List.cons_ne_nil c u) (List.forall_mem_cons.mpr ⟨hc, hfree⟩) hends hrest⟩
    -- separators follow, and the character is a run of its own
    | cons s seps =>
      refine ⟨_, halone ?_ (.run hseps hne hfree hends hrest)⟩
      rintro d ⟨⟩
      exact hseps s (List.mem_cons_self ..)

/-- Every text is made of runs. -/
theorem exists_runs (isSeparator : Char → Bool) (t : Text) : ∃ us, Runs isSeparator t us := by
  induction t with
  | nil => exact ⟨[], .none (List.forall_mem_nil _)⟩
  | cons c t ih =>
    obtain ⟨us, h⟩ := ih
    -- a separator in front goes to the separators of the first run
    cases hc : isSeparator c with
    | false => exact h.cons_of_not hc
    | true =>
      cases h with
      | none hseps => exact ⟨[], .none (List.forall_mem_cons.mpr ⟨hc, hseps⟩)⟩
      | run hseps hne hfree hends hrest =>
        exact ⟨_, .run (List.forall_mem_cons.mpr ⟨hc, hseps⟩) hne hfree hends hrest⟩

/-- **The words are the maximal runs** of characters that are no separators. -/
theorem runs_iff {t : Text} {us : List Text} :
    Runs isSeparator t us ↔ (split isSeparator t).filter (· ≠ []) = us := by
  refine ⟨words_of_runs, ?_⟩
  rintro rfl
  obtain ⟨us, h⟩ := exists_runs isSeparator t
  rwa [words_of_runs h]

-- ---------------------------------------------------------------------------
-- Trimming
-- ---------------------------------------------------------------------------

/-- Blanks around the second text make up the first, and the second neither begins nor ends with
a blank. -/
def Trims (t u : Text) : Prop :=
  ∃ front back, t = front ++ (u ++ back) ∧
    (∀ c ∈ front, isBlank c = true) ∧ (∀ c ∈ back, isBlank c = true) ∧
    (∀ c ∈ u.head?, isBlank c = false) ∧ (∀ c ∈ u.getLast?, isBlank c = false)

theorem dropWhile_eq_self {p : Char → Bool} {t : Text} (h : ∀ c ∈ t.head?, p c = false) :
    t.dropWhile p = t := by
  cases t with
  | nil => rfl
  | cons c t => exact List.dropWhile_cons_of_neg (by simp [h c rfl])

/-- What stands between blanks is what trimming leaves. -/
theorem trim_of_trims {t u : Text} (h : Trims t u) : trim t = u := by
  obtain ⟨front, back, rfl, hfront, hback, hhead, hlast⟩ := h
  have hback' : ∀ c ∈ back.reverse, isBlank c = true := fun c hc =>
    hback c (List.mem_reverse.mp hc)
  rw [trim, List.dropWhile_append_of_pos hfront]
  cases u with
  | nil =>
    -- there are blanks alone
    rw [List.nil_append, List.dropWhile_eq_nil_iff.mpr hback]
    rfl
  -- the text is not empty, so that its ends stop the dropping on both sides
  | cons c u =>
    rw [dropWhile_eq_self (t := c :: u ++ back) hhead, List.reverse_append,
      List.dropWhile_append_of_pos hback', dropWhile_eq_self, List.reverse_reverse]
    rwa [List.head?_reverse]

/-- Trimming leaves a text that stands between blanks. -/
theorem trims_trim (t : Text) : Trims t (trim t) := by
  have hfront := List.takeWhile_append_dropWhile (p := isBlank) (l := t)
  have hback := List.takeWhile_append_dropWhile (p := isBlank) (l := (t.dropWhile isBlank).reverse)
  -- the blanks at the end are those at the front of the text turned around
  have hparts : trim t ++ ((t.dropWhile isBlank).reverse.takeWhile isBlank).reverse =
      t.dropWhile isBlank := by
    rw [trim, ← List.reverse_append, hback, List.reverse_reverse]
  refine ⟨t.takeWhile isBlank, ((t.dropWhile isBlank).reverse.takeWhile isBlank).reverse, ?_,
    fun c hc => List.mem_takeWhile_imp hc,
    fun c hc => List.mem_takeWhile_imp (List.mem_reverse.mp hc), ?_, ?_⟩
  · rw [hparts, hfront]
  · -- the text begins as what is left when the first blanks are dropped
    intro c hc
    have hhead := List.head?_dropWhile_not isBlank t
    rw [← hparts, List.head?_append, Option.mem_def.mp hc] at hhead
    simpa using hhead
  · intro c hc
    have hhead := List.head?_dropWhile_not isBlank (t.dropWhile isBlank).reverse
    rw [trim, List.getLast?_reverse] at hc
    rw [Option.mem_def.mp hc] at hhead
    simpa using hhead

/-- **Trimming takes off the blanks around a text**, and all of them. -/
theorem trims_iff {t u : Text} : Trims t u ↔ trim t = u := by
  refine ⟨trim_of_trims, ?_⟩
  rintro rfl
  exact trims_trim t

/-- Trimming leaves the words as they are. -/
theorem words_trim (hblank : ∀ c, isBlank c = true → isSeparator c = true) (t : Text) :
    (split isSeparator (trim t)).filter (· ≠ []) = (split isSeparator t).filter (· ≠ []) := by
  obtain ⟨front, back, hparts, hfront, hback, -⟩ := trims_trim t
  rw [← words_append_separators (fun c hc => hblank c (hback c hc)) (trim t),
    ← words_separators_append (fun c hc => hblank c (hfront c hc)), ← hparts]

end BlockExplorer.Text
