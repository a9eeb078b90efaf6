import Mathlib.Data.List.Forall2
import BlockExplorer.Proofs.Request.CacheBuster
import BlockExplorer.Proofs.Text.Split

/-!
# BlockExplorer — cleaning an address piece by piece

Cleaning searches the address as a whole for cache-busters. None of them runs
over an `&` but the one it begins with, so the search comes down to a look at
the parameters behind an `&`, each on its own (`Remains`).

A parameter that begins as a cache-buster loses its number, also where it goes
on behind it; what follows the number is then joined to the text before the `&`.
Two things are said about this:

* the address is cleaned by whole parameters exactly when every parameter that
  begins as a cache-buster is one (`BustersEnd`), and then no cache-buster is
  left and a second cleaning changes nothing;
* otherwise the texts on both sides of a number can make up a new cache-buster,
  which is left behind.

Main results:

* `stripCacheBusters_eq_iff` — what is left of an address, parameter by parameter.
* `stripCacheBusters_eq_withoutBusters_iff` — when whole parameters are removed.
* `queryPart_stripCacheBusters` — the query may be taken before or after.
-/

namespace BlockExplorer.Url

-- ---------------------------------------------------------------------------
-- Parameters
-- ---------------------------------------------------------------------------

/-- What stands before the first `&` of an address. -/
def front (url : Text) : Text :=
  (Text.pieces (· = '&') url).1

/-- The parameters of an address that stand behind an `&`, in order. -/
def attached (url : Text) : List Text :=
  (Text.pieces (· = '&') url).2

/-- A number as a cache-buster has it: dots and digits in any order, at least one. -/
def IsNumber (t : Text) : Prop :=
  t ≠ [] ∧ ∀ c ∈ t, isBusterDigit c = true

theorem isNumber_iff_all {t : Text} :
    (!t.isEmpty && t.all isBusterDigit) = true ↔ IsNumber t := by
  simp [IsNumber]

instance : DecidablePred IsNumber := fun _ => decidable_of_iff _ isNumber_iff_all

/-- The parameter `random` with a value. -/
def busterParameter (value : Text) : Text :=
  busterKey ++ '=' :: value

/-- All of the parameter is a cache-buster. -/
def IsBuster (p : Text) : Prop :=
  ∃ number, IsNumber number ∧ p = busterParameter number

/-- The parameter begins as a cache-buster; anything may follow the first dot or digit. -/
def BeginsBuster (p : Text) : Prop :=
  ∃ c rest, isBusterDigit c = true ∧ p = busterParameter (c :: rest)

theorem busterParameter_injective {value value' : Text}
    (h : busterParameter value = busterParameter value') : value = value' :=
  (List.cons.inj (List.append_cancel_left h)).2

/-- A parameter `random` is a cache-buster exactly when its value is a number. -/
theorem isBuster_busterParameter_iff {value : Text} :
    IsBuster (busterParameter value) ↔ IsNumber value := by
  constructor
  · rintro ⟨number, hnumber, h⟩
    rwa [busterParameter_injective h]
  · intro h
    exact ⟨value, h, rfl⟩

/-- The one value that a parameter can have stands behind the key and its `=`. -/
def valueOf (p : Text) : Text :=
  p.drop (busterKey.length + 1)

theorem isBuster_iff_valueOf {p : Text} :
    (p = busterParameter (valueOf p) ∧ IsNumber (valueOf p)) ↔ IsBuster p := by
  constructor
  · intro h
    exact ⟨valueOf p, h.2, h.1⟩
  · rintro ⟨number, hnumber, rfl⟩
    exact ⟨rfl, hnumber⟩

instance : DecidablePred IsBuster := fun _ => decidable_of_iff _ isBuster_iff_valueOf

/-- Anything may follow the number of a parameter that begins as a cache-buster. -/
theorem IsNumber.begins {number : Text} (h : IsNumber number) (rest : Text) :
    BeginsBuster (busterParameter (number ++ rest)) := by
  obtain ⟨hne, hdigits⟩ := h
  obtain ⟨c, digits, rfl⟩ := List.exists_cons_of_ne_nil hne
  exact ⟨c, digits ++ rest, hdigits c (List.mem_cons_self ..), rfl⟩

theorem IsBuster.begins {p : Text} (h : IsBuster p) : BeginsBuster p := by
  obtain ⟨number, hnumber, rfl⟩ := h
  have hbegins := hnumber.begins []
  rwa [List.append_nil] at hbegins

theorem IsBuster.notMem {p : Text} (h : IsBuster p) : '&' ∉ p := by
  obtain ⟨number, ⟨-, hdigits⟩, rfl⟩ := h
  have hnumber : '&' ∉ number := by
    intro hmem
    have hdigit := hdigits '&' hmem
    simp [endsBuster_ampersand.2] at hdigit
  have hkey : '&' ∉ busterKey := by decide
  simp [busterParameter, hkey, hnumber]

/-- An address is what stands before its first `&` and its parameters. -/
theorem front_append_attached (url : Text) :
    front url ++ (attached url).flatMap ('&' :: ·) = url :=
  (Text.join_cons ['&'] (front url) (attached url)).symm.trans (Text.join_split '&' url)

theorem notMem_front (url : Text) : '&' ∉ front url :=
  Text.notMem_of_mem_split (t := url) (List.mem_cons_self ..)

theorem notMem_attached {url p : Text} (h : p ∈ attached url) : '&' ∉ p :=
  Text.notMem_of_mem_split (t := url) (List.mem_cons_of_mem _ h)

/-- Parts without `&` are the parameters of what they make up. -/
theorem front_and_attached_append {t : Text} {ps : List Text} (ht : '&' ∉ t)
    (hps : ∀ p ∈ ps, '&' ∉ p) :
    front (t ++ ps.flatMap ('&' :: ·)) = t ∧ attached (t ++ ps.flatMap ('&' :: ·)) = ps := by
  have hsplit := Text.split_join (List.forall_mem_cons.mpr ⟨ht, hps⟩)
  rw [Text.join_cons, Text.split] at hsplit
  exact List.cons.inj hsplit

-- ---------------------------------------------------------------------------
-- Cleaning one parameter
-- ---------------------------------------------------------------------------

/-- What cleaning leaves of a parameter and of the `&` before it: what follows the number if the
parameter begins as a cache-buster, and all of it otherwise. The number goes up to the first
character that is neither a dot nor a digit. -/
inductive Remains : Text → Text → Prop where
  | cut {number rest : Text} (hnumber : IsNumber number)
      (hrest : ∀ c ∈ rest.head?, isBusterDigit c = false) :
      Remains (busterParameter (number ++ rest)) rest
  | kept {p : Text} (h : ¬ BeginsBuster p) : Remains p ('&' :: p)

theorem takeWhile_number {number rest : Text} (hnumber : IsNumber number)
    (hrest : ∀ c ∈ rest.head?, isBusterDigit c = false) :
    (number ++ rest).takeWhile isBusterDigit = number := by
  rw [List.takeWhile_append_of_pos hnumber.2]
  cases rest with
  | nil => rw [List.takeWhile_nil, List.append_nil]
  | cons c rest => simp [hrest c rfl]

theorem busterParameter_append (number rest : Text) :
    busterParameter (number ++ rest) = busterParameter number ++ rest := by
  rw [busterParameter, busterParameter, List.append_assoc, List.cons_append]

/-- A cache-buster ends with its number. -/
theorem busterLength_busterParameter {number rest : Text} (hnumber : IsNumber number)
    (hrest : ∀ c ∈ rest.head?, isBusterDigit c = false) :
    busterLength ('&' :: busterParameter (number ++ rest)) =
      (busterParameter number).length + 1 := by
  have hdrop : Text.dropMark? busterMark ('&' :: busterParameter (number ++ rest)) =
      some (number ++ rest) := rfl
  have hpos := List.length_pos_of_ne_nil hnumber.1
  have hlen : busterMark.length + number.length = (busterParameter number).length + 1 := by
    show _ = (busterMark ++ number).length
    rw [List.length_append]
  rw [busterLength, hdrop]
  simp only [takeWhile_number hnumber hrest]
  split
  · omega
  · exact hlen

/-- A parameter that begins with the mark is `random`, with the rest for its value. -/
theorem eq_busterParameter_of_dropMark? {p value : Text}
    (h : Text.dropMark? busterMark ('&' :: p) = some value) : p = busterParameter value := by
  unfold Text.dropMark? at h
  split at h
  · next hmark =>
    obtain ⟨rest, hrest⟩ := List.isPrefixOf_iff_prefix.mp hmark
    rw [← hrest, List.drop_left] at h
    cases h
    exact (List.cons.inj hrest).2.symm
  · cases h

/-- There is no cache-buster where the parameter does not begin as one. -/
theorem busterLength_of_not_begins {p : Text} (h : ¬ BeginsBuster p) :
    busterLength ('&' :: p) = 0 := by
  rw [busterLength]
  cases hdrop : Text.dropMark? busterMark ('&' :: p) with
  | none => rfl
  -- the mark is there, but no number follows
  | some value =>
    have hp := eq_busterParameter_of_dropMark? hdrop
    cases value with
    | nil => rfl
    | cons c value =>
      have hc : isBusterDigit c = false := by
        rw [← Bool.not_eq_true]
        intro hdigit
        exact h ⟨c, value, hdigit, hp⟩
      simp [hc]

/-- Something, or nothing, remains of every parameter. -/
theorem exists_remains (p : Text) : ∃ rest, Remains p rest := by
  by_cases h : BeginsBuster p
  · obtain ⟨c, value, hc, rfl⟩ := h
    -- the number goes on as long as there are dots and digits
    have hvalue : c :: value =
        c :: value.takeWhile isBusterDigit ++ value.dropWhile isBusterDigit := by
      rw [List.cons_append, List.takeWhile_append_dropWhile]
    have hdigits : ∀ d ∈ c :: value.takeWhile isBusterDigit, isBusterDigit d = true := by
      rw [List.forall_mem_cons]
      exact ⟨hc, fun d hd => List.mem_takeWhile_imp hd⟩
    have hrest : ∀ d ∈ (value.dropWhile isBusterDigit).head?, isBusterDigit d = false := by
      intro d hd
      have hhead := List.head?_dropWhile_not isBusterDigit value
      rwa [hd] at hhead
    rw [hvalue]
    exact ⟨_, .cut ⟨List.cons_ne_nil _ _, hdigits⟩ hrest⟩
  · exact ⟨_, .kept h⟩

/-- A text without `&` stays as it is. -/
theorem stripCacheBusters_eq_self {t : Text} (h : '&' ∉ t) : stripCacheBusters t = t := by
  have hstay := stripCacheBusters_append_of_notMem h []
  rwa [List.append_nil, stripCacheBusters, List.append_nil] at hstay

/-- **Cleaning one parameter.** -/
theorem Remains.strip {p rest : Text} (h : Remains p rest) (hp : '&' ∉ p) :
    stripCacheBusters ('&' :: p) = rest := by
  cases h with
  | @cut number rest hnumber hrest =>
    rw [stripCacheBusters, busterLength_busterParameter hnumber hrest]
    rw [busterParameter_append] at hp ⊢
    show stripCacheBusters
      ((busterParameter number ++ rest).drop (busterParameter number).length) = rest
    rw [List.drop_left]
    exact stripCacheBusters_eq_self fun hmem => hp (List.mem_append_right _ hmem)
  | kept h =>
    rw [stripCacheBusters, busterLength_of_not_begins h]
    show '&' :: stripCacheBusters p = _
    rw [stripCacheBusters_eq_self hp]

-- ---------------------------------------------------------------------------
-- Cleaning an address
-- ---------------------------------------------------------------------------

/-- The induction is on the parameters; the text before them grows by one at each step. -/
theorem stripCacheBusters_append_flatMap {ps rests : List Text} (h : List.Forall₂ Remains ps rests)
    (hps : ∀ p ∈ ps, '&' ∉ p) (t : Text) :
    stripCacheBusters (t ++ ps.flatMap ('&' :: ·)) = stripCacheBusters t ++ rests.flatten := by
  induction h generalizing t with
  | nil => simp
  | @cons p rest ps rests hp _ ih =>
    obtain ⟨hfree, hps⟩ := List.forall_mem_cons.mp hps
    rw [List.flatMap_cons, ← List.append_assoc, ih hps,
      stripCacheBusters_append_cons endsBuster_ampersand, hp.strip hfree, List.flatten_cons,
      List.append_assoc]

theorem exists_forall₂_remains (ps : List Text) : ∃ rests, List.Forall₂ Remains ps rests := by
  induction ps with
  | nil => exact ⟨[], .nil⟩
  | cons p ps ih =>
    obtain ⟨rest, hp⟩ := exists_remains p
    obtain ⟨rests, hps⟩ := ih
    exact ⟨rest :: rests, .cons hp hps⟩

/-- What an address is cleaned to: what stands before the first `&`, and what remains of each
parameter behind it. -/
def CleansTo (url t : Text) : Prop :=
  ∃ rests, List.Forall₂ Remains (attached url) rests ∧ t = front url ++ rests.flatten

/-- Cleaning leaves what remains. -/
theorem CleansTo.strip {url t : Text} (h : CleansTo url t) : stripCacheBusters url = t := by
  obtain ⟨rests, hrests, rfl⟩ := h
  have hstrip := stripCacheBusters_append_flatMap hrests (fun p => notMem_attached) (front url)
  rwa [front_append_attached, stripCacheBusters_eq_self (notMem_front url)] at hstrip

theorem exists_cleansTo (url : Text) : ∃ t, CleansTo url t := by
  obtain ⟨rests, hrests⟩ := exists_forall₂_remains (attached url)
  exact ⟨_, rests, hrests, rfl⟩

/-- **Cleaning goes parameter by parameter.** -/
theorem stripCacheBusters_eq_iff {url t : Text} : stripCacheBusters url = t ↔ CleansTo url t := by
  constructor
  · rintro rfl
    obtain ⟨t, ht⟩ := exists_cleansTo url
    rwa [ht.strip]
  · exact CleansTo.strip

theorem IsBuster.remains {p : Text} (h : IsBuster p) : Remains p [] := by
  obtain ⟨number, hnumber, rfl⟩ := h
  have hcut : Remains (busterParameter (number ++ [])) [] := .cut hnumber (fun _ hc => nomatch hc)
  rwa [List.append_nil] at hcut

/-- A cache-buster at the end goes away. -/
theorem stripCacheBusters_append_buster {p : Text} (h : IsBuster p) (t : Text) :
    stripCacheBusters (t ++ '&' :: p) = stripCacheBusters t := by
  rw [stripCacheBusters_append_cons endsBuster_ampersand, h.remains.strip h.notMem,
    List.append_nil]

/-- So does one before another parameter. -/
theorem stripCacheBusters_append_buster_append {p : Text} (h : IsBuster p) (t u : Text) :
    stripCacheBusters (t ++ '&' :: p ++ '&' :: u) = stripCacheBusters (t ++ '&' :: u) := by
  rw [stripCacheBusters_append_cons endsBuster_ampersand, stripCacheBusters_append_buster h,
    ← stripCacheBusters_append_cons endsBuster_ampersand]

-- ---------------------------------------------------------------------------
-- Whole parameters
-- ---------------------------------------------------------------------------

/-- The address without the parameters that are cache-busters. -/
def withoutBusters (url : Text) : Text :=
  front url ++ ((attached url).filter fun p => ¬ IsBuster p).flatMap ('&' :: ·)

/-- Every parameter that begins as a cache-buster is one. -/
def BustersEnd (url : Text) : Prop :=
  ∀ p ∈ attached url, BeginsBuster p → IsBuster p

/-- The parameter with its `&`, unless it is a cache-buster. -/
def unlessBuster (p : Text) : Text :=
  if IsBuster p then [] else '&' :: p

/-- The cache-busters are left out one by one. -/
theorem withoutBusters_eq (url : Text) :
    withoutBusters url = front url ++ (attached url).flatMap unlessBuster := by
  rw [withoutBusters]
  congr 1
  induction attached url with
  | nil => rfl
  | cons p ps ih =>
    rw [List.flatMap_cons, ← ih, unlessBuster]
    by_cases hp : IsBuster p <;> simp [hp]

/-- What remains of a parameter is all that should, or it is shorter. -/
theorem Remains.eq_or_length_lt {p rest : Text} (h : Remains p rest) :
    rest = unlessBuster p ∧ (BeginsBuster p → IsBuster p) ∨
      rest.length < (unlessBuster p).length ∧ BeginsBuster p ∧ ¬ IsBuster p := by
  cases h with
  | @cut number rest hnumber hrest =>
    have hbegins := hnumber.begins rest
    cases rest with
    -- the number is all of the value, and the parameter goes away as a whole
    | nil =>
      have hp : IsBuster (busterParameter (number ++ [])) := by
        rw [List.append_nil]
        exact ⟨number, hnumber, rfl⟩
      left
      rw [unlessBuster, if_pos hp]
      exact ⟨rfl, fun _ => hp⟩
    -- the value goes on, and the parameter should have stayed
    | cons c rest =>
      have hp : ¬ IsBuster (busterParameter (number ++ c :: rest)) := by
        intro hbuster
        have hdigit := (isBuster_busterParameter_iff.mp hbuster).2 c (by simp)
        simp [hrest c rfl] at hdigit
      right
      refine ⟨?_, hbegins, hp⟩
      rw [unlessBuster, if_neg hp, busterParameter_append]
      simp only [List.length_cons, List.length_append]
      omega
  | kept h =>
    have hp : ¬ IsBuster p := fun hbuster => h hbuster.begins
    left
    rw [unlessBuster, if_neg hp]
    exact ⟨rfl, fun hbegins => absurd hbegins h⟩

/-- The same for a list of parameters: one that loses too much cannot be made up for by others. -/
theorem flatten_eq_or_length_lt {ps rests : List Text} (h : List.Forall₂ Remains ps rests) :
    rests.flatten = ps.flatMap unlessBuster ∧ (∀ p ∈ ps, BeginsBuster p → IsBuster p) ∨
      rests.flatten.length < (ps.flatMap unlessBuster).length ∧
        ¬ ∀ p ∈ ps, BeginsBuster p → IsBuster p := by
  -- the induction is on the parameters; no step makes more of one than it should
  induction h with
  | nil => exact .inl ⟨rfl, fun p hp => absurd hp List.not_mem_nil⟩
  | @cons p rest ps rests hp _ ih =>
    simp only [List.flatten_cons, List.flatMap_cons, List.length_append, List.forall_mem_cons]
    rcases hp.eq_or_length_lt with ⟨hrest, hwhole⟩ | ⟨hlt, hbegins, hnot⟩
    · rcases ih with ⟨hrests, hall⟩ | ⟨hlt, hnot⟩
      · exact .inl ⟨by rw [hrest, hrests], hwhole, hall⟩
      · exact .inr ⟨by rw [hrest]; omega, fun hall => hnot hall.2⟩
    · have hle : rests.flatten.length ≤ (ps.flatMap unlessBuster).length := by
        rcases ih with ⟨hrests, -⟩ | ⟨hlt, -⟩
        · rw [hrests]
        · exact hlt.le
      exact .inr ⟨by omega, fun hall => hnot (hall.1 hbegins)⟩

/-- Cleaning removes whole parameters exactly when each that begins as a cache-buster is one. -/
theorem stripCacheBusters_eq_iff_bustersEnd {url : Text} :
    stripCacheBusters url = withoutBusters url ↔ BustersEnd url := by
  obtain ⟨t, rests, hrests, rfl⟩ := exists_cleansTo url
  rw [CleansTo.strip ⟨rests, hrests, rfl⟩, withoutBusters_eq, List.append_cancel_left_eq]
  rcases flatten_eq_or_length_lt hrests with ⟨heq, hends⟩ | ⟨hlt, hnot⟩
  · exact iff_of_true heq hends
  · refine iff_of_false ?_ hnot
    intro heq
    simp [heq] at hlt

/-- Leaving the cache-busters out leaves the other parameters. -/
theorem front_and_attached_withoutBusters (url : Text) :
    front (withoutBusters url) = front url ∧
      attached (withoutBusters url) = (attached url).filter fun p => ¬ IsBuster p :=
  front_and_attached_append (notMem_front url) fun _ hp => notMem_attached (List.mem_filter.mp hp).1

theorem withoutBusters_withoutBusters (url : Text) :
    withoutBusters (withoutBusters url) = withoutBusters url := by
  obtain ⟨hfront, hattached⟩ := front_and_attached_withoutBusters url
  rw [withoutBusters, hfront, hattached, List.filter_filter]
  simp only [Bool.and_self]
  rfl

/-- **When cleaning removes whole parameters.** It takes away the cache-busters and leaves every
other parameter as it is exactly when each parameter that begins as a cache-buster is one. Then no
cache-buster is left, and cleaning once more changes nothing. -/
theorem stripCacheBusters_eq_withoutBusters_iff (url : Text) :
    (stripCacheBusters url = withoutBusters url ↔ BustersEnd url) ∧
    (BustersEnd url →
      attached (stripCacheBusters url) = (attached url).filter (fun p => ¬ IsBuster p) ∧
      (∀ p ∈ attached (stripCacheBusters url), ¬ IsBuster p) ∧
      stripCacheBusters (stripCacheBusters url) = stripCacheBusters url) := by
  refine ⟨stripCacheBusters_eq_iff_bustersEnd, ?_⟩
  intro hends
  have hattached := (front_and_attached_withoutBusters url).2
  have hnone : ∀ p ∈ attached (withoutBusters url), ¬ IsBuster p := by
    intro p hp
    rw [hattached] at hp
    simpa using (List.mem_filter.mp hp).2
  -- what is left are parameters of the address
  have hends' : BustersEnd (withoutBusters url) := by
    intro p hp hbegins
    rw [hattached] at hp
    exact hends p (List.mem_filter.mp hp).1 hbegins
  rw [stripCacheBusters_eq_iff_bustersEnd.mpr hends]
  refine ⟨hattached, hnone, ?_⟩
  rw [stripCacheBusters_eq_iff_bustersEnd.mpr hends', withoutBusters_withoutBusters]

/-- What follows a number is joined to the text before it, and the two make up a cache-buster: it
is left behind, and a second cleaning takes it away. -/
theorem stripCacheBusters_makes_buster :
    withoutBusters "/s?a=1&ran&random=1dom=2".toList = "/s?a=1&ran&random=1dom=2".toList ∧
    stripCacheBusters "/s?a=1&ran&random=1dom=2".toList = "/s?a=1&random=2".toList ∧
    attached "/s?a=1&random=2".toList = ["random=2".toList] ∧ IsBuster "random=2".toList ∧
    stripCacheBusters "/s?a=1&random=2".toList = "/s?a=1".toList := by
  refine ⟨by decide, ?_, by decide, by decide, ?_⟩
  · cbv
  · cbv

/-- **The query may be taken before or after.** No cache-buster runs over a `?`, and what is joined
where one was holds no `?` but those of the address. -/
theorem queryPart_stripCacheBusters (url : Text) :
    queryPart (stripCacheBusters url) = stripCacheBusters (queryPart url) := by
  by_cases h : '?' ∈ url
  · obtain ⟨t, query, rfl, ht⟩ := List.eq_append_cons_of_mem h
    have ht' : '?' ∉ stripCacheBusters t := by
      intro hmem
      exact ht ((stripCacheBusters_sublist t).mem hmem)
    rw [queryPart_append_cons ht, stripCacheBusters_append_cons endsBuster_questionMark,
      stripCacheBusters_cons_of_ne (by decide), queryPart_append_cons ht']
  · have h' : '?' ∉ stripCacheBusters url := by
      intro hmem
      exact h ((stripCacheBusters_sublist url).mem hmem)
    rw [queryPart_eq_self h, queryPart_eq_self h']

end BlockExplorer.Url
