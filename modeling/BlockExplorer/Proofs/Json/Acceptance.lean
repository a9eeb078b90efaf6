import BlockExplorer.Proofs.Json.Grammar

/-!
# BlockExplorer — what the readers of a document accept

Lists and objects have items between brackets, each but the first behind a
comma. `Items` says this once for both, with the spelling of an item as a
parameter and a mark for the first item, so that it can be followed from any
item on. The readers of lists of strings and of named values accept exactly the
texts of the grammar.

Main results:

* `nextItem_eq_item_iff`, `nextKey_eq_item_iff` — where the next item is found.
* `reads_readTexts` — lists of strings.
* `reads_readVariant` — names, by themselves or as the key of an object.
-/

namespace BlockExplorer.Json

-- ---------------------------------------------------------------------------
-- Lists, objects and names
-- ---------------------------------------------------------------------------

/-- What may stand in front of an item: blanks, with a comma among them unless it is the first. -/
inductive Leads : Bool → Text → Prop where
  | first {b : Text} (hb : Blanks b) : Leads true b
  | later {b b' : Text} (hb : Blanks b) (hb' : Blanks b') : Leads false (b ++ ',' :: b')

/-- The items from the first on, or from a later one on, up to the closing bracket. -/
inductive Items {α : Type} (Spells : α → Text → Prop) : Bool → List α → Text → Prop where
  | stop {isFirst : Bool} {b : Text} (hb : Blanks b) : Items Spells isFirst [] b
  | item {isFirst : Bool} {lead s t : Text} {x : α} {xs : List α} (hlead : Leads isFirst lead)
      (hx : Spells x s) (h : Items Spells false xs t) :
      Items Spells isFirst (x :: xs) (lead ++ (s ++ t))

/-- A list between its brackets. -/
inductive IsList {α : Type} (Spells : α → Text → Prop) (values : List α) : Text → Prop where
  | brackets {t : Text} (h : Items Spells true values t) :
      IsList Spells values ('[' :: (t ++ [']']))

/-- A name, or an object from the name to `null`. -/
inductive IsName (name : Text) : Text → Prop where
  | string {s : Text} (h : IsString name s) : IsName name s
  | object {b₁ b₂ b₃ b₄ s : Text} (hb₁ : Blanks b₁) (h : IsString name s) (hb₂ : Blanks b₂)
      (hb₃ : Blanks b₃) (hb₄ : Blanks b₄) :
      IsName name
        ('\x7b' :: (b₁ ++ (s ++ (b₂ ++ ':' :: (b₃ ++ ("null".toList ++ (b₄ ++ ['\x7d'])))))))

-- ---------------------------------------------------------------------------
-- Punctuation
-- ---------------------------------------------------------------------------

/-- Blanks may also stand right before an item. -/
theorem Leads.append {isFirst : Bool} {lead b : Text} (h : Leads isFirst lead) (hb : Blanks b) :
    Leads isFirst (lead ++ b) := by
  cases h with
  | first hb' => exact .first (hb'.append hb)
  | later hb' hb'' =>
    rw [List.append_assoc, List.cons_append]
    exact .later hb' (hb''.append hb)

/-- The text starts with a character that is no blank and not the closing bracket. -/
def Opens (close : Char) (t : Text) : Prop :=
  ∃ c r, t = c :: r ∧ isBlank c = false ∧ c ≠ close

/-- Behind blanks a text opens an item, unless it ends there or has the closing bracket. -/
theorem opens_skipBlanks {close : Char} {t : Text} (hnil : skipBlanks t ≠ [])
    (hclose : ∀ r, skipBlanks t ≠ close :: r) : Opens close (skipBlanks t) := by
  match hskip : skipBlanks t with
  | [] => exact absurd hskip hnil
  | c :: r =>
    refine ⟨c, r, rfl, (skipBlanks_eq_cons_iff.mp hskip).1, ?_⟩
    rintro rfl
    exact hclose r hskip

/-- A list ends with its bracket, behind blanks. -/
theorem readListEnd_eq_ok_iff {t rest : Text} :
    readListEnd t = .ok rest ↔ ∃ b, Blanks b ∧ t = b ++ ']' :: rest := by
  constructor
  · intro h
    unfold readListEnd at h
    split at h
    · cases h
    · next hskip =>
      cases h
      exact (skipBlanks_eq_cons_iff.mp hskip).2
    · split at h
      all_goals cases h
    · cases h
  · rintro ⟨b, hb, rfl⟩
    rw [readListEnd, hb.skip rfl]
    rfl

/-- A colon is found behind blanks. -/
theorem readColon_eq_ok_iff {t rest : Text} :
    readColon t = .ok rest ↔ ∃ b, Blanks b ∧ t = b ++ ':' :: rest := by
  constructor
  · intro h
    unfold readColon at h
    split at h
    · cases h
    · next hskip =>
      cases h
      exact (skipBlanks_eq_cons_iff.mp hskip).2
    · cases h
  · rintro ⟨b, hb, rfl⟩
    rw [readColon, hb.skip rfl]
    rfl

-- ---------------------------------------------------------------------------
-- The next item
-- ---------------------------------------------------------------------------

/-- A list stops at its bracket, behind blanks. -/
theorem nextItem_eq_stop_iff {isFirst : Bool} {t rest : Text} :
    nextItem isFirst t = .ok (.stop rest) ↔
      ∃ b r, Blanks b ∧ rest = ']' :: r ∧ t = b ++ rest := by
  constructor
  · intro h
    unfold nextItem at h
    split at h
    · cases h
    · next r hskip =>
      cases h
      obtain ⟨-, b, hb, rfl⟩ := skipBlanks_eq_cons_iff.mp hskip
      exact ⟨b, r, hb, rfl, rfl⟩
    · split at h
      · cases h
      split at h
      · split at h
        all_goals cases h
      · cases h
  · rintro ⟨b, r, hb, rfl, rfl⟩
    rw [nextItem, hb.skip rfl]
    rfl

/-- What leads to an item is passed over, if an item opens behind it. -/
theorem nextItem_leads {isFirst : Bool} {lead rest : Text} (hlead : Leads isFirst lead)
    (hopens : Opens ']' rest) : nextItem isFirst (lead ++ rest) = .ok (.item rest) := by
  obtain ⟨c, r, rfl, hc, hclose⟩ := hopens
  cases hlead with
  | first hb =>
    rw [nextItem, hb.skip hc]
    split
    · next heq => cases heq
    · next heq =>
      cases heq
      exact absurd rfl hclose
    · next heq =>
      cases heq
      rfl
  | later hb hb' =>
    rw [List.append_assoc, List.cons_append, nextItem, hb.skip rfl]
    show ite (false = true) _ (ite (',' = ',') _ _) = _
    rw [if_neg Bool.false_ne_true, if_pos rfl, hb'.skip hc]
    split
    · next heq => cases heq
    · next heq =>
      cases heq
      exact absurd rfl hclose
    · rfl

/-- The next item of a list starts behind what leads to it. -/
theorem nextItem_eq_item_iff {isFirst : Bool} {t rest : Text} :
    nextItem isFirst t = .ok (.item rest) ↔
      Opens ']' rest ∧ ∃ lead, Leads isFirst lead ∧ t = lead ++ rest := by
  constructor
  · intro h
    -- an item is found in two branches: the first one, and one behind a comma
    unfold nextItem at h
    split at h
    · cases h
    · cases h
    · next c r hclose hskip =>
      obtain ⟨hc, b, hb, rfl⟩ := skipBlanks_eq_cons_iff.mp hskip
      split at h
      · next hfirst =>
        cases h
        exact ⟨⟨c, r, rfl, hc, hclose⟩, b, hfirst ▸ .first hb, rfl⟩
      split at h
      · next hfirst hcomma =>
        rw [Bool.not_eq_true] at hfirst
        subst hfirst hcomma
        obtain ⟨b', hb', hr⟩ := exists_blanks r
        split at h
        · cases h
        · cases h
        · next hnil hclose' =>
          cases h
          refine ⟨opens_skipBlanks hnil hclose', _, .later hb hb', ?_⟩
          rw [List.append_assoc, List.cons_append, ← hr]
      · cases h
  · rintro ⟨hopens, lead, hlead, rfl⟩
    exact nextItem_leads hlead hopens

/-- An object stops at its brace, behind blanks. -/
theorem nextKey_eq_stop_iff {isFirst : Bool} {t rest : Text} :
    nextKey isFirst t = .ok (.stop rest) ↔
      ∃ b r, Blanks b ∧ rest = '\x7d' :: r ∧ t = b ++ rest := by
  constructor
  · intro h
    unfold nextKey at h
    split at h
    · cases h
    · next r hskip =>
      cases h
      obtain ⟨-, b, hb, rfl⟩ := skipBlanks_eq_cons_iff.mp hskip
      exact ⟨b, r, hb, rfl, rfl⟩
    · split at h
      · split at h
        all_goals cases h
      split at h
      · split at h
        all_goals cases h
      · cases h
  · rintro ⟨b, r, hb, rfl, rfl⟩
    rw [nextKey, hb.skip rfl]
    rfl

/-- What leads to a key is passed over, up to behind its quote. -/
theorem nextKey_leads {isFirst : Bool} {lead : Text} (hlead : Leads isFirst lead) (rest : Text) :
    nextKey isFirst (lead ++ '"' :: rest) = .ok (.item rest) := by
  cases hlead with
  | first hb =>
    rw [nextKey, hb.skip rfl]
    rfl
  | later hb hb' =>
    rw [List.append_assoc, List.cons_append, nextKey, hb.skip rfl]
    show ite (false = true) _ (ite (',' = ',') _ _) = _
    rw [if_neg Bool.false_ne_true, if_pos rfl, hb'.skip rfl]
    rfl

/-- The next key of an object has its quote behind what leads to it. -/
theorem nextKey_eq_item_iff {isFirst : Bool} {t rest : Text} :
    nextKey isFirst t = .ok (.item rest) ↔
      ∃ lead, Leads isFirst lead ∧ t = lead ++ '"' :: rest := by
  constructor
  · intro h
    -- a key is found in two branches as well, each with a quote
    unfold nextKey at h
    split at h
    · cases h
    · cases h
    · next c r hclose hskip =>
      obtain ⟨hc, b, hb, rfl⟩ := skipBlanks_eq_cons_iff.mp hskip
      split at h
      · next hfirst =>
        split at h
        · next hquote =>
          cases h
          exact ⟨b, hfirst ▸ .first hb, hquote ▸ rfl⟩
        · cases h
      split at h
      · next hfirst hcomma =>
        rw [Bool.not_eq_true] at hfirst
        subst hfirst hcomma
        split at h
        · cases h
        · next hskip' =>
          cases h
          obtain ⟨-, b', hb', rfl⟩ := skipBlanks_eq_cons_iff.mp hskip'
          refine ⟨_, .later hb hb', ?_⟩
          rw [List.append_assoc, List.cons_append]
        all_goals cases h
      · cases h
  · rintro ⟨lead, hlead, rfl⟩
    exact nextKey_leads hlead rest

-- ---------------------------------------------------------------------------
-- Lists of strings
-- ---------------------------------------------------------------------------

theorem IsString.opens {value s : Text} (h : IsString value s) {close : Char} (hclose : close ≠ '"')
    (rest : Text) : Opens close (s ++ rest) := by
  cases h with
  | quoted h => exact ⟨'"', _, rfl, rfl, hclose.symm⟩

/-- The items of a list of strings are read up to the closing bracket. -/
theorem readTextItems_eq_ok_iff {isFirst : Bool} {t rest : Text} {values : List Text} :
    readTextItems isFirst t = .ok (values, rest) ↔
      ∃ s r, Items IsString isFirst values s ∧ rest = ']' :: r ∧ t = s ++ rest := by
  constructor
  · intro h
    -- one item a step; only the end and an item with others behind it succeed
    fun_induction readTextItems isFirst t generalizing values with
    | case2 isFirst t stop hnext =>
      cases h
      obtain ⟨b, r, hb, hr, ht⟩ := nextItem_eq_stop_iff.mp hnext
      exact ⟨b, r, .stop hb, hr, ht⟩
    | case5 isFirst t item hnext value behind hread values stop hmore ih =>
      cases h
      obtain ⟨-, lead, hlead, rfl⟩ := nextItem_eq_item_iff.mp hnext
      obtain ⟨b, s, hb, hs, rfl⟩ := (reads_readText _ _ _ _).mp hread
      obtain ⟨s', r, hs', rfl, rfl⟩ := ih hmore
      exact ⟨_, r, .item (hlead.append hb) hs hs', rfl, by simp⟩
    | _ => cases h
  · rintro ⟨s, r, hs, rfl, rfl⟩
    -- the other way the spelling is followed, item by item
    induction hs with
    | @stop isFirst b hb =>
      rw [readTextItems, nextItem_eq_stop_iff.mpr ⟨b, r, hb, rfl, rfl⟩]
    | @item isFirst lead s t x xs hlead hx h ih =>
      have hnext : nextItem isFirst (lead ++ (s ++ t) ++ ']' :: r) =
          .ok (.item (s ++ (t ++ ']' :: r))) :=
        nextItem_eq_item_iff.mpr ⟨hx.opens (by decide) _, lead, hlead, by simp⟩
      have hread : readText "a string" (s ++ (t ++ ']' :: r)) = .ok (x, t ++ ']' :: r) :=
        (reads_readText _ _ _ _).mpr ⟨[], s, blanks_nil, hx, rfl⟩
      rw [readTextItems, hnext]
      dsimp only
      rw [hread]
      dsimp only
      rw [ih]

/-- The reader of lists of strings accepts exactly these. -/
theorem reads_readTexts : Reads readTexts (IsList IsString) := by
  intro t values rest
  constructor
  · intro h
    unfold readTexts at h
    split at h
    · cases h
    · next hskip =>
      obtain ⟨-, b, hb, rfl⟩ := skipBlanks_eq_cons_iff.mp hskip
      obtain ⟨⟨values, stop⟩, hitems, h⟩ := exceptBind_eq_ok_iff.mp h
      obtain ⟨rest, hend, h⟩ := exceptBind_eq_ok_iff.mp h
      cases h
      -- the items end in front of the bracket, which is read last
      obtain ⟨s, r, hs, rfl, rfl⟩ := readTextItems_eq_ok_iff.mp hitems
      cases hend
      exact ⟨b, _, hb, .brackets hs, by simp⟩
    · cases h
  · rintro ⟨b, _, hb, ⟨hs⟩, rfl⟩
    have hitems := readTextItems_eq_ok_iff.mpr ⟨_, rest, hs, rfl, rfl⟩
    rw [readTexts, List.cons_append, hb.skip rfl, List.append_assoc]
    show (readTextItems true (_ ++ ']' :: rest) >>= _) = _
    rw [hitems]
    rfl

-- ---------------------------------------------------------------------------
-- Names
-- ---------------------------------------------------------------------------

/-- A literal is read letter by letter. -/
theorem readLiteral_eq_ok_iff {literal t rest : Text} :
    readLiteral literal t = .ok rest ↔ t = literal ++ rest := by
  fun_induction readLiteral literal t with
  | case1 => simp
  | case2 => simp
  | case3 => simp [*]
  | case4 c cs d t hne => simp [Ne.symm hne]

/-- The word `null` is read behind blanks. -/
theorem readNull_eq_ok_iff {expected : String} {t rest : Text} :
    readNull expected t = .ok rest ↔ ∃ b, Blanks b ∧ t = b ++ ("null".toList ++ rest) := by
  constructor
  · intro h
    unfold readNull at h
    split at h
    · cases h
    · next r hskip =>
      obtain ⟨-, b, hb, rfl⟩ := skipBlanks_eq_cons_iff.mp hskip
      rw [readLiteral_eq_ok_iff] at h
      exact ⟨b, hb, h ▸ rfl⟩
    · cases h
  · rintro ⟨b, hb, rfl⟩
    show readNull expected (b ++ 'n' :: ("ull".toList ++ rest)) = _
    rw [readNull, hb.skip rfl]
    exact readLiteral_eq_ok_iff.mpr rfl

theorem variant_eq_ok_iff {α : Type} {variants : List (String × α)} {name rest : Text}
    {value : α} : variant variants name rest = .ok value ↔
      variants.lookup (String.ofList name) = some value := by
  unfold variant
  cases variants.lookup (String.ofList name) <;> simp

/-- A name by itself is read as the value of the table. -/
theorem readVariant_name {α : Type} {variants : List (String × α)} {name b s : Text} {value : α}
    (hvalue : variants.lookup (String.ofList name) = some value) (hb : Blanks b)
    (h : IsString name s) (rest : Text) :
    readVariant variants (b ++ (s ++ rest)) = .ok (value, rest) := by
  cases h with
  | @quoted s hs =>
    have hname : readString (s ++ ['"'] ++ rest) = .ok (name, rest) :=
      readString_eq_ok_iff.mpr ⟨s, hs, by simp⟩
    rw [readVariant, List.cons_append, hb.skip rfl]
    show (readString _ >>= _) = _
    rw [hname]
    show (variant variants name rest >>= _) = _
    rw [variant_eq_ok_iff.mpr hvalue]
    rfl

/-- The object is read word by word; what is left behind each word is the rest of it. -/
theorem readVariant_object {α : Type} {variants : List (String × α)}
    {name b b₁ b₂ b₃ b₄ s : Text} {value : α}
    (hvalue : variants.lookup (String.ofList name) = some value) (hb : Blanks b)
    (hb₁ : Blanks b₁) (h : IsString name s) (hb₂ : Blanks b₂) (hb₃ : Blanks b₃) (hb₄ : Blanks b₄)
    (rest : Text) :
    readVariant variants (b ++ ('\x7b' :: (b₁ ++ (s ++ (b₂ ++ ':' :: (b₃ ++ ("null".toList ++
      (b₄ ++ ['\x7d'])))))) ++ rest)) = .ok (value, rest) := by
  cases h with
  | @quoted s hs =>
    have hname : readString (s ++ '"' :: (b₂ ++ ':' :: (b₃ ++ ("null".toList ++
        (b₄ ++ '\x7d' :: rest))))) = .ok (name, _) :=
      readString_eq_ok_iff.mpr ⟨s, hs, rfl⟩
    have hcolon : readColon (b₂ ++ ':' :: (b₃ ++ ("null".toList ++ (b₄ ++ '\x7d' :: rest)))) =
        .ok _ :=
      readColon_eq_ok_iff.mpr ⟨b₂, hb₂, rfl⟩
    have hnull : readNull "unit" (b₃ ++ ("null".toList ++ (b₄ ++ '\x7d' :: rest))) = .ok _ :=
      readNull_eq_ok_iff.mpr ⟨b₃, hb₃, rfl⟩
    rw [readVariant, List.cons_append, hb.skip rfl]
    simp only [List.append_assoc, List.cons_append, List.nil_append]
    rw [hb₁.skip rfl]
    show (readString _ >>= _) = _
    rw [hname]
    show (variant variants name _ >>= _) = _
    rw [variant_eq_ok_iff.mpr hvalue]
    show (readColon _ >>= _) = _
    rw [hcolon]
    show (readNull "unit" _ >>= _) = _
    rw [hnull]
    dsimp only [bind, Except.bind]
    rw [hb₄.skip rfl]
    rfl

/-- **A named value is read exactly from its name**, by itself or as the key of an object. -/
theorem reads_readVariant {α : Type} (variants : List (String × α)) :
    Reads (readVariant variants) fun value s =>
      ∃ name, variants.lookup (String.ofList name) = some value ∧ IsName name s := by
  intro t value rest
  constructor
  · intro h
    unfold readVariant at h
    split at h
    · cases h
    · -- a quote: the name by itself
      next r hskip =>
      obtain ⟨-, b, hb, rfl⟩ := skipBlanks_eq_cons_iff.mp hskip
      obtain ⟨⟨name, rest⟩, hname, h⟩ := exceptBind_eq_ok_iff.mp h
      obtain ⟨value, hvalue, h⟩ := exceptBind_eq_ok_iff.mp h
      cases h
      obtain ⟨s, hs, rfl⟩ := readString_eq_ok_iff.mp hname
      exact ⟨b, _, hb, ⟨name, variant_eq_ok_iff.mp hvalue, .string (.quoted hs)⟩, by simp⟩
    · -- a brace: the name as the key of an object
      next r hskip =>
      obtain ⟨-, b, hb, rfl⟩ := skipBlanks_eq_cons_iff.mp hskip
      split at h
      · cases h
      · next r' hskip' =>
        obtain ⟨-, b₁, hb₁, rfl⟩ := skipBlanks_eq_cons_iff.mp hskip'
        obtain ⟨⟨name, r₁⟩, hname, h₁⟩ := exceptBind_eq_ok_iff.mp h
        obtain ⟨value, hvalue, h₂⟩ := exceptBind_eq_ok_iff.mp h₁
        obtain ⟨r₂, hcolon, h₃⟩ := exceptBind_eq_ok_iff.mp h₂
        obtain ⟨r₃, hnull, h₄⟩ := exceptBind_eq_ok_iff.mp h₃
        obtain ⟨s, hs, rfl⟩ := readString_eq_ok_iff.mp hname
        obtain ⟨b₂, hb₂, rfl⟩ := readColon_eq_ok_iff.mp hcolon
        obtain ⟨b₃, hb₃, rfl⟩ := readNull_eq_ok_iff.mp hnull
        split at h₄
        · next hend =>
          obtain ⟨-, b₄, hb₄, rfl⟩ := skipBlanks_eq_cons_iff.mp hend
          cases h₄
          exact ⟨b, _, hb, ⟨name, variant_eq_ok_iff.mp hvalue,
            .object hb₁ (.quoted hs) hb₂ hb₃ hb₄⟩, by simp⟩
        all_goals cases h₄
      all_goals cases h
    · cases h
  · rintro ⟨b, s, hb, ⟨name, hvalue, hs⟩, rfl⟩
    cases hs with
    | string h => exact readVariant_name hvalue hb h rest
    | object hb₁ h hb₂ hb₃ hb₄ => exact readVariant_object hvalue hb hb₁ h hb₂ hb₃ hb₄ rest

end BlockExplorer.Json
