import BlockExplorer.Proofs.Json.Acceptance

/-!
# BlockExplorer — objects of strings

An object of strings is spelled in many ways, by blanks between its words and
by escapes in its strings, but a text never spells two objects. This is no
matter of one writer: `Definite` says of a spelling that the front of a text has
at most one value and one end. A spelling that has a reader is definite
(`Reads.definite`), and an object is made of definite parts. So nothing that a
string has in it can be taken for the layout around it.

Main results:

* `definite_isObject` — an object has one list of entries, in one order.
* `holdsObject_prettyObject_iff` — what is printed is an object of the entries, and
  of no others.
-/

namespace BlockExplorer.Json

-- ---------------------------------------------------------------------------
-- Objects
-- ---------------------------------------------------------------------------

/-- A key, and behind a colon its value. -/
inductive IsPair : Text × Text → Text → Prop where
  | colon {key value s s' b b' : Text} (hkey : IsString key s) (hb : Blanks b) (hb' : Blanks b')
      (hvalue : IsString value s') : IsPair (key, value) (s ++ (b ++ ':' :: (b' ++ s')))

/-- An object of strings between its braces, the entries in the order in which they stand. -/
inductive IsObject (entries : List (Text × Text)) : Text → Prop where
  | braces {t : Text} (h : Items IsPair true entries t) :
      IsObject entries ('\x7b' :: (t ++ ['\x7d']))

/-- The document is an object with these entries, and nothing but blanks around it. -/
def HoldsObject (document : Text) (entries : List (Text × Text)) : Prop :=
  ∃ b s b', Blanks b ∧ IsObject entries s ∧ Blanks b' ∧ document = b ++ (s ++ b')

-- ---------------------------------------------------------------------------
-- One spelling at the front of a text
-- ---------------------------------------------------------------------------

/-- Behind its blanks the front of a text spells at most one value, and the spelling has one
end. -/
def Definite {α : Type} (Spells : α → Text → Prop) : Prop :=
  ∀ ⦃x y : α⦄ ⦃b b' s s' r r' : Text⦄, Blanks b → Blanks b' → Spells x s → Spells y s' →
    b ++ (s ++ r) = b' ++ (s' ++ r') → x = y ∧ r = r'

/-- What has a reader is definite. -/
theorem Reads.definite {α : Type} {read : Text → Except Fault (α × Text)}
    {Spells : α → Text → Prop} (hread : Reads read Spells) : Definite Spells := by
  intro x y b b' s s' r r' hb hb' hx hy ht
  -- the reader gives both values for the same text
  have hfirst : read (b ++ (s ++ r)) = .ok (x, r) := (hread _ _ _).mpr ⟨b, s, hb, hx, rfl⟩
  have hsecond : read (b ++ (s ++ r)) = .ok (y, r') := (hread _ _ _).mpr ⟨b', s', hb', hy, ht⟩
  have hboth : (x, r) = (y, r') := Except.ok.inj (hfirst.symm.trans hsecond)
  exact Prod.mk.inj hboth

theorem definite_isString : Definite IsString :=
  (reads_readText "a string").definite

/-- Blanks end at the first character that is none. -/
theorem blanks_definite {b b' r r' : Text} {c c' : Char} (hb : Blanks b) (hb' : Blanks b')
    (hc : isBlank c = false) (hc' : isBlank c' = false) (ht : b ++ c :: r = b' ++ c' :: r') :
    c = c' ∧ r = r' := by
  have hskip : c :: r = c' :: r' := by
    rw [← hb.skip hc r, ht, hb'.skip hc' r']
  exact List.cons.inj hskip

/-- The key, the colon and the value are found in one way, each behind its blanks. -/
theorem definite_isPair : Definite IsPair := by
  intro pair pair' b b' s s' r r' hb hb' hpair hpair' ht
  obtain ⟨hkey, hb₁, hb₂, hvalue⟩ := hpair
  obtain ⟨hkey', hb₁', hb₂', hvalue'⟩ := hpair'
  simp only [List.append_assoc, List.cons_append] at ht
  -- key, colon and value, each behind the blanks before it
  obtain ⟨rfl, hcolon⟩ := definite_isString hb hb' hkey hkey' ht
  obtain ⟨-, hbehind⟩ := blanks_definite hb₁ hb₁' rfl rfl hcolon
  obtain ⟨rfl, hrest⟩ := definite_isString hb₂ hb₂' hvalue hvalue' hbehind
  exact ⟨rfl, hrest⟩

theorem IsPair.quote {pair : Text × Text} {s : Text} (h : IsPair pair s) : ∃ t, s = '"' :: t := by
  obtain ⟨⟨hkey⟩, -, -, -⟩ := h
  exact ⟨_, rfl⟩

-- ---------------------------------------------------------------------------
-- Entries up to the closing brace
-- ---------------------------------------------------------------------------

/-- What leads to a quote ends there. -/
theorem leads_definite {isFirst : Bool} {lead lead' r r' : Text} (h : Leads isFirst lead)
    (h' : Leads isFirst lead') (ht : lead ++ '"' :: r = lead' ++ '"' :: r') : r = r' := by
  have hfirst := nextKey_leads h r
  have hsecond := nextKey_leads h' r'
  rw [← ht, hfirst] at hsecond
  exact Next.item.inj (Except.ok.inj hsecond)

/-- A text does not go on with an entry and stop as well. -/
theorem leads_ne_stop {isFirst : Bool} {lead b r r' : Text} (h : Leads isFirst lead)
    (hb : Blanks b) : lead ++ '"' :: r ≠ b ++ '\x7d' :: r' := by
  intro ht
  have hitem := nextKey_leads h r
  have hstop : nextKey isFirst (lead ++ '"' :: r) = .ok (.stop ('\x7d' :: r')) :=
    nextKey_eq_stop_iff.mpr ⟨b, r', hb, rfl, ht⟩
  rw [hitem] at hstop
  cases hstop

/-- **Entries are read in one way** up to the closing brace. The induction is on the entries of one
reading; the other reading has an entry wherever this one has. -/
theorem items_definite {isFirst : Bool} {xs ys : List (Text × Text)} {s s' r r' : Text}
    (hxs : Items IsPair isFirst xs s) (hys : Items IsPair isFirst ys s')
    (ht : s ++ '\x7d' :: r = s' ++ '\x7d' :: r') : xs = ys ∧ r = r' := by
  -- either reading has an entry where the other has one, and stops where it stops
  induction hxs generalizing ys s' with
  | stop hb =>
    cases hys with
    | stop hb' => exact ⟨rfl, (blanks_definite hb hb' rfl rfl ht).2⟩
    | item hlead hy h =>
      obtain ⟨t, rfl⟩ := hy.quote
      simp only [List.append_assoc, List.cons_append] at ht
      exact absurd ht.symm (leads_ne_stop hlead hb)
  | item hlead hx hmore ih =>
    obtain ⟨t, ht'⟩ := hx.quote
    cases hys with
    | stop hb =>
      subst ht'
      simp only [List.append_assoc, List.cons_append] at ht
      exact absurd ht (leads_ne_stop hlead hb)
    | item hlead' hy hmore' =>
      obtain ⟨t', ht''⟩ := hy.quote
      subst ht' ht''
      simp only [List.append_assoc, List.cons_append] at ht
      have hbehind := congrArg ('"' :: ·) (leads_definite hlead hlead' ht)
      obtain ⟨rfl, hrest⟩ := definite_isPair blanks_nil blanks_nil hx hy hbehind
      obtain ⟨rfl, rfl⟩ := ih hmore' hrest
      exact ⟨rfl, rfl⟩

/-- An object has one list of entries, in one order, and one end. -/
theorem definite_isObject : Definite IsObject := by
  intro entries entries' b b' s s' r r' hb hb' h h' ht
  obtain ⟨h⟩ := h
  obtain ⟨h'⟩ := h'
  simp only [List.append_assoc, List.cons_append] at ht
  exact items_definite h h' (blanks_definite hb hb' rfl rfl ht).2

/-- An object by itself is a document that holds it. -/
theorem IsObject.holds {entries : List (Text × Text)} {s : Text} (h : IsObject entries s) :
    HoldsObject s entries :=
  ⟨[], s, [], blanks_nil, h, blanks_nil, s.append_nil.symm⟩

/-- **A document holds one object at most.** -/
theorem HoldsObject.eq {document : Text} {entries entries' : List (Text × Text)}
    (h : HoldsObject document entries) (h' : HoldsObject document entries') :
    entries = entries' := by
  obtain ⟨b, s, r, hb, hobject, -, hdocument⟩ := h
  obtain ⟨b', s', r', hb', hobject', -, hdocument'⟩ := h'
  exact (definite_isObject hb hb' hobject hobject' (hdocument.symm.trans hdocument')).1

-- ---------------------------------------------------------------------------
-- What is printed
-- ---------------------------------------------------------------------------

theorem blanks_of_all {b : Text} (h : b.all isBlank = true) : Blanks b :=
  fun c hc => isBlank_iff.mp (List.all_eq_true.mp h c hc)

theorem blanks_indent : Blanks ['\n', ' ', ' '] :=
  blanks_of_all rfl

theorem isString_string (t : Text) : IsString t (string t) := by
  obtain ⟨s, hs, ht⟩ := readString_eq_ok_iff.mp (readString_flatMap t [])
  have hsame : t.flatMap escaped = s := List.append_cancel_right ht
  rw [← List.append_nil (string t), string_append, hsame]
  exact .quoted hs

/-- The line of an entry is the entry, behind a line feed and two spaces. -/
theorem isPair_entryLine (key value : Text) :
    ∃ s, IsPair (key, value) s ∧ entryLine key value = ['\n', ' ', ' '] ++ s := by
  have hcolon : IsPair (key, value) (string key ++ ([] ++ ':' :: ([' '] ++ string value))) :=
    .colon (isString_string key) blanks_nil (blanks_of_all rfl) (isString_string value)
  exact ⟨_, hcolon, by simp [entryLine]⟩

/-- The entries behind the first, each with a comma before it. -/
theorem items_flatMap (entries : List (Text × Text)) :
    Items IsPair false entries
      ((entries.map fun (key, value) => entryLine key value).flatMap ([','] ++ ·) ++ ['\n']) := by
  induction entries with
  | nil => exact .stop (blanks_of_all rfl)
  | cons entry entries ih =>
    obtain ⟨key, value⟩ := entry
    obtain ⟨s, hs, hline⟩ := isPair_entryLine key value
    have hitems := Items.item (.later blanks_nil blanks_indent) hs ih
    simpa [hline] using hitems

/-- What is printed is an object of the entries. -/
theorem isObject_prettyObject (entries : List (Text × Text)) :
    IsObject entries (prettyObject entries) := by
  cases entries with
  | nil => exact .braces (.stop blanks_nil)
  | cons entry entries =>
    obtain ⟨key, value⟩ := entry
    obtain ⟨s, hs, hline⟩ := isPair_entryLine key value
    have hitems := IsObject.braces (.item (.first blanks_indent) hs (items_flatMap entries))
    simpa [prettyObject, Text.join_cons, hline] using hitems

/-- **What is printed is an object of the entries, and of no others**, also with blanks behind
it. -/
theorem holdsObject_prettyObject_iff {printed entries : List (Text × Text)} {b : Text}
    (hb : Blanks b) : HoldsObject (prettyObject printed ++ b) entries ↔ entries = printed := by
  have hprinted : HoldsObject (prettyObject printed ++ b) printed :=
    ⟨[], _, b, blanks_nil, isObject_prettyObject printed, hb, rfl⟩
  constructor
  · intro h
    exact h.eq hprinted
  · intro h
    rwa [h]

end BlockExplorer.Json
