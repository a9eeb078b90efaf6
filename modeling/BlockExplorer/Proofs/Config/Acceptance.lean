import Mathlib.Tactic.Tauto
import BlockExplorer.Proofs.Config.RoundTrip
import BlockExplorer.Proofs.Json.Acceptance

/-!
# BlockExplorer — documents of settings

Which documents hold settings, and which settings they hold. A document is an
object, its keys the names of distinct fields in any order, or a list of values
for the first fields, in their order; `Denotes` relates it to the assignment that
makes exactly these settings. Reading follows the grammar from item to item
(`readObject_eq_ok_iff`, `readFields_eq_ok_iff`) and so accepts a document exactly
when it denotes an assignment. How it is spelled does not matter any more then.

Main results:

* `ofText_assignment_eq_ok_iff` — a document is read as the assignment it denotes.
* `ofText_of_denotes` — settings are refused as malformed exactly when the document
  denotes nothing; otherwise they are the defaults with the assignment, checked.
-/

namespace BlockExplorer

open Json

-- ---------------------------------------------------------------------------
-- Settings
-- ---------------------------------------------------------------------------

/-- A field with a value. -/
inductive Setting where
  | logLevel (level : Text)
  | logDir (path : Option Text)
  | decodeMode (mode : DecodeMode)
  | byteFormat (format : ByteFormat)
  | redactedKeys (keys : List Text)

namespace Setting

def field : Setting → Field
  | logLevel _ => .logLevel
  | logDir _ => .logDir
  | decodeMode _ => .decodeMode
  | byteFormat _ => .byteFormat
  | redactedKeys _ => .redactedKeys

theorem forall_iff {P : Setting → Prop} :
    (∀ x, P x) ↔ (∀ level, P (logLevel level)) ∧ (∀ path, P (logDir path)) ∧
      (∀ mode, P (decodeMode mode)) ∧ (∀ format, P (byteFormat format)) ∧
      ∀ keys, P (redactedKeys keys) := by
  constructor
  · intro h
    exact ⟨fun _ => h _, fun _ => h _, fun _ => h _, fun _ => h _, fun _ => h _⟩
  · rintro ⟨hlevel, hdir, hmode, hformat, hkeys⟩ x
    cases x with
    | logLevel level => exact hlevel level
    | logDir path => exact hdir path
    | decodeMode mode => exact hmode mode
    | byteFormat format => exact hformat format
    | redactedKeys keys => exact hkeys keys

/-- A path, or `null` for none. -/
inductive IsPath : Option Text → Text → Prop where
  | none : IsPath none "null".toList
  | some {path s : Text} (h : IsString path s) : IsPath (some path) s

/-- The value of a setting, as a document may write it. -/
def IsValue : Setting → Text → Prop
  | logLevel level => IsString level
  | logDir path => IsPath path
  | decodeMode mode => IsName mode.name.toList
  | byteFormat format => IsName format.name.toList
  | redactedKeys keys => IsList IsString keys

/-- An entry of an object: the name of the field, a colon and the value. -/
inductive IsEntry (x : Setting) : Text → Prop where
  | entry {key b b' value : Text} (hkey : IsString x.field.name.toList key) (hb : Blanks b)
      (hb' : Blanks b') (hvalue : IsValue x value) : IsEntry x (key ++ (b ++ ':' :: (b' ++ value)))

end Setting

namespace Assignment

/-- The assignment gives the setting's value to its field. -/
def Makes (a : Assignment) : Setting → Prop
  | .logLevel level => a.logLevel = some level
  | .logDir path => a.logDir = some path
  | .decodeMode mode => a.decodeMode = some mode
  | .byteFormat format => a.byteFormat = some format
  | .redactedKeys keys => a.redactedKeys = some keys

/-- The assignment with one more setting. -/
def make (a : Assignment) : Setting → Assignment
  | .logLevel level => { a with logLevel := some level }
  | .logDir path => { a with logDir := some path }
  | .decodeMode mode => { a with decodeMode := some mode }
  | .byteFormat format => { a with byteFormat := some format }
  | .redactedKeys keys => { a with redactedKeys := some keys }

/-- An assignment is determined by the settings that it makes. -/
theorem ext_makes {a a' : Assignment} (h : ∀ x, a.Makes x ↔ a'.Makes x) : a = a' := by
  have hlevel : a.logLevel = a'.logLevel := Option.ext fun level => h (.logLevel level)
  have hdir : a.logDir = a'.logDir := Option.ext fun path => h (.logDir path)
  have hmode : a.decodeMode = a'.decodeMode := Option.ext fun mode => h (.decodeMode mode)
  have hformat : a.byteFormat = a'.byteFormat := Option.ext fun format => h (.byteFormat format)
  have hkeys : a.redactedKeys = a'.redactedKeys := Option.ext fun keys => h (.redactedKeys keys)
  cases a
  cases a'
  simp_all

/-- A setting that is made stands over the ones of its field, and over no others. -/
theorem makes_make {a : Assignment} {x y : Setting} :
    (a.make x).Makes y ↔ y = x ∨ a.Makes y ∧ y.field ≠ x.field := by
  cases x <;> cases y <;> simp [make, Makes, Setting.field, eq_comm]

theorem not_makes_empty (x : Setting) : ¬ Makes {} x := by
  cases x <;> exact (nomatch ·)

/-- The induction is on the settings; a later one of the same field would replace an earlier. -/
theorem makes_foldl_make {settings : List Setting} (hkeys : (settings.map Setting.field).Nodup)
    (a : Assignment) (y : Setting) :
    (settings.foldl make a).Makes y ↔
      y ∈ settings ∨ a.Makes y ∧ y.field ∉ settings.map Setting.field := by
  induction settings generalizing a with
  | nil => simp
  | cons x settings ih =>
    rw [List.map_cons, List.nodup_cons] at hkeys
    have hx : y = x → y.field ∉ settings.map Setting.field := by
      rintro rfl
      exact hkeys.1
    rw [List.foldl_cons, ih hkeys.2, makes_make, List.map_cons, List.mem_cons, List.mem_cons]
    tauto

/-- Settings of distinct fields, made one after the other, are all that is assigned. -/
theorem eq_foldl_make_iff {settings : List Setting} (hkeys : (settings.map Setting.field).Nodup)
    {a : Assignment} : a = settings.foldl make {} ↔ ∀ x, a.Makes x ↔ x ∈ settings := by
  have hmakes : ∀ x, (settings.foldl make {}).Makes x ↔ x ∈ settings := by
    intro x
    rw [makes_foldl_make hkeys, or_iff_left]
    exact fun h => not_makes_empty x h.1
  constructor
  · rintro rfl
    exact hmakes
  · intro h
    exact ext_makes fun x => (h x).trans (hmakes x).symm

end Assignment

namespace Config

-- ---------------------------------------------------------------------------
-- Values
-- ---------------------------------------------------------------------------

/-- A directory is read where a path, or `null` for none, is written. -/
theorem reads_readDirectory : Reads readDirectory Setting.IsPath := by
  intro t path rest
  constructor
  · intro h
    -- an `n` can only begin `null`, which stands for no path
    unfold readDirectory at h
    split at h
    · next r hskip =>
      obtain ⟨-, b, hb, rfl⟩ := skipBlanks_eq_cons_iff.mp hskip
      obtain ⟨rest', hnull, h⟩ := exceptBind_eq_ok_iff.mp h
      cases h
      rw [readLiteral_eq_ok_iff] at hnull
      exact ⟨b, _, hb, .none, hnull ▸ rfl⟩
    · obtain ⟨⟨path, rest'⟩, hread, h⟩ := exceptBind_eq_ok_iff.mp h
      cases h
      obtain ⟨b, hb, ht⟩ := exists_blanks t
      obtain ⟨b', s, hb', hs, hskip⟩ := (reads_readText _ _ _ _).mp hread
      refine ⟨b ++ b', s, hb.append hb', .some hs, ?_⟩
      rw [ht, hskip, List.append_assoc]
  · rintro ⟨b, s, hb, hs, rfl⟩
    cases hs with
    | none =>
      show readDirectory (b ++ 'n' :: ("ull".toList ++ rest)) = _
      rw [readDirectory, hb.skip rfl]
      rfl
    | @some path s hs =>
      have hread : readText "path string" (s ++ rest) = .ok (path, rest) :=
        (reads_readText _ _ _ _).mpr ⟨[], s, blanks_nil, hs, rfl⟩
      cases hs with
      | quoted hs =>
        rw [readDirectory, List.cons_append, hb.skip rfl]
        show (readText "path string" _ >>= _) = _
        rw [← List.cons_append, hread]
        rfl

/-- Looking up a name among values with names of their own finds the value with this name. -/
theorem lookup_name_iff {α : Type} {name : α → String} (hinj : ∀ v w, name v = name w → v = w)
    {values : List α} {t : Text} {v : α} :
    (values.map fun w => (name w, w)).lookup (String.ofList t) = some v ↔
      v ∈ values ∧ t = (name v).toList := by
  induction values with
  | nil => simp
  | cons w values ih =>
    rw [List.map_cons, List.lookup_cons]
    -- the first value has the name, or the name is looked up among the others
    by_cases hw : String.ofList t = name w
    · have ht : t = (name w).toList := by rw [← hw, String.toList_ofList]
      rw [beq_iff_eq.mpr hw]
      show some w = some v ↔ _
      rw [Option.some.injEq]
      constructor
      · rintro rfl
        exact ⟨List.mem_cons_self, ht⟩
      · rintro ⟨-, ht'⟩
        exact hinj w v (String.toList_injective (ht ▸ ht'))
    · rw [beq_eq_false_iff_ne.mpr hw]
      show (values.map fun w => (name w, w)).lookup (String.ofList t) = some v ↔ _
      rw [ih, List.mem_cons]
      refine and_congr_left fun ht => (or_iff_right ?_).symm
      rintro rfl
      exact hw (ht ▸ String.ofList_toList)

theorem reads_decodeMode : Reads (readVariant DecodeMode.variants) fun mode =>
    IsName mode.name.toList := by
  have hinj : ∀ v w : DecodeMode, v.name = w.name → v = w := by
    intro v w h
    cases v <;> cases w <;> first | rfl | exact absurd h (by decide)
  have hall : ∀ mode : DecodeMode, mode ∈ [.lenient, .strict] := by
    intro mode
    cases mode <;> decide
  intro t mode rest
  simp only [reads_readVariant _ t mode rest, DecodeMode.variants, lookup_name_iff hinj, hall mode,
    true_and, exists_eq_left]

theorem reads_byteFormat : Reads (readVariant ByteFormat.variants) fun format =>
    IsName format.name.toList := by
  have hinj : ∀ v w : ByteFormat, v.name = w.name → v = w := by
    intro v w h
    cases v <;> cases w <;> first | rfl | exact absurd h (by decide)
  have hall : ∀ format : ByteFormat, format ∈ [.decimal, .hex] := by
    intro format
    cases format <;> decide
  intro t format rest
  simp only [reads_readVariant _ t format rest, ByteFormat.variants, lookup_name_iff hinj,
    hall format, true_and, exists_eq_left]

/-- A reader of values reads the settings of a field, each made of its value. -/
theorem readSetting_eq_ok_iff {α : Type} {read : Text → Except Fault (α × Text)} {field : Field}
    (setting : α → Setting) (hread : Reads read fun value => (setting value).IsValue)
    (hfield : ∀ x : Setting, x.field = field ↔ ∃ value, x = setting value)
    {a a' : Assignment} {t rest : Text} :
    (read t >>= fun p => .ok (a.make (setting p.1), p.2)) = .ok (a', rest) ↔
      ∃ x b s, x.field = field ∧ Blanks b ∧ x.IsValue s ∧ t = b ++ (s ++ rest) ∧ a' = a.make x := by
  rw [exceptBind_eq_ok_iff]
  constructor
  · rintro ⟨⟨value, rest'⟩, hvalue, h⟩
    cases h
    obtain ⟨b, s, hb, hs, rfl⟩ := (hread _ _ _).mp hvalue
    exact ⟨setting value, b, s, (hfield _).mpr ⟨value, rfl⟩, hb, hs, rfl, rfl⟩
  · rintro ⟨x, b, s, hx, hb, hs, rfl, rfl⟩
    obtain ⟨value, rfl⟩ := (hfield x).mp hx
    exact ⟨(value, rest), (hread _ _ _).mpr ⟨b, s, hb, hs, rfl⟩, rfl⟩

/-- **The value of a field is read exactly when it is one**; it makes one setting. -/
theorem readField_eq_ok_iff {field : Field} {a a' : Assignment} {t rest : Text} :
    readField field a t = .ok (a', rest) ↔
      ∃ x b s, x.field = field ∧ Blanks b ∧ x.IsValue s ∧ t = b ++ (s ++ rest) ∧ a' = a.make x := by
  cases field with
  | logLevel =>
    refine readSetting_eq_ok_iff .logLevel (reads_readText "a string") fun x => ?_
    cases x <;> simp [Setting.field]
  | logDir =>
    refine readSetting_eq_ok_iff .logDir reads_readDirectory fun x => ?_
    cases x <;> simp [Setting.field]
  | decodeMode =>
    refine readSetting_eq_ok_iff .decodeMode reads_decodeMode fun x => ?_
    cases x <;> simp [Setting.field]
  | byteFormat =>
    refine readSetting_eq_ok_iff .byteFormat reads_byteFormat fun x => ?_
    cases x <;> simp [Setting.field]
  | redactedKeys =>
    refine readSetting_eq_ok_iff .redactedKeys reads_readTexts fun x => ?_
    cases x <;> simp [Setting.field]

-- ---------------------------------------------------------------------------
-- Objects
-- ---------------------------------------------------------------------------

theorem named?_eq_some_iff {key : Text} {field : Field} :
    Field.named? key = some field ↔ key = field.name.toList := by
  constructor
  · intro h
    have hname := List.find?_some h
    exact (decide_eq_true_eq.mp hname).symm
  · rintro rfl
    exact named?_name field

/-- A key is taken when it names a field that is still to be read. -/
theorem keyField_eq_ok_iff {pending : List Field} {key rest : Text} {field : Field} :
    keyField pending key rest = .ok field ↔ field ∈ pending ∧ key = field.name.toList := by
  constructor
  · intro h
    refine ⟨mem_of_keyField h, ?_⟩
    unfold keyField at h
    split at h
    · cases h
    · next field' hname =>
      split at h
      · cases h
        exact named?_eq_some_iff.mp hname
      · cases h
  · rintro ⟨hmem, rfl⟩
    exact keyField_name hmem rest

/-- An entry of a field that was not read before makes its setting. -/
theorem readObject_item {pending : List Field} {isFirst : Bool} {x : Setting} {lead s : Text}
    (hfield : x.field ∈ pending) (hlead : Leads isFirst lead) (hx : x.IsEntry s) (a : Assignment)
    (rest : Text) :
    readObject pending isFirst a (lead ++ (s ++ rest)) =
      readObject (pending.erase x.field) false (a.make x) rest := by
  cases hx with
  | @entry key b b' value hkey hb hb' hvalue =>
    cases hkey with
    | @quoted key hkey =>
      have hnext : nextKey isFirst
          (lead ++ '"' :: (key ++ '"' :: (b ++ ':' :: (b' ++ (value ++ rest))))) = .ok (.item _) :=
        nextKey_eq_item_iff.mpr ⟨lead, hlead, rfl⟩
      have hread : readString (key ++ '"' :: (b ++ ':' :: (b' ++ (value ++ rest)))) =
          .ok (x.field.name.toList, _) :=
        readString_eq_ok_iff.mpr ⟨key, hkey, rfl⟩
      have hcolon : readColon (b ++ ':' :: (b' ++ (value ++ rest))) = .ok _ :=
        readColon_eq_ok_iff.mpr ⟨b, hb, rfl⟩
      have hmade : readField x.field a (b' ++ (value ++ rest)) = .ok (a.make x, rest) :=
        readField_eq_ok_iff.mpr ⟨x, b', value, rfl, hb', hvalue, rfl, rfl⟩
      simp only [List.append_assoc, List.cons_append, List.nil_append]
      exact readObject_step hnext hread (keyField_eq_ok_iff.mpr ⟨hfield, rfl⟩)
        (exceptBind_eq_ok_iff.mpr ⟨_, hcolon, hmade⟩)

/-- **The entries of an object are read up to its end** when their keys name distinct fields that
were not read before. -/
theorem readObject_eq_ok_iff {pending : List Field} (hpending : pending.Nodup) {isFirst : Bool}
    {a a' : Assignment} {t rest : Text} :
    readObject pending isFirst a t = .ok (a', rest) ↔
      ∃ settings s, (settings.map Setting.field).Nodup ∧
        (∀ x ∈ settings, x.field ∈ pending) ∧ Items Setting.IsEntry isFirst settings s ∧
        t = s ++ '\x7d' :: rest ∧ a' = settings.foldl Assignment.make a := by
  constructor
  · intro h
    -- only the end of the object and an entry that is read lead to a result
    fun_induction readObject pending isFirst a t with
    | case2 pending isFirst a t stop hnext =>
      cases h
      obtain ⟨b, r, hb, rfl, rfl⟩ := nextKey_eq_stop_iff.mp hnext
      exact ⟨[], b, List.nodup_nil, fun _ hx => absurd hx List.not_mem_nil, .stop hb, rfl, rfl⟩
    | case6 pending isFirst a t r hnext key r' hkey field hfield a'' rest' hvalue ih =>
      obtain ⟨settings, s, hnodup, hmem, hs, rfl, ha⟩ := ih (hpending.erase field) h
      obtain ⟨lead, hlead, rfl⟩ := nextKey_eq_item_iff.mp hnext
      obtain ⟨hfield', rfl⟩ := keyField_eq_ok_iff.mp hfield
      obtain ⟨key, hkey', rfl⟩ := readString_eq_ok_iff.mp hkey
      obtain ⟨r'', hcolon, hread⟩ := exceptBind_eq_ok_iff.mp hvalue
      obtain ⟨b, hb, rfl⟩ := readColon_eq_ok_iff.mp hcolon
      obtain ⟨x, b', value, rfl, hb', hx, rfl, rfl⟩ := readField_eq_ok_iff.mp hread
      have hmem' : ∀ y ∈ settings, y.field ≠ x.field ∧ y.field ∈ pending :=
        fun y hy => hpending.mem_erase_iff.mp (hmem y hy)
      -- the field was erased from those to be read, so that no later entry is one of it
      have hfresh : x.field ∉ settings.map Setting.field := by
        intro hx'
        obtain ⟨y, hy, hxy⟩ := List.mem_map.mp hx'
        exact (hmem' y hy).1 hxy
      have hentry : x.IsEntry ('"' :: (key ++ ['"']) ++ (b ++ ':' :: (b' ++ value))) :=
        .entry (.quoted hkey') hb hb' hx
      refine ⟨x :: settings, _, List.nodup_cons.mpr ⟨hfresh, hnodup⟩, ?_,
        .item hlead hentry hs, by simp, ha⟩
      intro y hy
      rcases List.mem_cons.mp hy with rfl | hy
      · exact hfield'
      · exact (hmem' y hy).2
    | _ => cases h
  · rintro ⟨settings, s, hnodup, hmem, hs, rfl, rfl⟩
    induction hs generalizing pending a with
    | @stop isFirst b hb =>
      rw [readObject, nextKey_eq_stop_iff.mpr ⟨b, rest, hb, rfl, rfl⟩]
      rfl
    | @item isFirst lead s t x settings hlead hx h ih =>
      rw [List.map_cons, List.nodup_cons] at hnodup
      obtain ⟨hx', hsettings⟩ := List.forall_mem_cons.mp hmem
      have hmem' : ∀ y ∈ settings, y.field ∈ pending.erase x.field := by
        intro y hy
        refine hpending.mem_erase_iff.mpr ⟨fun hxy => hnodup.1 ?_, hsettings y hy⟩
        exact hxy ▸ List.mem_map_of_mem hy
      have ht : lead ++ (s ++ t) ++ '\x7d' :: rest = lead ++ (s ++ (t ++ '\x7d' :: rest)) := by
        simp
      rw [ht, readObject_item hx' hlead hx]
      exact ih (hpending.erase x.field) hnodup.2 hmem'

-- ---------------------------------------------------------------------------
-- Lists
-- ---------------------------------------------------------------------------

end Config

namespace Setting

/-- No value is taken for the end of a list. -/
theorem IsValue.opens {x : Setting} {s : Text} (h : x.IsValue s) (rest : Text) :
    Opens ']' (s ++ rest) := by
  have hname : ∀ {name s : Text}, IsName name s → Opens ']' (s ++ rest) := by
    intro name s h
    cases h with
    | string h => exact h.opens (by decide) rest
    | object => exact ⟨'\x7b', _, rfl, rfl, by decide⟩
  cases x with
  | logLevel level => exact IsString.opens h (by decide) rest
  | logDir path =>
    cases h with
    | none => exact ⟨'n', _, rfl, rfl, by decide⟩
    | some h => exact h.opens (by decide) rest
  | decodeMode mode => exact hname h
  | byteFormat format => exact hname h
  | redactedKeys keys =>
    cases h with
    | brackets h => exact ⟨'[', _, rfl, rfl, by decide⟩

end Setting

namespace Config

/-- A value of the next field makes its setting. -/
theorem readFields_item {fields : List Field} {isFirst : Bool} {x : Setting} {lead s : Text}
    (hlead : Leads isFirst lead) (hx : x.IsValue s) (a : Assignment) (rest : Text) :
    readFields isFirst a (lead ++ (s ++ rest)) (x.field :: fields) =
      readFields false (a.make x) rest fields := by
  have hnext : nextItem isFirst (lead ++ (s ++ rest)) = .ok (.item (s ++ rest)) :=
    nextItem_eq_item_iff.mpr ⟨hx.opens rest, lead, hlead, rfl⟩
  have hmade : readField x.field a (s ++ rest) = .ok (a.make x, rest) :=
    readField_eq_ok_iff.mpr ⟨x, [], s, rfl, blanks_nil, hx, rfl, rfl⟩
  rw [readFields, hnext]
  dsimp only
  rw [hmade]

/-- **The values of a list are read up to its end** when they are those of the first fields. -/
theorem readFields_eq_ok_iff {fields : List Field} {isFirst : Bool} {a a' : Assignment}
    {t rest : Text} :
    (∃ stop, readFields isFirst a t fields = .ok (a', stop) ∧ readListEnd stop = .ok rest) ↔
      ∃ settings s, settings.map Setting.field <+: fields ∧
        Items Setting.IsValue isFirst settings s ∧ t = s ++ ']' :: rest ∧
        a' = settings.foldl Assignment.make a := by
  constructor
  · rintro ⟨stop, h, hend⟩
    -- the fields are taken one by one, and the list may end before they do
    induction fields generalizing isFirst a t with
    | nil =>
      cases h
      obtain ⟨b, hb, rfl⟩ := readListEnd_eq_ok_iff.mp hend
      exact ⟨[], b, List.nil_prefix, .stop hb, rfl, rfl⟩
    | cons field fields ih =>
      rw [readFields] at h
      split at h
      · cases h
      · next hnext =>
        obtain ⟨b, r, hb, rfl, rfl⟩ := nextItem_eq_stop_iff.mp hnext
        cases h
        cases hend
        exact ⟨[], b, List.nil_prefix, .stop hb, rfl, rfl⟩
      · next hnext =>
        obtain ⟨-, lead, hlead, rfl⟩ := nextItem_eq_item_iff.mp hnext
        split at h
        · cases h
        · next hread =>
          obtain ⟨x, b, value, rfl, hb, hx, rfl, rfl⟩ := readField_eq_ok_iff.mp hread
          obtain ⟨settings, s, hfields, hs, rfl, ha⟩ := ih h
          exact ⟨x :: settings, _, List.cons_prefix_cons.mpr ⟨rfl, hfields⟩,
            .item (hlead.append hb) hx hs, by simp, ha⟩
  · rintro ⟨settings, s, hfields, hs, rfl, rfl⟩
    -- each value of the list is that of the next field
    induction hs generalizing fields a with
    | @stop isFirst b hb =>
      cases fields with
      | nil => exact ⟨_, rfl, readListEnd_eq_ok_iff.mpr ⟨b, hb, rfl⟩⟩
      | cons field fields =>
        refine ⟨']' :: rest, ?_, rfl⟩
        rw [readFields, nextItem_eq_stop_iff.mpr ⟨b, rest, hb, rfl, rfl⟩]
        rfl
    | @item isFirst lead s t x settings hlead hx h ih =>
      cases fields with
      | nil => exact absurd (List.prefix_nil.mp hfields) (List.cons_ne_nil _ _)
      | cons field fields =>
        obtain ⟨rfl, hfields'⟩ := List.cons_prefix_cons.mp hfields
        obtain ⟨stop, hread, hend⟩ := ih hfields'
        have ht : lead ++ (s ++ t) ++ ']' :: rest = lead ++ (s ++ (t ++ ']' :: rest)) := by
          simp
        refine ⟨stop, ?_, hend⟩
        rw [ht, readFields_item hlead hx]
        exact hread

end Config

-- ---------------------------------------------------------------------------
-- Documents
-- ---------------------------------------------------------------------------

theorem Field.mem_all (field : Field) : field ∈ Field.all := by
  cases field <;> decide

/-- A text that holds settings: an object with an entry for each, for no field twice, or a list of
values for the first fields. -/
inductive Holds (settings : List Setting) : Text → Prop where
  | object {t : Text} (hkeys : (settings.map Setting.field).Nodup)
      (h : Items Setting.IsEntry true settings t) : Holds settings ('\x7b' :: (t ++ ['\x7d']))
  | list {s : Text} (hfields : settings.map Setting.field <+: Field.all)
      (h : IsList Setting.IsValue settings s) : Holds settings s

/-- A document denotes the assignment that makes the settings it holds, and no others. -/
def Denotes (document : Text) (a : Assignment) : Prop :=
  ∃ settings b s b', Blanks b ∧ Holds settings s ∧ Blanks b' ∧ document = b ++ (s ++ b') ∧
    ∀ x, a.Makes x ↔ x ∈ settings

theorem Holds.nodup {settings : List Setting} {s : Text} (h : Holds settings s) :
    (settings.map Setting.field).Nodup := by
  cases h with
  | object hkeys => exact hkeys
  | list hfields => exact hfields.sublist.nodup (by decide)

namespace Config

/-- An assignment is read where settings are held. -/
theorem reads_readAssignment : Reads readAssignment fun a s =>
    ∃ settings, Holds settings s ∧ a = settings.foldl Assignment.make {} := by
  intro t a rest
  have hall : Field.all.Nodup := by decide
  constructor
  · intro h
    unfold readAssignment at h
    split at h
    · cases h
    · next hskip =>
      obtain ⟨-, b, hb, rfl⟩ := skipBlanks_eq_cons_iff.mp hskip
      obtain ⟨settings, s, hkeys, -, hs, rfl, rfl⟩ := (readObject_eq_ok_iff hall).mp h
      exact ⟨b, _, hb, ⟨settings, .object hkeys hs, rfl⟩, by simp⟩
    · next hskip =>
      obtain ⟨-, b, hb, rfl⟩ := skipBlanks_eq_cons_iff.mp hskip
      obtain ⟨⟨a, stop⟩, hfields, h⟩ := exceptBind_eq_ok_iff.mp h
      obtain ⟨rest, hend, h⟩ := exceptBind_eq_ok_iff.mp h
      cases h
      obtain ⟨settings, s, hprefix, hs, rfl, rfl⟩ := readFields_eq_ok_iff.mp ⟨stop, hfields, hend⟩
      exact ⟨b, _, hb, ⟨settings, .list hprefix (.brackets hs), rfl⟩, by simp⟩
    · cases h
  · rintro ⟨b, s, hb, ⟨settings, hs, rfl⟩, rfl⟩
    cases hs with
    | @object t hkeys hitems =>
      have hread : readObject Field.all true {} (t ++ '\x7d' :: rest) = .ok (_, rest) :=
        (readObject_eq_ok_iff hall).mpr
          ⟨settings, t, hkeys, fun x _ => x.field.mem_all, hitems, rfl, rfl⟩
      rw [readAssignment, List.cons_append, hb.skip rfl, List.append_assoc]
      exact hread
    | list hprefix hlist =>
      cases hlist with
      | @brackets t hitems =>
        obtain ⟨stop, hread, hend⟩ := readFields_eq_ok_iff.mpr
          ⟨settings, t, hprefix, hitems, (rfl : _ = t ++ ']' :: rest), rfl⟩
        rw [readAssignment, List.cons_append, hb.skip rfl, List.append_assoc]
        show (readFields true {} (t ++ ']' :: rest) Field.all >>= _) = _
        rw [hread]
        show (readListEnd stop >>= _) = _
        rw [hend]
        rfl

theorem readEnd_eq_ok_iff {t : Text} : readEnd t = .ok () ↔ Blanks t := by
  rw [← skipBlanks_eq_nil_iff, readEnd]
  split
  · next h => exact iff_of_true rfl h
  · next hne => exact iff_of_false (nomatch ·) hne

/-- **A document is read as the assignment it denotes**, and as none when it denotes none. -/
theorem ofText_assignment_eq_ok_iff {document : Text} {a : Assignment} :
    Assignment.ofText document = .ok a ↔ Denotes document a := by
  constructor
  · intro h
    obtain ⟨⟨a, rest⟩, hread, h₁⟩ := exceptBind_eq_ok_iff.mp (exceptMapError_eq_ok_iff.mp h)
    obtain ⟨u, hend, h₂⟩ := exceptBind_eq_ok_iff.mp h₁
    cases h₂
    obtain ⟨b, s, hb, ⟨settings, hs, ha⟩, rfl⟩ := (reads_readAssignment _ _ _).mp hread
    have hmakes := (Assignment.eq_foldl_make_iff hs.nodup).mp ha
    exact ⟨settings, b, s, rest, hb, hs, readEnd_eq_ok_iff.mp hend, rfl, hmakes⟩
  · rintro ⟨settings, b, s, b', hb, hs, hb', rfl, hmakes⟩
    have ha := (Assignment.eq_foldl_make_iff hs.nodup).mpr hmakes
    have hread : readAssignment (b ++ (s ++ b')) = .ok (a, b') :=
      (reads_readAssignment _ _ _).mpr ⟨b, s, hb, ⟨settings, hs, ha⟩, rfl⟩
    have hend : readEnd b' = .ok () := readEnd_eq_ok_iff.mpr hb'
    show Except.mapError _ (readAssignment (b ++ (s ++ b')) >>= _) = _
    rw [hread]
    show Except.mapError _ (readEnd b' >>= _) = _
    rw [hend]
    rfl

/-- Blanks, escapes and `null` for a name, in a list without its last values. -/
example : Denotes "[ \"\\u0069nfo\",null , \x7b\"strict\": null\x7d]\n".toList
    { logLevel := some "info".toList, logDir := some none, decodeMode := some .strict } :=
  ofText_assignment_eq_ok_iff.mp (by decide +kernel)

-- ---------------------------------------------------------------------------
-- Settings of a document
-- ---------------------------------------------------------------------------

/-- The settings have this value in the field. -/
def Has (config : Config) : Setting → Prop
  | .logLevel level => config.logLevel = level
  | .logDir path => config.logDir = path
  | .decodeMode mode => config.decodeMode = mode
  | .byteFormat format => config.byteFormat = format
  | .redactedKeys keys => config.redactedKeys = keys

/-- An assignment decides the fields that it assigns, and no others. -/
theorem has_applyTo (a : Assignment) (config : Config) (x : Setting) :
    (a.applyTo config).Has x ↔
      a.Makes x ∨ config.Has x ∧ ∀ y, a.Makes y → y.field ≠ x.field := by
  have hgetD : ∀ {α : Type} (assigned : Option α) (value value' : α),
      assigned.getD value = value' ↔
        assigned = some value' ∨ value = value' ∧ ∀ w, assigned ≠ some w := by
    intro α assigned value value'
    cases assigned <;> simp
  -- the settings of another field do not matter
  cases x
  all_goals
    simp only [Setting.forall_iff, Setting.field, Has, Assignment.Makes, Assignment.applyTo, ne_eq,
      not_true_eq_false, not_false_eq_true, reduceCtorEq, imp_false, implies_true, and_true,
      true_and]
    exact hgetD _ _ _

/-- What the reader makes of a document is laid over the defaults, and then checked. -/
theorem ofText_of_assignment {document : Text} {a : Assignment}
    (h : Assignment.ofText document = .ok a) :
    Config.ofText document = (a.applyTo default).validate.map fun _ => a.applyTo default := by
  rw [ofText, h]
  show ((a.applyTo default).validate >>= _) = _
  cases (a.applyTo default).validate <;> rfl

/-- The check never calls a document malformed, so that the reader alone does. -/
theorem ofText_eq_malformed_iff {document : Text} :
    (∃ reason, Config.ofText document = .error (.malformed reason)) ↔
      ∃ reason, Assignment.ofText document = .error reason := by
  cases hread : Assignment.ofText document with
  | error reason =>
    refine iff_of_true ⟨reason, ?_⟩ ⟨reason, rfl⟩
    rw [ofText, hread]
    rfl
  | ok a =>
    refine iff_of_false ?_ ?_
    · rintro ⟨reason, h⟩
      rw [ofText_of_assignment hread] at h
      cases hvalid : (a.applyTo default).validate with
      | ok u =>
        rw [hvalid] at h
        cases h
      | error e =>
        rw [hvalid] at h
        cases h
        -- the faults that the check finds are others
        rcases validate_eq_error hvalid with he | ⟨path, -, he⟩ | he
        all_goals cases he
    · rintro ⟨reason, h⟩
      cases h

/-- **Settings are read from exactly the documents that denote an assignment.** A document is
malformed exactly when it denotes none. Otherwise it denotes one only, its settings are the
defaults with this assignment, refused only by the check, and any other document that denotes the
same is read alike. -/
theorem ofText_of_denotes (document : Text) :
    ((∃ reason, Config.ofText document = .error (.malformed reason)) ↔
        ∀ a, ¬ Denotes document a) ∧
      ∀ a, Denotes document a →
        (∀ a', Denotes document a' → a' = a) ∧
        Config.ofText document = (a.applyTo default).validate.map (fun _ => a.applyTo default) ∧
        (∀ x, (a.applyTo default).Has x ↔
          a.Makes x ∨ default.Has x ∧ ∀ y, a.Makes y → y.field ≠ x.field) ∧
        ∀ document', Denotes document' a → Config.ofText document' = Config.ofText document := by
  constructor
  · rw [ofText_eq_malformed_iff]
    constructor
    · rintro ⟨reason, h⟩ a ha
      rw [ofText_assignment_eq_ok_iff.mpr ha] at h
      cases h
    · intro hnone
      cases hread : Assignment.ofText document with
      | error reason => exact ⟨reason, rfl⟩
      | ok a => exact absurd (ofText_assignment_eq_ok_iff.mp hread) (hnone a)
  · intro a ha
    have hread := ofText_assignment_eq_ok_iff.mpr ha
    refine ⟨fun a' ha' => ?_, ofText_of_assignment hread, has_applyTo a default,
      fun document' ha' => ?_⟩
    · have hread' := ofText_assignment_eq_ok_iff.mpr ha'
      exact Except.ok.inj (hread'.symm.trans hread)
    · rw [ofText_of_assignment hread, ofText_of_assignment (ofText_assignment_eq_ok_iff.mpr ha')]

end Config

end BlockExplorer
