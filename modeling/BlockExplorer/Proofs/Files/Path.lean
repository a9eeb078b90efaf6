import BlockExplorer.Files.Basic
import BlockExplorer.Proofs.Text.Split

/-!
# BlockExplorer — what a path leads through

The components of a path are computed by cutting it at slashes and dropping the
parts that name nothing. Here it is said without cutting which names a path
leads through, and that these are its components. Where slashes stand more than
once, or at the end, or a dot stands between them, there is no name; so the
spellings of one directory are the paths that lead through the same names, and
for absolute paths this is how they are compared (`same_eq_true_iff`).

Main results:

* `components_eq_iff` — the components are the names that the path leads through.
* `same_eq_true_iff` — absolute paths are compared by the place they lead to.
-/

namespace BlockExplorer.Path

/-- A text that names a directory or a file inside another. The name `..`, for the one outside, is
among them. -/
structure IsName (name : Text) : Prop where
  ne_nil : name ≠ []
  ne_dot : name ≠ ['.']
  slash_notMem : '/' ∉ name

/-- The path leads through these names, from the outermost to the innermost. -/
inductive LeadsThrough : Text → List Text → Prop where
  | nothing : LeadsThrough [] []
  /-- A dot stays where it stands. -/
  | here : LeadsThrough ['.'] []
  | name {name : Text} (hname : IsName name) : LeadsThrough name [name]
  /-- Behind a slash the way goes on. -/
  | onward {path path' : Text} {names names' : List Text} (hpath : LeadsThrough path names)
    (hpath' : LeadsThrough path' names') :
    LeadsThrough (path ++ '/' :: path') (names ++ names')

/-- Absolute paths to one place, however they are spelled. -/
def SamePlace (path path' : Text) : Prop :=
  isAbsolute path = true ∧ isAbsolute path' = true ∧
    ∃ names, LeadsThrough path names ∧ LeadsThrough path' names

variable {path path' : Text} {names : List Text}

-- ---------------------------------------------------------------------------
-- Components
-- ---------------------------------------------------------------------------

theorem IsName.isNamed {name : Text} (h : IsName name) : isNamed name = true := by
  simp [Path.isNamed, h.ne_nil, h.ne_dot]

/-- A path without slashes is one part. -/
theorem components_of_notMem (h : '/' ∉ path) : components path = [path].filter isNamed := by
  rw [components, parts, Text.split_eq_singleton_of_notMem h]

/-- At a slash the components fall apart into those before it and those behind it. -/
theorem components_append_cons (path path' : Text) :
    components (path ++ '/' :: path') = components path ++ components path' := by
  unfold components parts
  rw [Text.split_append_cons (decide_eq_true rfl), List.filter_append]

/-- The names that a path leads through are its components. -/
theorem LeadsThrough.components_eq (h : LeadsThrough path names) : components path = names := by
  induction h with
  | nothing => rfl
  | here => rfl
  | name hname =>
    rw [components_of_notMem hname.slash_notMem, List.filter_cons_of_pos hname.isNamed]
    rfl
  | onward _ _ ih ih' => rw [components_append_cons, ih, ih']

/-- A part between slashes leads through itself, if it names something. -/
theorem leadsThrough_of_notMem {part : Text} (h : '/' ∉ part) :
    LeadsThrough part ([part].filter isNamed) := by
  by_cases hnil : part = []
  · subst hnil
    exact .nothing
  by_cases hdot : part = ['.']
  · subst hdot
    exact .here
  have hname : IsName part := ⟨hnil, hdot, h⟩
  rw [List.filter_cons_of_pos hname.isNamed]
  exact .name hname

/-- Parts with slashes between them lead through those of them that name something. -/
theorem leadsThrough_join {part : Text} {parts : List Text} (h : ∀ p ∈ part :: parts, '/' ∉ p) :
    LeadsThrough (Text.join ['/'] (part :: parts)) ((part :: parts).filter isNamed) := by
  induction parts generalizing part with
  | nil => exact leadsThrough_of_notMem (h part (List.mem_singleton_self part))
  | cons next others ih =>
    have hfirst := leadsThrough_of_notMem (h part (List.mem_cons_self ..))
    have hothers := ih fun p hp => h p (List.mem_cons_of_mem _ hp)
    have hpath : Text.join ['/'] (part :: next :: others) =
        part ++ '/' :: Text.join ['/'] (next :: others) := by
      rw [Text.join, List.append_assoc]
      rfl
    have hnames : (part :: next :: others).filter isNamed =
        [part].filter isNamed ++ (next :: others).filter isNamed :=
      List.filter_append [part] _
    rw [hpath, hnames]
    exact .onward hfirst hothers

/-- Every path leads through its components. -/
theorem leadsThrough_components (path : Text) : LeadsThrough path (components path) := by
  -- the path is its parts with slashes between them, and no part holds a slash
  have hjoin : Text.join ['/'] (parts path) = path := Text.join_split '/' path
  have hparts : ∀ part ∈ parts path, '/' ∉ part := fun _ => Text.notMem_of_mem_split
  have h : LeadsThrough (Text.join ['/'] (parts path)) (components path) := leadsThrough_join hparts
  rw [hjoin] at h
  exact h

/-- **The components of a path are the names that it leads through.** -/
theorem components_eq_iff : components path = names ↔ LeadsThrough path names := by
  constructor
  · rintro rfl
    exact leadsThrough_components path
  · exact LeadsThrough.components_eq

-- ---------------------------------------------------------------------------
-- Spellings of one path
-- ---------------------------------------------------------------------------

/-- An absolute path does not start with a part `.`. -/
theorem startsHere_of_isAbsolute (h : isAbsolute path = true) : startsHere path = false := by
  cases path with
  | nil => cases h
  | cons c path =>
    have hc : c = '/' := by
      simpa [isAbsolute] using h
    have hslash : decide (c = '/') = true := decide_eq_true hc
    rw [startsHere, parts, Text.split_cons_of_separator hslash]
    rfl

/-- **Two absolute paths are the same when they lead to one place.** -/
theorem same_eq_true_iff (h : isAbsolute path = true) :
    same path path' = true ↔ SamePlace path path' := by
  unfold same
  simp only [Bool.and_eq_true, decide_eq_true_eq]
  constructor
  · rintro ⟨⟨habsolute, -⟩, hcomponents⟩
    refine ⟨h, habsolute ▸ h, components path', ?_, leadsThrough_components path'⟩
    exact components_eq_iff.mp hcomponents
  · rintro ⟨-, h', names, hnames, hnames'⟩
    refine ⟨⟨h.trans h'.symm, ?_⟩, ?_⟩
    · rw [startsHere_of_isAbsolute h, startsHere_of_isAbsolute h']
    · rw [hnames.components_eq, hnames'.components_eq]

end BlockExplorer.Path
