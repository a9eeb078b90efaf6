import BlockExplorer.Codec.Encoding
import BlockExplorer.Files.Basic

/-!
# BlockExplorer — a tree of files

Files and directories by the names on the way from the root, and a working
directory for relative paths. A path is walked part by part: every part needs a
directory to stand in, `..` leads up, and the last part may name a file.
-/

namespace BlockExplorer

/-- The names on the way from the root. -/
abbrev Place := List Text

inductive Entry where
  | file (content : List UInt8)
  | directory
  deriving DecidableEq, Repr

structure Tree where
  workingDirectory : Place
  entries : List (Place × Entry)
  deriving DecidableEq, Repr

namespace Tree

/-- What stands at a place; the root is always a directory. -/
def find? (tree : Tree) (place : Place) : Option Entry :=
  if place = [] then some .directory else tree.entries.lookup place

/-- Names longer than this are refused. -/
def longestName : Nat := 255

/-- Paths of this many bytes or more are refused. -/
def pathLimit : Nat := 4096

/-- The place that a part leads to from a directory. -/
def step (tree : Tree) (place : Place) (part : Text) : Except FileError Place :=
  match tree.find? place with
  | none => .error .notFound
  | some (.file _) => .error .notDirectory
  | some .directory =>
    if ¬ Path.isNamed part then .ok place
    else if part = ['.', '.'] then .ok place.dropLast
    else if longestName < byteLength part then .error .nameTooLong
    else .ok (place ++ [part])

/-- Walks along the parts of a path. The last place need not hold anything. -/
def walk (tree : Tree) (start : Place) (parts : List Text) : Except FileError Place :=
  parts.foldlM tree.step start

/-- Where walking along a path starts. -/
def start (tree : Tree) (path : Text) : Place :=
  if Path.isAbsolute path then [] else tree.workingDirectory

/-- A path that no file can have. -/
def refused? (path : Text) : Option FileError :=
  if '\x00' ∈ path then some .nulInPath
  else if path = [] then some .notFound
  else if pathLimit ≤ byteLength path then some .nameTooLong
  else none

/-- The place that a path leads to. -/
def resolve (tree : Tree) (path : Text) : Except FileError Place :=
  match refused? path with
  | some e => .error e
  | none => tree.walk (tree.start path) (Path.parts path)

/-- What a path leads to. -/
def get (tree : Tree) (path : Text) : Except FileError Entry := do
  match tree.find? (← tree.resolve path) with
  | some entry => return entry
  | none => throw .notFound

/-- The bytes of a file. -/
def read (tree : Tree) (path : Text) : Except FileError (List UInt8) := do
  match ← tree.get path with
  | .file content => return content
  | .directory => throw .isDirectory

def isDirectory (tree : Tree) (path : Text) : Bool :=
  match tree.get path with
  | .ok .directory => true
  | _ => false

def put (tree : Tree) (place : Place) (entry : Entry) : Tree :=
  { tree with entries := (place, entry) :: tree.entries.filter (·.1 ≠ place) }

/-- Makes a directory where the parts of a path lead. Blank parts at the end do not count; a last
part `.` or `..` names a directory that is there already. -/
def makeAt (tree : Tree) (start : Place) (parts : List Text) : Except FileError Tree := do
  let parts := (parts.reverse.dropWhile (· = [])).reverse
  let above ← tree.step (← tree.walk start parts.dropLast) []
  match parts.getLast? with
  | none => throw .alreadyExists
  | some name =>
    if ¬ Path.isNamed name ∨ name = ['.', '.'] then throw .alreadyExists
    let place ← tree.step above name
    if (tree.find? place).isSome then throw .alreadyExists
    return tree.put place .directory

/-- Makes a directory. -/
def make (tree : Tree) (path : Text) : Except FileError Tree :=
  match refused? path with
  | some e => .error e
  | none => tree.makeAt (tree.start path) (Path.parts path)

/-- Makes a directory, unless it is there already. -/
def ensure (tree : Tree) (path : Text) : Except FileError Tree :=
  match tree.make path with
  | .ok tree => .ok tree
  | .error e => if tree.isDirectory path then .ok tree else .error e

/-- The path from the root through the given components. -/
def pathTo (components : List Text) : Text :=
  '/' :: Text.join ['/'] components

/-- What came of making directories. -/
structure Making where
  result : Except FileError Unit
  /-- The tree with whatever was made, also after an error. -/
  tree : Tree

/-- What came of making one directory of `tree`. -/
def Making.of (tree : Tree) : Except FileError Tree → Making
  | .ok made => ⟨.ok (), made⟩
  | .error e => ⟨.error e, tree⟩

/-- Makes the directory at a path. When something above it is missing, the directories of `above`,
which lists the components on the way from the lowest up, are made first. -/
def makeBelow (tree : Tree) (path : Text) : List Text → Making
  | [] => .of tree (tree.ensure path)
  | name :: higher =>
    match tree.ensure path with
    | .error .notFound =>
      match makeBelow tree (pathTo (name :: higher).reverse) higher with
      | ⟨.ok (), made⟩ => .of made (made.ensure path)
      | failed => failed
    | made => .of tree made

/-- Makes the directory at an absolute path and all directories above it that are missing. -/
def makeDirectories (tree : Tree) (path : Text) : Making :=
  tree.makeBelow path (Path.components path).dropLast.reverse

/-- Writes bytes at the end of a file, which is made if it is missing. -/
def append (tree : Tree) (path : Text) (bytes : List UInt8) : Except FileError Tree := do
  let place ← tree.resolve path
  match tree.find? place with
  | none => return tree.put place (.file bytes)
  | some (.file content) => return tree.put place (.file (content ++ bytes))
  | some .directory => throw .isDirectory

end Tree

end BlockExplorer
