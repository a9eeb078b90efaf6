import BlockExplorer.Text.Basic

/-!
# BlockExplorer — paths and file errors

Why a file cannot be read or a directory cannot be made, and the paths by which
files are named.

A path is a text whose parts stand between slashes. Two paths are the same when
their components are: empty parts and parts `.` do not count, except for a `.`
at the start of a relative path; parts `..` do count, because they are resolved
only when the path is used.
-/

namespace BlockExplorer

inductive FileError where
  | notFound
  | alreadyExists
  | notDirectory
  | isDirectory
  | nameTooLong
  /-- The path holds the character NUL, which no file name can. -/
  | nulInPath
  /-- The bytes of the file are not text. -/
  | notText
  /-- Any other reason, in words. -/
  | other (reason : String)
  deriving DecidableEq, Repr

def FileError.message : FileError → String
  | notFound => "No such file or directory (os error 2)"
  | alreadyExists => "File exists (os error 17)"
  | notDirectory => "Not a directory (os error 20)"
  | isDirectory => "Is a directory (os error 21)"
  | nameTooLong => "File name too long (os error 36)"
  | nulInPath => "file name contained an unexpected NUL byte"
  | notText => "stream did not contain valid UTF-8"
  | other reason => reason

namespace Path

/-- A path that starts at the root. -/
def isAbsolute (path : Text) : Bool :=
  path.head? = some '/'

/-- The parts between slashes, the empty ones too. -/
def parts (path : Text) : List Text :=
  Text.split (· = '/') path

/-- A part that names something: neither empty nor a single dot. -/
def isNamed (part : Text) : Bool :=
  part ≠ [] && part ≠ ['.']

/-- The parts that name something. -/
def components (path : Text) : List Text :=
  (parts path).filter isNamed

/-- The path starts with a part `.`. -/
def startsHere (path : Text) : Bool :=
  (parts path).head? = some ['.']

/-- Both paths have the same components. -/
def same (p q : Text) : Bool :=
  isAbsolute p = isAbsolute q && startsHere p = startsHere q && components p = components q

end Path

end BlockExplorer
