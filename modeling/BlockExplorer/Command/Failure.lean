import BlockExplorer.Codec.Decoding
import BlockExplorer.Config.Loading
import BlockExplorer.Log.Logger
import BlockExplorer.Request.Percent

/-!
# BlockExplorer — failures of commands

Why a command that was understood did not succeed. A failure says what was
being done, its headline, and has causes, each the cause of the one before it.
The report shows them below one another, with the lines of a cause aligned.
-/

namespace BlockExplorer

inductive Failure where
  | loadingConfig (path : Text) (error : ConfigError)
  | invalidConfig (error : ConfigError)
  | startingLog (error : LogError)
  | readingByteList (error : CodecError)
  | decoding (length : Nat) (mode : DecodeMode) (error : CodecError)
  | readingQuery (error : QueryError)
  | noInterval (count : UInt64)
  deriving DecidableEq

namespace Failure

def headline : Failure → String
  | loadingConfig path _ => s!"loading config {String.ofList path}"
  | invalidConfig _ => "invalid configuration"
  | startingLog error => error.message
  | readingByteList _ => "parsing byte list"
  | decoding length mode _ => s!"decoding {length} bytes ({mode.name} mode)"
  | readingQuery _ => "parsing query string"
  | noInterval count => s!"no average interval for {count.toNat} blocks"

def causes : Failure → List String
  | loadingConfig _ error => error.message :: error.source?.toList
  | invalidConfig error => error.message :: error.source?.toList
  | startingLog _ => []
  | readingByteList error => [error.message]
  | decoding _ _ error => [error.message]
  | readingQuery error => error.message :: error.source?.toList
  | noInterval _ => []

/-- A cause behind a mark; its further lines are indented to the end of the mark. -/
def indented (mark cause : Text) : Text :=
  mark ++ Text.join ('\n' :: List.replicate mark.length ' ') (Text.split (· = '\n') cause)

/-- The mark of the cause with number `n`. -/
def numberMark (n : Nat) : Text :=
  (Numeral.decimal n).leftpad 5 ' ' ++ [':', ' ']

/-- The causes below their heading. -/
def causeList (causes : List Text) : Text :=
  match causes with
  | [] => []
  | [cause] => heading ++ ['\n'] ++ indented (List.replicate 4 ' ') cause
  | _ => heading ++ causes.zipIdx.flatMap fun (cause, n) => ['\n'] ++ indented (numberMark n) cause
where
  heading := "\n\nCaused by:".toList

/-- The failure as it is shown to the user. -/
def report (f : Failure) : Text :=
  "Error: ".toList ++ f.headline.toList ++ causeList (f.causes.map String.toList) ++ ['\n']

end Failure

end BlockExplorer
