import BlockExplorer.Text.Class

/-!
# BlockExplorer — log levels

Five levels, ordered by severity. An active level lets through the records that
are at least as severe as itself. A level is read from a text whatever its
letter case and the blanks around it.
-/

namespace BlockExplorer

/-- How severe a record is, or how severe it has to be to be written. -/
inductive Level where
  | trace
  | debug
  | info
  | warn
  | error
  deriving DecidableEq, Repr

namespace Level

/-- The name by which settings and status show a level. -/
def name : Level → String
  | trace => "trace"
  | debug => "debug"
  | info => "info"
  | warn => "warn"
  | error => "error"

/-- The name at the start of a log line. -/
def label : Level → String
  | trace => "TRACE"
  | debug => "DEBUG"
  | info => "INFO"
  | warn => "WARN"
  | error => "ERROR"

def severity : Level → Nat
  | trace => 0
  | debug => 1
  | info => 2
  | warn => 3
  | error => 4

/-- An active level lets a record through when the record is at least as severe. -/
def lets (active record : Level) : Bool :=
  active.severity ≤ record.severity

/-- The form in which level names are compared: no blanks around, small ASCII letters. -/
def normalForm (t : Text) : Text :=
  (Text.trim t).map Char.toLower

/-- The level that a text in normal form names. -/
def ofNormalForm? (t : Text) : Option Level :=
  match String.ofList t with
  | "trace" => some trace
  | "debug" => some debug
  | "info" => some info
  | "warn" => some warn
  | "warning" => some warn
  | "error" => some error
  | _ => none

/-- The level that a text names, if it names one. -/
def ofText? (t : Text) : Option Level :=
  ofNormalForm? (normalForm t)

/-- What is said of a text that names no level. -/
def unsupportedMessage (t : Text) : String :=
  s!"unsupported log level `{String.ofList (normalForm t)}`; expected trace|debug|info|warn|error"

/-- **What an active level lets through**: the records at its own severity and above. -/
theorem lets_iff {active record : Level} :
    active.lets record = true ↔ active.severity ≤ record.severity :=
  decide_eq_true_iff

/-- Each level is named by the name that settings and status show. -/
theorem ofText?_name (l : Level) : ofText? l.name.toList = some l := by
  cases l <;> decide

end Level

end BlockExplorer
