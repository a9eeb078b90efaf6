import BlockExplorer.Codec.ByteList
import BlockExplorer.Codec.Decoding

/-!
# BlockExplorer — the command line

What a user can ask for, with the settings that are given on the command line
and go before those of a file.

Arguments name a command, give its operands and switches, and may set options
before or after the command; the options after it go before those in front of
it. An option takes a value, behind an equals sign or as the next argument; a
switch takes none. After the argument `--` every argument is an operand. An
argument that starts with a hyphen is no value, apart from the hyphen alone and
from negative numbers where the next operand is a time stamp.

Requests for help (`--help`, `-h` and the command `help`) are not part of this:
they end as arguments that are not known, and the text of the help is left out.
-/

namespace BlockExplorer

-- ---------------------------------------------------------------------------
-- Commands
-- ---------------------------------------------------------------------------

inductive Command where
  /-- Shows the bytes of a text. -/
  | encode (text : Text) (format : Option ByteFormat)
  /-- Shows the text of a byte list. -/
  | decode (bytes : Text) (mode : Option DecodeMode)
  /-- Shows the parameters of a request. -/
  | query (input : Text)
  /-- Shows the average interval between two blocks that are `count` blocks apart. -/
  | blockInterval (first last : Int64) (count : UInt64)
  deriving DecidableEq

/-- The name of a command in the log. -/
def Command.name : Command → String
  | encode .. => "encode"
  | decode .. => "decode"
  | query .. => "query"
  | blockInterval .. => "block_interval"

/-- Settings from the command line. -/
structure Overrides where
  /-- The path of a file with settings. -/
  config : Option Text := none
  logLevel : Option Text := none
  logDir : Option Text := none
  deriving DecidableEq, Repr

/-- These settings, and where one is not given, that of `outer`. -/
def Overrides.within (inner outer : Overrides) : Overrides where
  config := inner.config.or outer.config
  logLevel := inner.logLevel.or outer.logLevel
  logDir := inner.logDir.or outer.logDir

/-- A command line that was understood. -/
structure Invocation where
  command : Command
  overrides : Overrides
  deriving DecidableEq

-- ---------------------------------------------------------------------------
-- Reading arguments
-- ---------------------------------------------------------------------------

/-- Why a command line is not understood. -/
inductive UsageError where
  | missingCommand
  | unknownCommand (name : Text)
  /-- An argument that starts with a hyphen and is not known where it stands. -/
  | unknownOption (argument : Text)
  | missingValue (option : Text)
  /-- An option with the empty value, or a switch with any. -/
  | refusedValue (option : Text)
  | repeatedOption (option : Text)
  /-- Two switches where only one can stand. -/
  | conflictingSwitches
  | missingOperand
  | extraOperand (operand : Text)
  | invalidNumber (operand : Text)
  deriving DecidableEq, Repr

def UsageError.message : UsageError → String
  | missingCommand => "a command is required"
  | unknownCommand name => s!"unknown command `{String.ofList name}`"
  | unknownOption argument => s!"unexpected argument `{String.ofList argument}`"
  | missingValue option => s!"a value is required for `{String.ofList option}`"
  | refusedValue option => s!"no such value is allowed for `{String.ofList option}`"
  | repeatedOption option => s!"`{String.ofList option}` is given more than once"
  | conflictingSwitches => "only one switch is allowed"
  | missingOperand => "an operand is missing"
  | extraOperand operand => s!"unexpected operand `{String.ofList operand}`"
  | invalidNumber operand => s!"`{String.ofList operand}` is not a number in range"

namespace Argument

/-- An argument by its form. -/
inductive Form where
  /-- The argument `--`. -/
  | ends
  /-- `--name` or `--name=value`. -/
  | option (name : Text) (value : Option Text)
  /-- A hyphen with more behind it. -/
  | dashed
  | plain
  deriving DecidableEq, Repr

def form (argument : Text) : Form :=
  match argument with
  | ['-', '-'] => .ends
  | '-' :: '-' :: body =>
    match body.dropWhile (· ≠ '=') with
    | [] => .option body none
    | _ :: value => .option (body.takeWhile (· ≠ '=')) (some value)
  | '-' :: _ :: _ => .dashed
  | _ => .plain

/-- Digits with at most one point, not in front, and at most one `e` or `E` behind it, neither in
front nor at the end. -/
def isNumeral (t : Text) : Bool :=
  let exponent :=
    match t.dropWhile Char.isDigit with
    | '.' :: rest => rest.dropWhile Char.isDigit
    | rest => rest
  t.head?.any Char.isDigit &&
    match exponent with
    | [] => true
    | 'e' :: rest | 'E' :: rest => rest ≠ [] && rest.all Char.isDigit
    | _ => false

/-- A hyphen and a numeral. -/
def isNegativeNumber (argument : Text) : Bool :=
  match argument with
  | '-' :: t => isNumeral t
  | _ => false

/-- The argument can be a value; a negative number only where numbers are looked for. -/
def isValue (numbers : Bool) (argument : Text) : Bool :=
  form argument = .plain || numbers && isNegativeNumber argument

end Argument

/-- An option of every command. -/
inductive CommandOption where
  | config
  | logLevel
  | logDir
  deriving DecidableEq, Repr

namespace CommandOption

def name : CommandOption → Text
  | config => "config".toList
  | logLevel => "log-level".toList
  | logDir => "log-dir".toList

def named? (name : Text) : Option CommandOption :=
  [config, logLevel, logDir].find? (·.name = name)

end CommandOption

/-- A switch of one of the commands. -/
inductive Switch where
  | format (format : ByteFormat)
  | mode (mode : DecodeMode)
  deriving DecidableEq, Repr

def Switch.name : Switch → Text
  | format f => f.name.toList
  | mode m => m.name.toList

/-- What the arguments of a command are made of. -/
inductive Item where
  | setting (option : CommandOption) (value : Text)
  | switch (switch : Switch)
  | operand (operand : Text)
  deriving DecidableEq, Repr

/-- A command by its name on the command line. -/
inductive Verb where
  | encode
  | decode
  | query
  | blockInterval
  deriving DecidableEq, Repr

namespace Verb

def name : Verb → Text
  | encode => "encode".toList
  | decode => "decode".toList
  | query => "query".toList
  | blockInterval => "block-interval".toList

def named? (name : Text) : Option Verb :=
  [encode, decode, query, blockInterval].find? (·.name = name)

def switches : Verb → List Switch
  | encode => [.format .hex, .format .decimal]
  | decode => [.mode .strict, .mode .lenient]
  | _ => []

/-- How many of the operands, from the first, are time stamps. -/
def timeStamps : Verb → Nat
  | blockInterval => 2
  | _ => 0

end Verb

namespace Arguments

/-- The value of an option that has none behind an equals sign, and the arguments after it. -/
def takeValue (numbers : Bool) (option : Text) (args : List Text) :
    Except UsageError (Text × List Text) :=
  match args with
  | value :: rest =>
    if Argument.isValue numbers value then .ok (value, rest) else .error (.missingValue option)
  | [] => .error (.missingValue option)

/-- An option takes its value from the arguments behind it, so that fewer are left. -/
theorem length_of_takeValue {numbers : Bool} {option value : Text} {args rest : List Text}
    (h : takeValue numbers option args = .ok (value, rest)) : rest.length < args.length := by
  unfold takeValue at h
  split at h
  · split at h
    · simp only [Except.ok.injEq, Prod.mk.injEq] at h
      simp [h.2]
    · simp at h
  · simp at h

/-- The options in front of the command, and the arguments from the command on. -/
def readOptions (args : List Text) :
    Except UsageError (List (CommandOption × Text) × List Text) :=
  match args with
  | [] => .ok ([], [])
  | arg :: args =>
    match Argument.form arg with
    | .plain => .ok ([], arg :: args)
    | .option name value? =>
      match CommandOption.named? name with
      | none => .error (.unknownOption arg)
      | some option =>
        match value? with
        | some value => do
          let (options, rest) ← readOptions args
          return ((option, value) :: options, rest)
        | none =>
          match _hv : takeValue false arg args with
          | .error e => .error e
          | .ok (value, rest) => do
            let (options, rest) ← readOptions rest
            return ((option, value) :: options, rest)
    | _ => .error (.unknownOption arg)
termination_by args.length
decreasing_by
  · exact Nat.lt_succ_self _
  · exact Nat.lt_succ_of_lt (length_of_takeValue _hv)

/-- The arguments after a command. The next `timeStamps` operands may be negative numbers. -/
def readItems (switches : List Switch) (timeStamps : Nat) (args : List Text) :
    Except UsageError (List Item) :=
  match args with
  | [] => .ok []
  | arg :: args =>
    if Argument.isValue (0 < timeStamps) arg then
      return .operand arg :: (← readItems switches (timeStamps - 1) args)
    else
      match Argument.form arg with
      | .ends => .ok (args.map .operand)
      | .option name value? =>
        match CommandOption.named? name, value? with
        | some option, some value =>
          return .setting option value :: (← readItems switches timeStamps args)
        | some option, none =>
          match _hv : takeValue (0 < timeStamps) arg args with
          | .error e => .error e
          | .ok (value, rest) =>
            return .setting option value :: (← readItems switches timeStamps rest)
        | none, _ =>
          match switches.find? (·.name = name), value? with
          | none, _ => .error (.unknownOption arg)
          | some _, some _ => .error (.refusedValue arg)
          | some switch, none => return .switch switch :: (← readItems switches timeStamps args)
      | _ => .error (.unknownOption arg)
termination_by args.length
decreasing_by
  · exact Nat.lt_succ_self _
  · exact Nat.lt_succ_self _
  · exact Nat.lt_succ_of_lt (length_of_takeValue _hv)
  · exact Nat.lt_succ_self _

/-- The only value that is given to an option. -/
def single (option : CommandOption) (settings : List (CommandOption × Text)) :
    Except UsageError (Option Text) :=
  match settings.filter (·.1 = option) with
  | [] => .ok none
  | [(_, value)] => .ok (some value)
  | _ => .error (.repeatedOption option.name)

/-- The only value that is given to an option for a path, which is not empty. -/
def singlePath (option : CommandOption) (settings : List (CommandOption × Text)) :
    Except UsageError (Option Text) := do
  let value? ← single option settings
  if value? = some [] then throw (.refusedValue option.name)
  return value?

/-- The overrides that options make, each of which may stand once. -/
def overrides (settings : List (CommandOption × Text)) : Except UsageError Overrides := do
  return {
    config := ← singlePath .config settings
    logLevel := ← single .logLevel settings
    logDir := ← singlePath .logDir settings }

def settings (items : List Item) : List (CommandOption × Text) :=
  items.filterMap fun
    | .setting option value => some (option, value)
    | _ => none

def switchesOf (items : List Item) : List Switch :=
  items.filterMap fun
    | .switch switch => some switch
    | _ => none

def operands (items : List Item) : List Text :=
  items.filterMap fun
    | .operand operand => some operand
    | _ => none

/-- The switch among the items: no command allows two. -/
def singleSwitch (items : List Item) : Except UsageError (Option Switch) :=
  match switchesOf items with
  | [] => .ok none
  | [switch] => .ok (some switch)
  | _ => .error .conflictingSwitches

/-- The only operand. -/
def singleOperand (items : List Item) : Except UsageError Text :=
  match operands items with
  | [] => .error .missingOperand
  | [operand] => .ok operand
  | _ :: extra :: _ => .error (.extraOperand extra)

/-- The number that an operand denotes. -/
def number {α : Type} (ofText? : Text → Option α) (operand : Text) : Except UsageError α :=
  (ofText? operand).elim (.error (.invalidNumber operand)) .ok

/-- The command that a verb and its items make. -/
def command (verb : Verb) (items : List Item) : Except UsageError Command := do
  let switch? ← singleSwitch items
  match verb with
  | .encode =>
    return .encode (← singleOperand items) (switch?.bind fun
      | .format format => some format
      | .mode _ => none)
  | .decode =>
    return .decode (← singleOperand items) (switch?.bind fun
      | .mode mode => some mode
      | .format _ => none)
  | .query => return .query (← singleOperand items)
  | .blockInterval =>
    match operands items with
    | [first, last, count] =>
      return .blockInterval (← number Numeral.int64? first) (← number Numeral.int64? last)
        (← number Numeral.uint64? count)
    | _ :: _ :: _ :: extra :: _ => throw (.extraOperand extra)
    | _ => throw .missingOperand

end Arguments

/-- The meaning of a command line. -/
def Invocation.ofArguments (args : List Text) : Except UsageError Invocation := do
  let (outer, rest) ← Arguments.readOptions args
  let outer ← Arguments.overrides outer
  match rest with
  | [] => throw .missingCommand
  | name :: args =>
    match Verb.named? name with
    | none => throw (.unknownCommand name)
    | some verb =>
      let items ← Arguments.readItems verb.switches verb.timeStamps args
      let inner ← Arguments.overrides (Arguments.settings items)
      return { command := ← Arguments.command verb items, overrides := inner.within outer }

end BlockExplorer
