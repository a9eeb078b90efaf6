import BlockExplorer.Text.Numeral

/-!
# BlockExplorer — writing documents

Strings are written with short escapes where there are any, and the other
control characters by their number; every other character stands for itself.
An object of strings is written with one entry a line.
-/

namespace BlockExplorer.Json

/-- One character of a string. -/
def escaped (c : Char) : Text :=
  match c with
  | '"' => ['\\', '"']
  | '\\' => ['\\', '\\']
  | '\x08' => ['\\', 'b']
  | '\x0c' => ['\\', 'f']
  | '\n' => ['\\', 'n']
  | '\r' => ['\\', 'r']
  | '\t' => ['\\', 't']
  | _ => if c.toNat < 0x20 then ['\\', 'u'] ++ Numeral.hex 4 c.toNat else [c]

/-- A string with its quotes. -/
def string (t : Text) : Text :=
  ['"'] ++ t.flatMap escaped ++ ['"']

/-- A list of values, without blanks. -/
def list (values : List Text) : Text :=
  ['['] ++ Text.join [','] values ++ [']']

/-- An object of values, without blanks. -/
def compactObject (entries : List (Text × Text)) : Text :=
  ['\x7b'] ++ Text.join [','] (entries.map fun (key, value) => string key ++ [':'] ++ value) ++
    ['\x7d']

/-- An entry of an object on a line of its own. -/
def entryLine (key value : Text) : Text :=
  ['\n', ' ', ' '] ++ string key ++ [':', ' '] ++ string value

/-- An object of strings, one entry a line. -/
def prettyObject (entries : List (Text × Text)) : Text :=
  match entries with
  | [] => ['\x7b', '\x7d']
  | _ =>
    ['\x7b'] ++ Text.join [','] (entries.map fun (key, value) => entryLine key value) ++
      ['\n', '\x7d']

end BlockExplorer.Json
