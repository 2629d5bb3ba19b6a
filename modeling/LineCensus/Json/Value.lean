import LineCensus.Text.Quoted
import LineCensus.Number.Shortest

/-!
# Writing JSON

`Value` is what a JSON text stands for. It is written on one line (`compact`) or with one item or
member a line, indented by two spaces a level (`pretty`). In strings only quotes, backslashes and
the characters below U+0020 are escaped.
-/

namespace LineCensus.Json

/-- What a JSON text stands for. Decimals are binary numbers, written with the fewest digits. -/
inductive Value where
  | null
  | bool (b : Bool)
  | natural (n : Nat)
  | decimal (x : Binary64)
  | string (t : Text)
  | list (items : List Value)
  | object (members : List (String × Value))

namespace Value

/-- A character inside a string. -/
def escape (c : Char) : Text :=
  if c = '"' then ['\\', '"']
  else if c = '\\' then ['\\', '\\']
  else if c = '\x08' then ['\\', 'b']
  else if c = '\x0c' then ['\\', 'f']
  else if c = '\n' then ['\\', 'n']
  else if c = '\r' then ['\\', 'r']
  else if c = '\t' then ['\\', 't']
  else if c.toNat < 0x10 then ['\\', 'u', '0', '0', '0'] ++ Text.hex c.toNat
  else if c.toNat < 0x20 then ['\\', 'u', '0', '0'] ++ Text.hex c.toNat
  else [c]

/-- A string. -/
def quote (t : Text) : Text := '"' :: t.flatMap escape ++ ['"']

/-- A value that is neither a list nor an object. -/
def scalar : Value → Text
  | null => ['n', 'u', 'l', 'l']
  | bool true => ['t', 'r', 'u', 'e']
  | bool false => ['f', 'a', 'l', 's', 'e']
  | natural n => Text.ofNat n
  | decimal x => x.toText
  | string t => quote t
  | list _ => ['[', ']']
  | object _ => ['\x7b', '\x7d']

mutual

/-- The text of a value on one line. -/
def compact : Value → Text
  | list items => '[' :: compactItems items ++ [']']
  | object members => '\x7b' :: compactMembers members ++ ['\x7d']
  | v => scalar v

/-- Items, with commas between them. -/
def compactItems : List Value → Text
  | [] => []
  | [v] => compact v
  | v :: w :: rest => compact v ++ ',' :: compactItems (w :: rest)

/-- Members, with commas between them. -/
def compactMembers : List (String × Value) → Text
  | [] => []
  | [(k, v)] => quote k.toList ++ ':' :: compact v
  | (k, v) :: m :: rest => quote k.toList ++ ':' :: compact v ++ ',' :: compactMembers (m :: rest)

end

/-- The beginning of a line at this level. -/
def indent (level : Nat) : Text := '\n' :: List.replicate (2 * level) ' '

mutual

/-- The text of a value with one item or member a line, at this level. -/
def prettyAt (level : Nat) : Value → Text
  | list (v :: rest) => '[' :: prettyItems (level + 1) (v :: rest) ++ indent level ++ [']']
  | object (m :: rest) => '\x7b' :: prettyMembers (level + 1) (m :: rest) ++ indent level ++ ['\x7d']
  | v => scalar v

/-- Items, each on a line of its own. -/
def prettyItems (level : Nat) : List Value → Text
  | [] => []
  | [v] => indent level ++ prettyAt level v
  | v :: w :: rest => indent level ++ prettyAt level v ++ ',' :: prettyItems level (w :: rest)

/-- Members, each on a line of its own. -/
def prettyMembers (level : Nat) : List (String × Value) → Text
  | [] => []
  | [(k, v)] => indent level ++ quote k.toList ++ [':', ' '] ++ prettyAt level v
  | (k, v) :: m :: rest =>
    indent level ++ quote k.toList ++ [':', ' '] ++ prettyAt level v ++ ',' :: prettyMembers level (m :: rest)

end

/-- The text of a value with one item or member a line. -/
def pretty (v : Value) : Text := prettyAt 0 v

/-- The value of a list of texts. -/
def texts (ts : List Text) : Value := list (ts.map string)

end Value

end LineCensus.Json
