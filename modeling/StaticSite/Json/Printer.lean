import StaticSite.Json.Basic
import StaticSite.Decimal.Text

/-!
# Printing documents

The compact form has no blanks. The pretty form puts each item on a line of its own, indented by two
spaces for each level; empty arrays and objects stay on one line in both.
-/

namespace StaticSite.Json

/-- A hexadecimal digit, in lower case. -/
def hexDigit (n : Nat) : Char :=
  (Nat.digitChar n)

/-- One character between the quotes of a string. -/
def escapeChar (c : Char) : List Char :=
  if c == '"' || c == '\\' then ['\\', c]
  else if c == '\x08' then ['\\', 'b']
  else if c == '\x0c' then ['\\', 'f']
  else if c == '\n' then ['\\', 'n']
  else if c == '\r' then ['\\', 'r']
  else if c == '\t' then ['\\', 't']
  else if c.toNat < 0x20 then
    ['\\', 'u', '0', '0', hexDigit (c.toNat / 16), hexDigit (c.toNat % 16)]
  else [c]

/-- A string in quotes, with its special characters escaped. -/
def quote (s : String) : String :=
  String.ofList ('"' :: s.toList.flatMap escapeChar ++ ['"'])

/-- The text of an integer. -/
def intText (n : Int) : String :=
  String.ofList (Decimal.intText n)

mutual

/-- A document without blanks. -/
def compact : Json → String
  | null => "null"
  | bool b => if b then "true" else "false"
  | int n => intText n
  | float x => Decimal.documentText x
  | string s => quote s
  | array items => "[" ++ compactItems items ++ "]"
  | object fields => "\x7b" ++ compactFields fields ++ "\x7d"

/-- The items of an array without blanks, with commas between them. -/
def compactItems : List Json → String
  | [] => ""
  | [j] => j.compact
  | j :: rest => j.compact ++ "," ++ compactItems rest

/-- The fields of an object without blanks, with commas between them. -/
def compactFields : List (String × Json) → String
  | [] => ""
  | [(name, j)] => quote name ++ ":" ++ j.compact
  | (name, j) :: rest => quote name ++ ":" ++ j.compact ++ "," ++ compactFields rest

end

/-- The start of a new line at a level. -/
def indent (level : Nat) : String :=
  "\n" ++ String.ofList (List.replicate (2 * level) ' ')

mutual

/-- The pretty form of a value that stands at the given level. -/
def prettyAt (level : Nat) : Json → String
  | array [] => "[]"
  | array items => "[" ++ prettyItems (level + 1) items ++ indent level ++ "]"
  | object [] => "\x7b\x7d"
  | object fields => "\x7b" ++ prettyFields (level + 1) fields ++ indent level ++ "\x7d"
  | j => j.compact

/-- The items of an array, each on a line of its own. -/
def prettyItems (level : Nat) : List Json → String
  | [] => ""
  | [j] => indent level ++ prettyAt level j
  | j :: rest => indent level ++ prettyAt level j ++ "," ++ prettyItems level rest

/-- The fields of an object, each on a line of its own. -/
def prettyFields (level : Nat) : List (String × Json) → String
  | [] => ""
  | [(name, j)] => indent level ++ quote name ++ ": " ++ prettyAt level j
  | (name, j) :: rest =>
    indent level ++ quote name ++ ": " ++ prettyAt level j ++ "," ++ prettyFields level rest

end

/-- A document over several lines, with two blanks for each level. -/
def pretty (j : Json) : String :=
  prettyAt 0 j

end StaticSite.Json
