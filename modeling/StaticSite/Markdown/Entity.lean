import StaticSite.Json.Reader
import StaticSite.Markdown.EntityTable
import StaticSite.Text.Search

/-!
# Character references and escapes

A reference between an ampersand and a semicolon stands for one character or two. A backslash before
a mark of ASCII takes away its meaning.
-/

namespace StaticSite.Markdown

/-- The marks of ASCII, which a backslash may stand before. -/
def isMark (c : Char) : Bool :=
  let n := c.toNat
  (0x21 ≤ n && n ≤ 0x2f) || (0x3a ≤ n && n ≤ 0x40) || (0x5b ≤ n && n ≤ 0x60) ||
    (0x7b ≤ n && n ≤ 0x7e)

/-- The character of a code point; an invalid one is replaced. -/
def referenced (n : Nat) : Char :=
  if n = 0 ∨ !n.isValidChar then '\ufffd' else Char.ofNat n

/-- The number that hexadecimal digits stand for. -/
def hexNumber (digits : List Char) : Nat :=
  digits.foldl (fun n c => 16 * n + (Json.hexValue? c).getD 0) 0

/-- The characters of a table entry behind the name it is looked up by. -/
def entryFor? (name : List Char) (entry : List Char) : Option (List Char) :=
  (Text.after? (name ++ [':']) entry).map fun codes =>
    (Text.splitAt ['+'] codes).map fun digits => referenced (hexNumber digits)

/-- The characters that a named entity stands for. -/
def named? (name : List Char) : Option (List Char) :=
  entityLines.findSome? fun line => (Text.splitAt [' '] line.toList).findSome? (entryFor? name)

/-- A number in a reference, of at most `limit` digits, and what stands behind its semicolon. -/
def numbered? (isDigit : Char → Bool) (limit : Nat) (value : List Char → Nat) (s : List Char) :
    Option (List Char × List Char) :=
  let digits := s.takeWhile isDigit
  match s.drop digits.length with
  | ';' :: r =>
    if digits ≠ [] ∧ digits.length ≤ limit then some ([referenced (value digits)], r) else none
  | _ => none

/-- Whether a character is a hexadecimal digit. -/
def isHexDigit (c : Char) : Bool :=
  (Json.hexValue? c).isSome

/-- The characters that a reference behind its ampersand stands for, and what follows it. -/
def reference? (s : List Char) : Option (List Char × List Char) :=
  match s with
  | '#' :: 'x' :: r | '#' :: 'X' :: r => numbered? isHexDigit 6 hexNumber r
  | '#' :: r => numbered? Char.isDigit 7 Decimal.digitsValue r
  | _ =>
    let name := s.takeWhile Char.isAlphanum
    match s.drop name.length with
    | ';' :: r => if name = [] then none else (named? name).map fun cs => (cs, r)
    | _ => none

/-- Text in which escapes and references are replaced by what they stand for. -/
def plain : Nat → List Char → List Char
  | 0, s => s
  | _ + 1, [] => []
  | fuel + 1, c :: r =>
    match c, r with
    | '\\', m :: r => if isMark m then m :: plain fuel r else '\\' :: plain fuel (m :: r)
    | '&', r =>
      match reference? r with
      | some (cs, r) => cs ++ plain fuel r
      | none => '&' :: plain fuel r
    | c, r => c :: plain fuel r

/-- The text that a destination, a title or an info string stands for. -/
def unescape (s : List Char) : List Char :=
  plain s.length s

end StaticSite.Markdown
