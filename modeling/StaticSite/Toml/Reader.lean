import StaticSite.Toml.Scalar
import StaticSite.Toml.Table

/-!
# Reading TOML

A document is a sequence of lines: pairs of a key and a value, headers of tables and of arrays of
tables, comments and blank lines. It is read as the document of its root table. A text that is no
document is refused without a reason.
-/

namespace StaticSite.Toml

/-! ## Keys -/

/-- Whether a character may stand in a key without quotes. -/
def isBare (c : Char) : Bool :=
  c.isAlphanum || c == '-' || c == '_'

/-- One name of a key. -/
def name? (s : List Char) : Option (String × List Char) :=
  match s with
  | '"' :: _ | '\'' :: _ => (string? s).map fun (name, r) => (String.ofList name, r)
  | _ =>
    let name := s.takeWhile isBare
    if name = [] then none else some (String.ofList name, s.drop name.length)

/-- The levels to which arrays, inline tables and keys may be nested. -/
def nestingLimit : Nat := 80

/-- The names of a dotted key; blanks may stand around the dots. -/
def names? : Nat → List Char → Option (List String × List Char)
  | 0, _ => none
  | fuel + 1, s => do
    let (name, r) ← name? (dropBlanks s)
    match dropBlanks r with
    | '.' :: r =>
      let (names, r) ← names? fuel r
      return (name :: names, r)
    | r => return ([name], r)

/-- The names of a key that is not too deep. -/
def key? (s : List Char) : Option (List String × List Char) :=
  (names? s.length s).filter fun (names, _) => names.length < nestingLimit

/-! ## Values -/

/-- Whether a character may stand in a value without quotes. -/
def isWordCharacter (c : Char) : Bool :=
  c.isAlphanum || c == '+' || c == '-' || c == '_' || c == '.' || c == ':'

/-- The next word, which goes on behind a blank when it is a date with a time of day. -/
def splitWord (s : List Char) : List Char × List Char :=
  let word := s.takeWhile isWordCharacter
  let rest := s.drop word.length
  match date? word, rest with
  | some (_, []), ' ' :: c :: _ =>
    if c.isDigit then
      let time := (rest.drop 1).takeWhile isWordCharacter
      (word ++ ' ' :: time, rest.drop (1 + time.length))
    else (word, rest)
  | _, _ => (word, rest)

/-- Steps over a comment. -/
def dropComment : List Char → List Char
  | '#' :: r => r.dropWhile isPlain
  | r => r

/-- Steps over blanks, newlines and comments. -/
def dropGaps : Nat → List Char → List Char
  | 0, s => s
  | fuel + 1, s =>
    match dropLines s with
    | '#' :: r => dropGaps fuel (r.dropWhile isPlain)
    | r => r

mutual

/-- A value, where `depth` levels may still be opened. -/
def value? (depth : Nat) : Nat → List Char → Option (Json × List Char)
  | 0, _ => none
  | fuel + 1, s =>
    match s with
    | '"' :: _ | '\'' :: _ => (anyString? s).map fun (t, r) => (.string (String.ofList t), r)
    | '[' :: r =>
      match depth with
      | 0 => none
      | depth + 1 => do
        let (items, r) ← items? depth fuel (dropGaps s.length r)
        return (.array items, r)
    | '{' :: r =>
      match depth with
      | 0 => none
      | depth + 1 =>
        match dropBlanks r with
        | '}' :: r => some (.object [], r)
        | r => do
          let (table, r) ← pairs? depth fuel [] r
          return (.object (fieldsToJson table), r)
    | _ =>
      let (word, r) := splitWord s
      (scalar? word).map fun v => (v, r)

/-- The items of an array up to its end. -/
def items? (depth : Nat) : Nat → List Char → Option (List Json × List Char)
  | 0, _ => none
  | fuel + 1, s =>
    match s with
    | ']' :: r => some ([], r)
    | _ => do
      let (item, r) ← value? depth fuel s
      match dropGaps r.length r with
      | ',' :: r =>
        let (items, r) ← items? depth fuel (dropGaps r.length r)
        return (item :: items, r)
      | ']' :: r => return ([item], r)
      | _ => none

/-- The pairs of an inline table up to its end. -/
def pairs? (depth : Nat) : Nat → Table → List Char → Option (Table × List Char)
  | 0, _, _ => none
  | fuel + 1, table, s => do
    let (names, r) ← key? s
    match r with
    | '=' :: r =>
      let (value, r) ← value? depth fuel (dropBlanks r)
      let table ← table.addDotted names.dropLast (names.getLast?.getD "") value
      match dropBlanks r with
      | ',' :: r => pairs? depth fuel table r
      | '}' :: r => return (table, r)
      | _ => none
    | _ => none

end

/-! ## Lines -/

/-- The root table and the header above the current line. -/
structure Draft where
  root : Table := []
  header : List String := []

/-- Adds a pair to the table of the current header. -/
def Draft.add (d : Draft) (key : List String) (value : Json) : Option Draft := do
  let change (table : Table) := table.addDotted key.dropLast (key.getLast?.getD "") value
  return { d with root := ← d.root.update false change d.header }

/-- Opens the table of a header with `openLast`. -/
def Draft.openAt (d : Draft) (key : List String) (openLast : String → Table → Option Table) :
    Option Draft := do
  let root ← d.root.update false (openLast (key.getLast?.getD "")) key.dropLast
  return ⟨root, key⟩

/-- The header's names and what stands behind its brackets. -/
def header? (close : List Char) (s : List Char) : Option (List String × List Char) := do
  let (key, r) ← key? s
  if r.take close.length = close then return (key, r.drop close.length) else none

/-- Reads what a line holds, up to its comment. -/
def line? (d : Draft) (s : List Char) : Option (Draft × List Char) :=
  match s with
  | [] => some (d, [])
  | '#' :: _ | '\n' :: _ | '\r' :: _ => some (d, s)
  | '[' :: '[' :: r => do
    let (key, r) ← header? [']', ']'] r
    return (← d.openAt key Table.openNext, r)
  | '[' :: r => do
    let (key, r) ← header? [']'] r
    return (← d.openAt key Table.openTable, r)
  | _ => do
    let (key, r) ← key? s
    match r with
    | '=' :: r =>
      let (value, rest) ← value? nestingLimit (2 * r.length + 2) (dropBlanks r)
      return (← d.add key value, rest)
    | _ => none

/-- Reads the lines of a document. -/
def lines? : Nat → Draft → List Char → Option Draft
  | 0, _, _ => none
  | fuel + 1, d, s => do
    let (d, r) ← line? d (dropBlanks s)
    match dropComment (dropBlanks r) with
    | [] => return d
    | r => lines? fuel d (← newline? r)

/-- Reads a document; a byte order mark may stand in front of it. -/
def read? (text : String) : Option Json := do
  let s := match text.toList with
    | '\ufeff' :: r => r
    | r => r
  let d ← lines? (s.length + 1) {} s
  return .object (fieldsToJson d.root)

end StaticSite.Toml
