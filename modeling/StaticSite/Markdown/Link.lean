import StaticSite.Markdown.Entity
import StaticSite.Markdown.Html
import StaticSite.Markdown.Tree
import StaticSite.Text.Blank
import StaticSite.Text.Case

/-!
# Links

Where a link leads is written behind its text or under a label in a definition. Labels are compared
without regard to case and to the amount of blanks.
-/

namespace StaticSite.Markdown

/-- A destination between angle brackets, behind the first. -/
def bracketed : List Char → Option (List Char × List Char)
  | [] => none
  | '\\' :: c :: r => (bracketed r).map fun (d, rest) => ('\\' :: c :: d, rest)
  | c :: r =>
    if c = '>' then some ([], r)
    else if c = '<' ∨ c = '\n' then none
    else (bracketed r).map fun (d, rest) => (c :: d, rest)

/-- A destination without brackets; its parentheses are balanced. -/
def bare (depth : Nat) : List Char → Option (List Char × List Char)
  | [] => if depth = 0 then some ([], []) else none
  | '\\' :: c :: r =>
    if isMark c then (bare depth r).map fun (d, rest) => ('\\' :: c :: d, rest)
    else if c ≤ ' ' then if depth = 0 then some (['\\'], c :: r) else none
    else (bare depth r).map fun (d, rest) => ('\\' :: c :: d, rest)
  | c :: r =>
    if c = '(' then
      if depth = 32 then none else (bare (depth + 1) r).map fun (d, rest) => (c :: d, rest)
    else if c = ')' then
      match depth with
      | 0 => some ([], c :: r)
      | depth + 1 => (bare depth r).map fun (d, rest) => (c :: d, rest)
    else if c ≤ ' ' ∨ c = '\x7f' then if depth = 0 then some ([], c :: r) else none
    else (bare depth r).map fun (d, rest) => (c :: d, rest)

/-- A link's destination, and what stands behind it. -/
def destination? (s : List Char) : Option (List Char × List Char) :=
  match s with
  | '<' :: r => (bracketed r).map fun (d, rest) => (unescape d, rest)
  | _ => (bare 0 s).map fun (d, rest) => (unescape d, rest)

/-- The text up to an unescaped `close`. -/
def quotedUntil (close : Char) : List Char → Option (List Char × List Char)
  | [] => none
  | '\\' :: c :: r => (quotedUntil close r).map fun (t, rest) => ('\\' :: c :: t, rest)
  | c :: r =>
    if c = close then some ([], r)
    else if c = '(' ∧ close = ')' then none
    else (quotedUntil close r).map fun (t, rest) => (c :: t, rest)

/-- A link's title, and what stands behind it. -/
def title? (s : List Char) : Option (List Char × List Char) :=
  match s with
  | '"' :: r => (quotedUntil '"' r).map fun (t, rest) => (unescape t, rest)
  | '\'' :: r => (quotedUntil '\'' r).map fun (t, rest) => (unescape t, rest)
  | '(' :: r => (quotedUntil ')' r).map fun (t, rest) => (unescape t, rest)
  | _ => none

/-- Where a link leads whose text is followed by a parenthesis, behind that parenthesis. -/
def inlineTarget? (s : List Char) : Option (Target × List Char) := do
  let (address, r) ← destination? (skipGap s)
  let title := if r.head?.any isGap then title? (skipGap r) else none
  let (title, r) := title.getD ([], r)
  match skipGap r with
  | ')' :: rest => some (⟨address, title⟩, rest)
  | _ => none

/-- A label behind its opening bracket, and what stands behind its closing one. -/
def label? : Nat → List Char → Option (List Char × List Char)
  | 0, _ => none
  | _ + 1, [] => none
  | limit + 1, '\\' :: c :: r => (label? limit r).map fun (l, rest) => ('\\' :: c :: l, rest)
  | limit + 1, c :: r =>
    if c = ']' then some ([], r)
    else if c = '[' then none
    else (label? limit r).map fun (l, rest) => (c :: l, rest)

/-- The characters that a label may have. -/
def labelLimit : Nat := 1000

/-- Makes each run of blanks one space. -/
def squeeze : List Char → List Char
  | [] => []
  | c :: r =>
    if Text.isBlank c then
      match squeeze r with
      | ' ' :: rest => ' ' :: rest
      | rest => ' ' :: rest
    else c :: squeeze r

/-- The form in which labels are compared. -/
def normalLabel (label : List Char) : List Char :=
  Text.lower (Text.upper (squeeze (Text.trim label)))

/-- What stands behind the blanks at the end of a line, if nothing else is there. -/
def lineEnd? (s : List Char) : Option (List Char) :=
  match s.dropWhile fun c => c == ' ' || c == '\t' with
  | [] => some []
  | '\n' :: r => some r
  | _ => none

/-- A link definition at the start of a text, and what stands behind its line. An empty address is
written in angle brackets. -/
def definition? (s : List Char) : Option (List Char × Target × List Char) := do
  match s with
  | '[' :: r =>
    let (label, r) ← label? labelLimit r
    if Text.trim label = [] ∨ label.head? = some '^' then none
    match r with
    | ':' :: r =>
      let start := skipGap r
      let (address, r) ← destination? start
      if address = [] ∧ start.head? ≠ some '<' then none
      let (title, rest) : List Char × List Char ←
        match (if r.head?.any isGap then title? (skipGap r) else none) with
        | some (title, after) =>
          match lineEnd? after with
          | some rest => some (title, rest)
          | none => (lineEnd? r).map fun rest => ([], rest)
        | none => (lineEnd? r).map fun rest => ([], rest)
      return (normalLabel label, ⟨address, title⟩, rest)
    | _ => none
  | _ => none

/-- The link definitions at the start of a text, and what is left of it. -/
def definitions : Nat → List Char → List (List Char × Target) × List Char
  | 0, s => ([], s)
  | fuel + 1, s =>
    match definition? s with
    | none => ([], s)
    | some (label, target, rest) =>
      let (more, rest) := definitions fuel rest
      ((label, target) :: more, rest)

/-- The target of the first definition of a label. -/
def References.link? (refs : References) (label : List Char) : Option Target :=
  refs.links.lookup (normalLabel label)

/-- Whether a footnote of a label is defined. -/
def References.hasFootnote (refs : References) (label : List Char) : Bool :=
  refs.footnotes.contains label

end StaticSite.Markdown
