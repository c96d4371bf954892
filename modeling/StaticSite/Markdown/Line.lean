import StaticSite.Markdown.Html
import StaticSite.Markdown.Link

/-!
# Lines

What a line may begin: a list item, a fence, a heading, a rule, a table. Blanks at the start of a
line are counted in columns; a tab reaches to the next multiple of four.
-/

namespace StaticSite.Markdown

/-- A place in a line, with the column it stands in. -/
structure Cursor where
  rest : List Char
  column : Nat

namespace Cursor

/-- The columns of blanks at a place. -/
def blanksFrom (column : Nat) : List Char → Nat × List Char
  | ' ' :: r =>
    let (n, rest) := blanksFrom (column + 1) r
    (n + 1, rest)
  | '\t' :: r =>
    let width := 4 - column % 4
    let (n, rest) := blanksFrom (column + width) r
    (n + width, rest)
  | r => (0, r)

/-- The columns of blanks in front of what is left of a line. -/
def indent (c : Cursor) : Nat :=
  (blanksFrom c.column c.rest).1

/-- The place behind the blanks. -/
def skipBlanks (c : Cursor) : Cursor :=
  let (n, rest) := blanksFrom c.column c.rest
  ⟨rest, c.column + n⟩

/-- The place `n` columns further, or behind the blanks if there are fewer. What is left of a tab
becomes spaces. -/
def skipColumns : Nat → Cursor → Cursor
  | 0, c => c
  | n + 1, c =>
    match c.rest with
    | ' ' :: r => skipColumns n ⟨r, c.column + 1⟩
    | '\t' :: r =>
      let width := 4 - c.column % 4
      skipColumns n ⟨List.replicate (width - 1) ' ' ++ r, c.column + 1⟩
    | _ => c

/-- The place behind `n` characters that are no blanks. -/
def drop (c : Cursor) (n : Nat) : Cursor :=
  ⟨c.rest.drop n, c.column + n⟩

/-- Whether nothing but blanks is left of a line. -/
def isBlank (c : Cursor) : Bool :=
  c.skipBlanks.rest.isEmpty

end Cursor

/-- The marker of a list. -/
inductive Marker where
  | bullet (mark : Char)
  | number (start : Nat) (delimiter : Char)

/-- Whether two markers may belong to items of one list. -/
def Marker.matches : Marker → Marker → Bool
  | bullet a, bullet b => a == b
  | number _ a, number _ b => a == b
  | _, _ => false

/-- The number with which a list begins. -/
def Marker.start? : Marker → Option Nat
  | bullet _ => none
  | number n _ => some n

/-- A marker at the start of `s`, and its width. -/
def marker? (s : List Char) : Option (Marker × Nat) :=
  match s with
  | [] => none
  | c :: _ =>
    if c = '-' ∨ c = '+' ∨ c = '*' then some (.bullet c, 1)
    else
      let digits := s.takeWhile Char.isDigit
      match s.drop digits.length with
      | d :: _ =>
        if digits ≠ [] ∧ digits.length ≤ 9 ∧ (d = '.' ∨ d = ')') then
          some (.number (Decimal.digitsValue digits) d, digits.length + 1)
        else none
      | [] => none

/-- Whether a line is a rule: at least three of one mark and blanks. -/
def isRule (s : List Char) : Bool :=
  let marks := s.filter fun c => c != ' ' && c != '\t'
  match marks with
  | c :: r => (c == '*' || c == '-' || c == '_') && 2 ≤ r.length && r.all (· == c)
  | [] => false

/-- A line without the blanks at its end. -/
def trimBlanksEnd (s : List Char) : List Char :=
  (s.reverse.dropWhile fun c => c == ' ' || c == '\t').reverse

/-- A line without the blanks at its ends. -/
def trimBlanks (s : List Char) : List Char :=
  trimBlanksEnd (s.dropWhile fun c => c == ' ' || c == '\t')

/-- The text of a heading without the number signs that close it. -/
def dropClosing (s : List Char) : List Char :=
  let s := trimBlanksEnd s
  let body := (s.reverse.dropWhile (· == '#')).reverse
  if body.length = s.length then s
  else if body.getLast?.all fun c => c == ' ' || c == '\t' then trimBlanksEnd body
  else s

/-- The level and text of a heading that number signs begin. -/
def heading? (s : List Char) : Option (Nat × List Char) :=
  let signs := s.takeWhile (· == '#')
  let rest := s.drop signs.length
  if signs.length = 0 ∨ 6 < signs.length then none
  else if rest.head?.all fun c => c == ' ' || c == '\t' then
    some (signs.length, dropClosing (trimBlanks rest))
  else none

/-- The level of the heading that an underline makes of the text above it. -/
def underline? (s : List Char) : Option Nat :=
  let s := trimBlanksEnd s
  match s with
  | '=' :: r => if r.all (· == '=') then some 1 else none
  | '-' :: r => if r.all (· == '-') then some 2 else none
  | _ => none

/-- The mark, length and info string of a code fence. -/
def fence? (s : List Char) : Option (Char × Nat × List Char) :=
  match s with
  | [] => none
  | c :: _ =>
    let marks := s.takeWhile (· == c)
    let info := s.drop marks.length
    if (c = '\x60' ∨ c = '~') ∧ 3 ≤ marks.length ∧ (c = '~' ∨ !info.contains '\x60') then
      some (c, marks.length, unescape (trimBlanks info))
    else none

/-- Whether a line closes a fence. -/
def closesFence (mark : Char) (length : Nat) (s : List Char) : Bool :=
  let marks := s.takeWhile (· == mark)
  length ≤ marks.length && (trimBlanks (s.drop marks.length)).isEmpty

/-! ## HTML blocks -/

/-- The elements whose tags begin a block of HTML that a blank line ends. -/
def blockElements : List String :=
  ["address", "article", "aside", "base", "basefont", "blockquote", "body", "caption", "center",
    "col", "colgroup", "dd", "details", "dialog", "dir", "div", "dl", "dt", "fieldset",
    "figcaption", "figure", "footer", "form", "frame", "frameset", "h1", "h2", "h3", "h4", "h5",
    "h6", "head", "header", "hr", "html", "iframe", "legend", "li", "link", "main", "menu",
    "menuitem", "nav", "noframes", "ol", "optgroup", "option", "p", "param", "search", "section",
    "summary", "table", "tbody", "td", "tfoot", "th", "thead", "title", "tr", "track", "ul"]

/-- The elements whose content is not read as markdown up to their end tag. -/
def verbatimElements : List String :=
  ["pre", "script", "style", "textarea"]

/-- What ends a block of HTML: one of some texts, or a blank line. -/
inductive HtmlEnd where
  | texts (all : List String)
  | blank

/-- Whether a line holds one of the texts that end a block, in any case. -/
def HtmlEnd.isIn (stop : HtmlEnd) (line : List Char) : Bool :=
  match stop with
  | texts all => all.any fun t => Text.occursIn t.toList (Text.lowerAscii line)
  | blank => false

/-- How a block of HTML ends that a line begins. A paragraph goes on at a line with another tag. -/
def htmlBlock? (inParagraph : Bool) (s : List Char) : Option HtmlEnd :=
  match s with
  | '<' :: '!' :: '-' :: '-' :: _ => some (.texts ["-->"])
  | '<' :: '?' :: _ => some (.texts ["?>"])
  | '<' :: '!' :: c :: r =>
    if c.isAlpha then some (.texts [">"])
    else if (c :: r).take 7 = "[CDATA[".toList then some (.texts ["]]>"])
    else none
  | '<' :: r =>
    let isEnd := r.head? == some '/'
    let nameStart := if isEnd then r.tail else r
    let name := nameStart.takeWhile Char.isAlphanum
    let key := String.ofList (name.map Char.toLower)
    let next := (nameStart.drop name.length)
    let stops := next.head?.all fun c => c == ' ' || c == '\t' || c == '>'
    if !isEnd && verbatimElements.contains key && stops then
      some (.texts (verbatimElements.map fun e => "</" ++ e ++ ">"))
    else if blockElements.contains key && (stops || next.take 2 == ['/', '>']) then some .blank
    else if inParagraph then none
    else
      let after := if isEnd then afterEndTag? r.tail else afterStartTag? r
      if after.any fun rest => (trimBlanks rest).isEmpty then some .blank else none
  | _ => none

/-! ## Tables -/

/-- The cells of a table row: bars separate them unless a backslash stands before. -/
def splitBars : List Char → List (List Char)
  | [] => [[]]
  | '\\' :: '|' :: r =>
    match splitBars r with
    | [] => [['|']]
    | cell :: cells => ('|' :: cell) :: cells
  | c :: r =>
    match splitBars r with
    | [] => [[c]]
    | cell :: cells => if c = '|' then [] :: cell :: cells else (c :: cell) :: cells

/-- The trimmed cells of a row without the bars at its ends. -/
def rowCells (line : List Char) : List (List Char) :=
  let line := trimBlanks line
  let line := if line.head? = some '|' then line.tail else line
  let cells := splitBars line
  let cells := if 1 < cells.length ∧ cells.getLast?.all (·.all isGap) then cells.dropLast else cells
  cells.map trimBlanks

/-- The alignment that a cell of a delimiter row stands for. -/
def alignment? (cell : List Char) : Option Alignment :=
  let left := cell.head? == some ':'
  let right := cell.getLast? == some ':'
  let dashes := cell.filter (· != ':')
  let colons := cell.length - dashes.length
  if dashes = [] ∨ !dashes.all (· == '-') ∨ colons ≠ left.toNat + right.toNat then none
  else
    some (match left, right with
      | true, true => .center
      | true, false => .left
      | false, true => .right
      | false, false => .none)

/-- The alignments in the line below a table's header. -/
def alignments? (line : List Char) : Option (List Alignment) :=
  if line.contains '|' ∨ line.contains ':' then (rowCells line).mapM alignment? else none

/-- The alignments of a table whose header and second line are given. -/
def table? (header line : List Char) : Option (List Alignment) :=
  if header.contains '|' then
    (alignments? line).filter fun as => as.length == (rowCells header).length
  else none

/-- Exactly `n` cells: further ones are dropped and missing ones are empty. -/
def fitCells (n : Nat) (cells : List (List Char)) : List (List Char) :=
  cells.take n ++ List.replicate (n - cells.length) []

/-- The label of a footnote's definition and the width of its mark. -/
def footnote? (s : List Char) : Option (List Char × Nat) :=
  match s with
  | '[' :: '^' :: r =>
    match label? labelLimit r with
    | some (label, ':' :: rest) =>
      if label = [] ∨ label.any isGap then none else some (label, s.length - rest.length)
    | _ => none
  | _ => none

end StaticSite.Markdown
