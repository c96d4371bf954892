import StaticSite.Markdown.Block
import StaticSite.Markdown.Code
import StaticSite.Markdown.Inline

/-!
# Writing markdown as HTML

Each block begins on a line of its own unless nothing was written since the last newline. Running
text escapes ampersands and angle brackets, attributes also double quotes, and addresses are written
in the characters that may stand in them. Footnotes are numbered in the order in which they are met.
-/

namespace StaticSite.Markdown

/-- A character as it is written in running text. -/
def escapeBodyChar (c : Char) : List Char :=
  match c with
  | '&' => "&amp;".toList
  | '<' => "&lt;".toList
  | '>' => "&gt;".toList
  | c => [c]

/-- A text as it is written in running text. -/
def escapeBody (s : List Char) : List Char :=
  s.flatMap escapeBodyChar

/-- A text as it is written in an attribute. -/
def escapeValue (s : List Char) : List Char :=
  (Text.escapeAttribute (String.ofList s)).toList

/-- The characters that may stand in an address. -/
def isAddressChar (c : Char) : Bool :=
  c.isAlphanum || "!#$%()*+,-./:;=?@_~".toList.contains c

/-- A hexadecimal digit, in upper case. -/
def hexDigit (n : Nat) : Char :=
  if n < 10 then Char.ofNat (48 + n) else Char.ofNat (55 + n)

/-- A byte as it is written in an address. -/
def percent (b : UInt8) : List Char :=
  ['%', hexDigit (b.toNat / 16), hexDigit (b.toNat % 16)]

/-- A character as it is written in an address. -/
def escapeAddressChar (c : Char) : List Char :=
  if isAddressChar c then [c]
  else if c = '&' then "&amp;".toList
  else if c = '\'' then "&#x27;".toList
  else (String.singleton c).toUTF8.toList.flatMap percent

/-- An address as it is written in an attribute. -/
def escapeAddress (s : List Char) : List Char :=
  s.flatMap escapeAddressChar

/-! ## What was written -/

/-- The output in reverse, and the footnotes that were met, the last one first. -/
structure Page where
  output : List Char := []
  notes : List (List Char) := []

namespace Page

/-- Writes a text behind what is written. -/
def write (p : Page) (s : List Char) : Page :=
  { p with output := s.reverse ++ p.output }

/-- Writes a string behind what is written. -/
def writeText (p : Page) (s : String) : Page :=
  p.write s.toList

/-- Begins a line unless one was just begun. -/
def newLine (p : Page) : Page :=
  if p.output.head?.all (· == '\n') then p else p.write ['\n']

/-- The number of a footnote, which it gets when it is met first. -/
def number (p : Page) (label : List Char) : Page × Nat :=
  let position := p.notes.reverse.idxOf label
  if position < p.notes.length then (p, position + 1)
  else ({ p with notes := label :: p.notes }, p.notes.length + 1)

end Page

/-! ## Running text -/

mutual

/-- The text of parts without their markup, as an image is described by it. -/
def described : Inline → List Char
  | .text s => s
  | .code s => s
  | .math isDisplay tex => mathText isDisplay tex
  | .emphasis inner => describedAll inner
  | .strong inner => describedAll inner
  | .strike inner => describedAll inner
  | .link _ _ inner => describedAll inner
  | .image _ _ inner => describedAll inner
  | .html s => s
  | .softBreak => [' ']
  | .hardBreak => [' ']
  | .footnote label => '[' :: label ++ [']']

/-- The plain text of some inlines, one after the other. -/
def describedAll : List Inline → List Char
  | [] => []
  | i :: rest => described i ++ describedAll rest

/-- Mathematics as it was written. -/
def mathText (isDisplay : Bool) (tex : List Char) : List Char :=
  let mark := if isDisplay then ['$', '$'] else ['$']
  mark ++ tex ++ mark

end

/-- The attribute for a title, if there is one. -/
def titleAttribute (title : List Char) : List Char :=
  if title = [] then [] else " title=\"".toList ++ escapeValue title ++ ['"']

mutual

/-- Writes an inline with all that is in it. -/
def writeInline (p : Page) : Inline → Page
  | .text s => p.write (escapeBody s)
  | .code s => ((p.writeText "<code>").write (escapeBody s)).writeText "</code>"
  | .math isDisplay tex => p.write (escapeBody (mathText isDisplay tex))
  | .emphasis inner => (writeInlines (p.writeText "<em>") inner).writeText "</em>"
  | .strong inner => (writeInlines (p.writeText "<strong>") inner).writeText "</strong>"
  | .strike inner => (writeInlines (p.writeText "<del>") inner).writeText "</del>"
  | .link target title inner =>
    let p := (p.writeText "<a href=\"").write (escapeAddress target ++ ['"'])
    (writeInlines ((p.write (titleAttribute title)).writeText ">") inner).writeText "</a>"
  | .image source title inner =>
    let p := (p.writeText "<img src=\"").write (escapeAddress source)
    let p := (p.writeText "\" alt=\"").write (escapeValue (describedAll inner) ++ ['"'])
    (p.write (titleAttribute title)).writeText " />"
  | .html s => p.write s
  | .softBreak => p.writeText "\n"
  | .hardBreak => p.writeText "<br />\n"
  | .footnote label =>
    let (p, n) := p.number label
    let p := (p.writeText "<sup class=\"footnote-reference\"><a href=\"#").write (escapeValue label)
    p.writeText ("\">" ++ String.ofList (Decimal.natText n) ++ "</a></sup>")

/-- Writes inlines one after the other. -/
def writeInlines (p : Page) : List Inline → Page
  | [] => p
  | i :: rest => writeInlines (writeInline p i) rest

end

/-! ## Blocks -/

/-- The attribute for the alignment of a cell. -/
def alignmentAttribute : Alignment → String
  | .none => ""
  | .left => " style=\"text-align: left\""
  | .center => " style=\"text-align: center\""
  | .right => " style=\"text-align: right\""

/-- Writes the cells of a row with elements of the given name. -/
def writeCells (refs : References) (name : String) (p : Page) :
    List Alignment → List (List Char) → Page
  | a :: as, cell :: cells =>
    let p := p.writeText ("<" ++ name ++ alignmentAttribute a ++ ">")
    let p := (writeInlines p (inlines refs cell)).writeText ("</" ++ name ++ ">")
    writeCells refs name p as cells
  | _, _ => p

/-- The check box that a list item may begin with, and the text behind it. -/
def checkBox? : List Char → Option (Bool × List Char)
  | '[' :: mark :: ']' :: c :: rest =>
    if isGap c then
      if mark = ' ' then some (false, rest)
      else if mark = 'x' ∨ mark = 'X' then some (true, rest)
      else none
    else none
  | _ => none

/-- The box in front of a task. -/
def checkBoxText (isChecked : Bool) : String :=
  if isChecked then "<input disabled=\"\" type=\"checkbox\" checked=\"\"/>\n"
  else "<input disabled=\"\" type=\"checkbox\"/>\n"

/-- Writes the text of a paragraph, with a check box if it begins a list item. -/
def writeParagraph (refs : References) (beginsItem : Bool) (p : Page) (source : List Char) : Page :=
  match if beginsItem then checkBox? source else none with
  | some (isChecked, rest) =>
    writeInlines (p.writeText (checkBoxText isChecked)) (inlines refs (skipGap rest))
  | none => writeInlines p (inlines refs source)

/-- The tag that opens a list. -/
def listTag (start : Option Nat) : String :=
  match start with
  | none => "<ul>\n"
  | some 1 => "<ol>\n"
  | some n => "<ol start=\"" ++ String.ofList (Decimal.natText n) ++ "\">\n"

/-- The first word of an info string, which names a language. -/
def languageWord (info : List Char) : Option String :=
  let word := (Text.trimStart info).takeWhile (!Text.isBlank ·)
  if word = [] then none else some (String.ofList word)

mutual

/-- Writes a block. In a tight list a paragraph is written without its element. -/
def writeBlock (refs : References) (isTight beginsItem : Bool) (p : Page) : Block → Page
  | .paragraph source =>
    if isTight then writeParagraph refs beginsItem p source
    else
      (writeParagraph refs beginsItem (p.newLine.writeText "<p>") source).writeText "</p>\n"
  | .heading level source =>
    let name := "h" ++ String.ofList (Decimal.natText level)
    (writeInlines (p.newLine.writeText ("<" ++ name ++ ">")) (inlines refs source)).writeText
      ("</" ++ name ++ ">\n")
  | .rule => p.newLine.writeText "<hr />\n"
  | .code info text =>
    p.writeText (codeMarkup (info.bind languageWord) (String.ofList text))
  | .html text => p.write text
  | .quote inner =>
    (writeBlocks refs false false (p.newLine.writeText "<blockquote>\n") inner).writeText
      "</blockquote>\n"
  | .list start isTight items =>
    (writeBlocks refs isTight false (p.newLine.writeText (listTag start)) items).writeText
      (if start.isSome then "</ol>\n" else "</ul>\n")
  | .item inner =>
    (writeBlocks refs isTight true (p.newLine.writeText "<li>") inner).writeText "</li>\n"
  | .table alignments header rows =>
    let p := p.writeText "<table><thead><tr>"
    let p := (writeCells refs "th" p alignments header).writeText "</tr></thead><tbody>\n"
    let row (p : Page) (cells : List (List Char)) : Page :=
      (writeCells refs "td" (p.writeText "<tr>") alignments cells).writeText "</tr>\n"
    (rows.foldl row p).writeText "</tbody></table>\n"
  | .footnote label inner =>
    let p := (p.newLine.writeText "<div class=\"footnote-definition\" id=\"").write
      (escapeValue label)
    let (p, n) := p.number label
    let p := p.writeText ("\"><sup class=\"footnote-definition-label\">" ++
      String.ofList (Decimal.natText n) ++ "</sup>")
    (writeBlocks refs false false p inner).writeText "</div>\n"
  | .definitions => p

/-- Writes blocks, of which the first one may begin a list item. -/
def writeBlocks (refs : References) (isTight beginsItem : Bool) (p : Page) : List Block → Page
  | [] => p
  | block :: rest =>
    writeBlocks refs isTight false (writeBlock refs isTight beginsItem p block) rest

end

/-- The HTML of a markdown text. -/
def render (source : String) : String :=
  let (blocks, refs) := read source.toList
  String.ofList (writeBlocks refs false false {} blocks).output.reverse

end StaticSite.Markdown
