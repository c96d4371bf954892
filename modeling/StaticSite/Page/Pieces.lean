import StaticSite.Page.Grammar
import StaticSite.Page.RawText
import StaticSite.Text.Search

/-!
# The pieces of a page

A page is cut into text, start tags, end tags, and all else (comments, declarations, a tag that is
never closed). Every piece keeps its characters, so that the pieces written in order are the page.
-/

namespace StaticSite.Page

/-- A piece of a page. A start tag says whether its element has content up to an end tag. -/
inductive Piece where
  | text (source : List Char)
  | startTag (source : List Char) (tag : Tag) (hasContent : Bool)
  | endTag (source : List Char) (name : String)
  | other (source : List Char)

/-- The text of a piece, as it stands in the page. -/
def Piece.source : Piece → List Char
  | text s => s
  | startTag s _ _ => s
  | endTag s _ => s
  | other s => s

/-- What `s` has more than `rest`, which ends it. -/
def before (s rest : List Char) : List Char :=
  s.take (s.length - rest.length)

/-- Whether a character may begin the name of a tag. -/
def isLetter (c : Char) : Bool :=
  c.isAlpha

/-- What stands behind the first `>`. -/
def afterBracket (s : List Char) : List Char :=
  (s.dropWhile (· != '>')).tail

/-- What stands behind the end of a comment of which the opening bracket was read. -/
def afterComment : List Char → List Char
  | '>' :: r => r
  | '-' :: '>' :: r => r
  | s => search s
where
  /-- Behind the first `-->` or `--!>`. -/
  search : List Char → List Char
    | [] => []
    | '-' :: '-' :: '>' :: r => r
    | '-' :: '-' :: '!' :: '>' :: r => r
    | _ :: r => search r

/-- The content of a literal section, its end, and what stands behind it. -/
def splitSection (s : List Char) : List Char × List Char × List Char :=
  match Text.splitFirst [']', ']', '>'] s with
  | some (content, rest) => (content, [']', ']', '>'], rest)
  | none => (s, [], [])

/-- What a `<` begins. -/
inductive Opening where
  | tag (tag : Tag) (rest : List Char)
  | close (name : String) (rest : List Char)
  | comment (rest : List Char)
  | literal (rest : List Char)
  | unfinished
  | nothing

/-- Reads what begins with a `<` of which `s` follows. -/
def opening (language : Language) (s : List Char) : Opening :=
  match s with
  | '!' :: '-' :: '-' :: r => .comment (afterComment r)
  | '!' :: r =>
    if language ≠ .html ∧ r.take 7 = ['[', 'C', 'D', 'A', 'T', 'A', '['] then .literal (r.drop 7)
    else .comment (afterBracket r)
  | '?' :: r => .comment (afterBracket r)
  | '/' :: c :: r =>
    if isLetter c then
      match splitTag (c :: r) with
      | some (tag, rest) => .close tag.name rest
      | none => .unfinished
    else .comment (afterBracket (c :: r))
  | c :: r =>
    if isLetter c then
      match splitTag (c :: r) with
      | some (tag, rest) => .tag tag rest
      | none => .unfinished
    else .nothing
  | [] => .nothing

/-- Puts text that was read in reverse before the pieces that follow it. -/
def withText (text : List Char) (pieces : List Piece) : List Piece :=
  if text = [] then pieces else .text text.reverse :: pieces

/-- Cuts the rest of a page; `text` holds the text just read in reverse. -/
def cut : Nat → Setting → List Char → List Char → Option (List Piece)
  | 0, _, text, s => some (withText text [.other s])
  | _ + 1, _, text, [] => some (withText text [])
  | fuel + 1, setting, text, c :: r =>
    if c ≠ '<' then cut fuel setting (c :: text) r
    else
      match opening setting.language r with
      | .nothing => cut fuel setting (c :: text) r
      | .unfinished => some (withText text [.other (c :: r)])
      | .comment rest => do
        let pieces ← cut fuel setting [] rest
        return withText text (.other (before (c :: r) rest) :: pieces)
      | .literal inside => do
        let (content, close, rest) := splitSection inside
        let pieces ← cut fuel setting [] rest
        return withText text (.other (before (c :: r) inside) ::
          withText content.reverse (.other close :: pieces))
      | .close name rest => do
        let pieces ← cut fuel (setting.closeTag name) [] rest
        return withText text (.endTag (before (c :: r) rest) name :: pieces)
      | .tag tag rest => do
        let (inner, mode) ← setting.openTag tag
        let piece := Piece.startTag (before (c :: r) rest) tag (inner.hasContent tag)
        let (body, rest) := match mode with
          | .markup => ([], rest)
          | .raw => splitRaw tag.name.toList rest
          | .script => splitScript .plain rest
          | .toEnd => (rest, [])
        let pieces ← cut fuel inner [] rest
        return withText text (piece :: withText body.reverse pieces)

/-- The pieces of a page, or none if a tag is ambiguous. -/
def pieces (page : String) : Option (List Piece) :=
  cut (page.toList.length + 1) {} [] page.toList

end StaticSite.Page
