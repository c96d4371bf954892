import StaticSite.Minify.Script
import StaticSite.Minify.Style
import StaticSite.Page.Pieces
import StaticSite.Site.Problem
import StaticSite.Text.Blank
import StaticSite.Text.Case
import StaticSite.Text.Escape

/-!
# Finishing pages

The last pass over a page minifies its scripts and styles and adds stylesheets at the end of its
head. All else stays as it was written.
-/

namespace StaticSite.Page

/-- What is added to the head of a page. -/
structure HeadJob where
  /-- The names of the stylesheets to link. -/
  stylesheets : List String := []
  /-- A stylesheet that is put into the page. -/
  inlineStyle : Option String := none

/-- Where a stylesheet is linked: one whose name begins with `./` is beside the page. -/
def stylesheetHref (name : String) : String :=
  match name.toList with
  | '.' :: '/' :: rest => "./css/" ++ String.ofList rest ++ ".css"
  | _ => "/css/" ++ name ++ ".css"

/-- The markup that links a stylesheet. -/
def stylesheetLink (name : String) : String :=
  "<link rel=\"stylesheet\" href=\"" ++ Text.escapeAttribute (stylesheetHref name) ++ "\">"

/-- The markup that is added to the head. -/
def HeadJob.markup (job : HeadJob) : String :=
  String.join (job.stylesheets.map stylesheetLink) ++
    (match job.inlineStyle with
      | some css => "<style>" ++ Minify.style css ++ "</style>"
      | none => "")

/-- The type of a script or style as it is compared. -/
def typeName (kind : String) : String :=
  String.ofList (Text.lowerAscii (Text.trim kind.toList))

/-- The types of scripts whose text is code. -/
def scriptTypes : List String :=
  ["", "javascript", "text/javascript", "application/javascript", "text/ecmascript",
    "application/ecmascript", "module"]

/-- The types of styles whose text is code. -/
def styleTypes : List String :=
  ["", "text/css"]

/-- Whether an element's type is absent or among those given. -/
def hasType (tag : Tag) (types : List String) : Bool :=
  (tag.attribute? "type").all fun kind => types.contains (typeName kind)

/-- The elements that are open, the innermost first, and whether the last script and the last style
are to be minified. -/
structure Progress where
  elements : List String := []
  minifiesScript : Bool := false
  minifiesStyle : Bool := false

namespace Progress

/-- The text inside the open elements as it is written. -/
def writeText (p : Progress) (source : List Char) : String :=
  let text := String.ofList source
  if p.minifiesStyle && p.elements.contains "style" then Minify.style text
  else if p.minifiesScript && p.elements.contains "script" then Minify.script text
  else text

/-- The progress behind a start tag. -/
def openTag (p : Progress) (tag : Tag) (hasContent : Bool) : Progress :=
  let p := if hasContent then { p with elements := tag.name :: p.elements } else p
  if tag.name = "script" then { p with minifiesScript := hasType tag scriptTypes }
  else if tag.name = "style" then { p with minifiesStyle := hasType tag styleTypes }
  else p

/-- The open elements that an end tag closes, the innermost first. -/
def closedBy (p : Progress) (name : String) : List String :=
  if p.elements.contains name then p.elements.takeWhile (· != name) ++ [name] else []

/-- Closes the elements that an end tag closes. -/
def closeTag (p : Progress) (name : String) : Progress :=
  { p with elements := p.elements.drop (p.closedBy name).length }

end Progress

/-- Writes the pieces of a page with `head` before the end of its head. -/
def write (head : String) (p : Progress) : List Piece → List String
  | [] => []
  | .text source :: rest => p.writeText source :: write head p rest
  | .other source :: rest => String.ofList source :: write head p rest
  | .startTag source tag hasContent :: rest =>
    String.ofList source :: write head (p.openTag tag hasContent) rest
  | .endTag source name :: rest =>
    (if (p.closedBy name).contains "head" then head else "") ::
      String.ofList source :: write head (p.closeTag name) rest

/-- Finishes a page. -/
def finish (page : String) (job : HeadJob) : Except MarkupError String :=
  match pieces page with
  | none => .error .ambiguous
  | some ps => .ok (String.join (write job.markup {} ps))

end StaticSite.Page
