import StaticSite.Page.Tag

/-!
# What a start tag does to the reading of a page

A start tag may switch to raw text, enter or leave the inside of a vector image or a formula, and it
may stand where a reader that builds no tree cannot tell whether the tag counts. The last is
refused.
-/

namespace StaticSite.Page

/-- How the text behind a start tag is read. -/
inductive TextMode where
  | markup
  | raw
  | script
  | toEnd
deriving DecidableEq

/-- The language of the elements at a place. -/
inductive Language where
  | html
  | image
  | formula
deriving DecidableEq

/-- Whether tags of raw text may be ignored at a place. -/
inductive Guard where
  | clear
  | inSelect
  | inTemplate (depth : Nat)
  | inFrames
deriving DecidableEq

/-- The languages that are open, the innermost first, and the guard. -/
structure Setting where
  outer : List Language := []
  language : Language := .html
  guard : Guard := .clear

/-- The elements whose content is raw text. -/
def rawElements : List String :=
  ["textarea", "title", "style", "iframe", "xmp", "noembed", "noframes", "noscript"]

/-- How the text in an element is read. -/
def textMode (name : String) : TextMode :=
  if name = "script" then .script
  else if name = "plaintext" then .toEnd
  else if rawElements.contains name then .raw
  else .markup

/-- The elements that have no content. -/
def voidElements : List String :=
  ["area", "base", "basefont", "bgsound", "br", "col", "embed", "hr", "img", "input", "keygen",
    "link", "meta", "param", "source", "track", "wbr"]

/-- The elements whose start tag ends an image or a formula. -/
def breakoutElements : List String :=
  ["b", "big", "blockquote", "body", "br", "center", "code", "dd", "div", "dl", "dt", "em", "embed",
    "h1", "h2", "h3", "h4", "h5", "h6", "head", "hr", "i", "img", "li", "listing", "menu", "meta",
    "nobr", "ol", "p", "pre", "ruby", "s", "small", "span", "strong", "strike", "sub", "sup",
    "table", "tt", "u", "ul", "var"]

/-- Whether the content of an element inside a language is HTML again. -/
def holdsHtml (language : Language) (name : String) : Bool :=
  match language with
  | .html => false
  | .image => ["desc", "title", "foreignobject"].contains name
  | .formula => ["mi", "mo", "mn", "ms", "mtext"].contains name

/-- Whether an annotation of a formula says that its content is HTML. -/
def annotatesHtml (tag : Tag) : Bool :=
  tag.name == "annotation-xml" && (tag.attribute? "encoding").any fun e =>
    ["text/html", "application/xhtml+xml"].contains (lowerName e.toList)

namespace Guard

/-- The guard behind a start tag, unless the tag may be one that is ignored. -/
def track (guard : Guard) (name : String) : Option Guard :=
  let switches := textMode name != .markup
  match guard with
  | clear =>
    if name = "select" then some inSelect
    else if name = "frameset" then some inFrames
    else some clear
  | inSelect =>
    if ["select", "textarea", "input", "keygen"].contains name then some clear
    else if name = "template" then some (inTemplate 1)
    else if switches && name != "script" then none
    else some inSelect
  | inTemplate depth =>
    if name = "template" then some (inTemplate (depth + 1))
    else if switches then none
    else some (inTemplate depth)
  | inFrames => if switches && name != "noframes" then none else some inFrames

/-- The guard behind an end tag. -/
def trackEnd (guard : Guard) (name : String) : Guard :=
  match guard with
  | inSelect => if name = "select" then clear else inSelect
  | inTemplate depth =>
    if name = "template" then (if depth = 1 then inSelect else inTemplate (depth - 1))
    else inTemplate depth
  | other => other

end Guard

namespace Setting

/-- Goes into markup of another language. -/
def enter (setting : Setting) (language : Language) : Setting :=
  { setting with outer := setting.language :: setting.outer, language }

/-- Goes back to the language around the present one. -/
def leave (setting : Setting) : Setting :=
  { setting with outer := setting.outer.tail, language := setting.outer.head?.getD .html }

/-- What a start tag changes inside an image or a formula. -/
def openForeign (setting : Setting) (tag : Tag) : Setting :=
  if breakoutElements.contains tag.name then setting.leave
  else if tag.name = "font" ∧
      tag.attributes.any fun a => ["color", "size", "face"].contains a.1 then setting.leave
  else if (holdsHtml setting.language tag.name ||
      (setting.language == .formula && annotatesHtml tag)) && !tag.selfClosing then
    setting.enter .html
  else setting

/-- The setting behind a start tag and how the text there is read; none if the tag is ambiguous. -/
def openTag (setting : Setting) (tag : Tag) : Option (Setting × TextMode) := do
  let setting := { setting with guard := ← setting.guard.track tag.name }
  if tag.name = "svg" then return (setting.enter .image, .markup)
  else if tag.name = "math" then return (setting.enter .formula, .markup)
  else if setting.language = .html then return (setting, textMode tag.name)
  else return (setting.openForeign tag, .markup)

/-- The setting behind an end tag. -/
def closeTag (setting : Setting) (name : String) : Setting :=
  let setting := { setting with guard := setting.guard.trackEnd name }
  match setting.language, setting.outer with
  | .html, outer :: _ =>
    if holdsHtml outer name || (outer == .formula && name == "annotation-xml") then setting.leave
    else setting
  | .image, _ => if name = "svg" then setting.leave else setting
  | .formula, _ => if name = "math" then setting.leave else setting
  | _, _ => setting

/-- Whether an element has content up to an end tag: in HTML its name decides, in images and
formulas the slash at the end of its tag. -/
def hasContent (setting : Setting) (tag : Tag) : Bool :=
  if setting.language = .html then !voidElements.contains tag.name else !tag.selfClosing

end Setting

end StaticSite.Page
