import StaticSite.Page.Edit

/-!
# Pages as they stream

A page is not finished as a whole. Its tags are met one after the other, and each text arrives in
chunks of which the last one is marked. Handlers for scripts and styles collect the chunks, each in
a buffer of its own, and write the minified whole in place of the last chunk. A style in a script is
collected by both, and what the handler of styles writes counts.
-/

namespace StaticSite.Page

/-- What is met of a page. -/
inductive Event where
  | chunk (source : String) (isLast : Bool)
  | startTag (source : String) (tag : Tag) (hasContent : Bool)
  | endTag (source : String) (name : String)
  | other (source : String)

/-- What the handlers share. -/
structure Stream extends Progress where
  scriptText : String := ""
  styleText : String := ""

/-- What is in a buffer behind a chunk, and what is written in place of the chunk. -/
def collect (minify : String → String) (buffer chunk : String) (isLast : Bool) : String × String :=
  if isLast then ("", minify (buffer ++ chunk)) else (buffer ++ chunk, "")

namespace Progress

/-- Whether texts are collected as the text of a script. -/
def collectsScript (p : Progress) : Bool :=
  p.minifiesScript && p.elements.contains "script"

/-- Whether texts are collected as the text of a style. -/
def collectsStyle (p : Progress) : Bool :=
  p.minifiesStyle && p.elements.contains "style"

end Progress

namespace Stream

/-- The stream behind a chunk, and what is written in place of the chunk. -/
def takeChunk (s : Stream) (chunk : String) (isLast : Bool) : Stream × String :=
  let (s, written) :=
    if s.collectsScript then
      let (buffer, written) := collect Minify.script s.scriptText chunk isLast
      ({ s with scriptText := buffer }, written)
    else (s, chunk)
  if s.collectsStyle then
    let (buffer, written) := collect Minify.style s.styleText chunk isLast
    ({ s with styleText := buffer }, written)
  else (s, written)

/-- The stream behind an event, and what is written. -/
def meet (head : String) (s : Stream) : Event → Stream × String
  | .chunk source isLast => s.takeChunk source isLast
  | .startTag source tag hasContent => ({ s with toProgress := s.openTag tag hasContent }, source)
  | .endTag source name =>
    ({ s with toProgress := s.closeTag name },
      (if (s.closedBy name).contains "head" then head else "") ++ source)
  | .other source => (s, source)

/-- Writes what is met of a page with `head` before the end of its head. -/
def write (head : String) (s : Stream) : List Event → List String
  | [] => []
  | event :: rest => (s.meet head event).2 :: write head (s.meet head event).1 rest

end Stream

end StaticSite.Page
