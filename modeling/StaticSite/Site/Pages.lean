import StaticSite.Site.Render

/-!
# The pages of the content

Each node of a content tree that has a specification is a page. The pages are listed depth first,
each node before those below it, and this is the order of their addresses; they may be rendered in
any order that keeps every page behind those above it.
-/

namespace StaticSite

/-- A page of the content. -/
structure ContentPage where
  spec : ItemSpec
  /-- Its directory, seen from the website. -/
  source : String
  /-- Its address, seen from that of the site. -/
  url : String

namespace ContentTree

mutual

/-- The pages of a node, which has the given source and address, and of the nodes below it. -/
def pagesFrom (source : Path) (url : String) : ContentTree → List ContentPage
  | node _ _ spec children =>
    (spec.map fun s => ⟨s, source.text, url⟩).toList ++ pagesBelow source url children

/-- The pages of some nodes in a directory, and of the nodes below them. -/
def pagesBelow (source : Path) (url : String) : List ContentTree → List ContentPage
  | [] => []
  | t :: rest =>
    pagesFrom (source.join t.name) (Url.join url t.name) t ++ pagesBelow source url rest

end

/-- The pages of the content that is gathered from a directory of the website. -/
def pages (tree : ContentTree) (contents : String) : List ContentPage :=
  tree.pagesFrom ⟨contents⟩ ""

end ContentTree

/-! ## Orders -/

/-- A way to choose the order in which pages are rendered, by their positions. Each page is rendered
as a whole before the next one begins: that the calls of siblings on the disk and on the session
come interleaved, as when they are rendered at the same time, is not modelled. -/
abbrev RenderOrder := List ContentPage → List Nat

namespace RenderOrder

/-- Each page before those below it, and these before its siblings. -/
def depthFirst : RenderOrder :=
  fun pages => List.range pages.length

/-- The number of nodes above a page. -/
def depthOf (pages : List ContentPage) (position : Nat) : Nat :=
  match pages[position]? with
  | some page => (Url.breadCrumb page.url).length
  | none => 0

/-- All pages of one depth before those that are deeper, so that siblings come one after the
other. -/
def byDepth : RenderOrder :=
  fun pages => sortBy (fun a b => depthOf pages a ≤ depthOf pages b) (depthFirst pages)

end RenderOrder

/-! ## Rendering -/

namespace Renderer

/-- Renders a page of the content. -/
def renderPage (r : Renderer) (output : Path) (page : ContentPage) :
    SiteTask RenderError (Option String) :=
  r.render page.spec page.source (output.join page.url) page.url .content

/-- Renders the pages at some positions one after the other and keeps each address beside the
position of its page. -/
def renderAt (r : Renderer) (output : Path) (pages : List ContentPage) :
    List Nat → SiteTask RenderError (List (Nat × String))
  | [] => return []
  | position :: rest => do
    let address ← match pages[position]? with
      | some page => r.renderPage output page
      | none => pure none
    return (address.map fun a => (position, a)).toList ++ (← renderAt r output pages rest)

/-- Renders pages in a chosen order and lists their addresses in the order of the pages. -/
def renderPages (r : Renderer) (output : Path) (order : RenderOrder) (pages : List ContentPage) :
    SiteTask RenderError (List String) := do
  let addresses ← r.renderAt output pages (order pages)
  return (List.range pages.length).filterMap (List.lookup · addresses)

end Renderer

end StaticSite
