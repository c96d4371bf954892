import StaticSite.Content.Tree
import StaticSite.Markdown.Writer
import StaticSite.Page.Edit
import StaticSite.Site.Resources
import StaticSite.Template.Date

/-!
# Rendering pages

A page is made from a specification: its markdown files become variables, its template is run, the
output is finished and written, and its resources are copied next to it. Without a specification, or
with a template that the theme does not have, there is no page.
-/

namespace StaticSite

/-- The name under which the stylesheet of markdown pages is registered. -/
def markdownStylesheet : String :=
  "markdown"

/-- Where a page is written and which template it has unless it names one. -/
inductive PageTarget where
  | content
  | singleton (name : String)

namespace PageTarget

/-- The name of the page's file without its extension. -/
def stem : PageTarget → String
  | content => "index"
  | singleton name => name

/-- The template of a page that names none. -/
def fallback : PageTarget → String
  | content => "default"
  | singleton name => name

end PageTarget

/-- The HTML of a markdown file. -/
def Markdown.renderFile (disk : Disk) (path : Path) : Except MarkupError String :=
  match disk.readText path with
  | .ok source => .ok (render source)
  | .error cause => .error (.unreadable path cause)

/-- What all pages of a site are made with. -/
structure Renderer where
  websiteDirectory : Path
  /-- The address of the site, without a slash at its end. -/
  baseUrl : String
  theme : ThemeSpec
  /-- The text of the stylesheet that is registered for markdown. -/
  markdownCss : String
  websiteValue : Template.Value
  themeValue : Template.Value
  itemsValue : Template.Value

namespace Renderer

/-- A document as templates see it. -/
def valueOf (j : Json) : Template.Value :=
  (Template.Value.ofJson j).convertDates

/-- The renderer of a site, which has its values ready for the templates. -/
def ofSite (websiteDirectory : Path) (baseUrl markdownCss : String) (website : WebsiteSpec)
    (theme : ThemeSpec) (tree : ContentTree) : Renderer :=
  { websiteDirectory, baseUrl, theme, markdownCss
    websiteValue := valueOf website.toJson
    themeValue := valueOf theme.toJson
    itemsValue := valueOf tree.toJson }

/-- Turns markdown files into variables. A file that is not there is reported. -/
def addMarkdowns (node : String) (source : Path) :
    Fields String → Fields Json → SiteTask RenderError (Fields Json)
  | [], values => return values
  | (name, file) :: rest, values => do
    let path := source.join file
    let disk := (← get).disk
    if disk.isFile path then
      match Markdown.renderFile disk path with
      | .ok html => addMarkdowns node source rest (values.insert name (.string html))
      | .error cause => throw (.markup cause)
    else
      SiteTask.report (.missingMarkdown node path)
      addMarkdowns node source rest values

/-- The stylesheets that a page links: that of markdown is the last one unless it is named
before. -/
def linkedStylesheets (spec : ItemSpec) : List String :=
  if spec.markdowns.isEmpty || spec.stylesheets.contains markdownStylesheet then spec.stylesheets
  else spec.stylesheets ++ [markdownStylesheet]

/-- The names that a page's template sees. -/
def context (r : Renderer) (spec : ItemSpec) (template url : String) (values : Fields Json) :
    Template.Context :=
  let fields := (spec.toFields.insert "template" (.string template)).insert "variables"
    (.object values)
  Fields.ofList [
    ("websiteSpecs", r.websiteValue),
    ("themeSpecs", r.themeValue),
    ("items", r.itemsValue),
    ("nodeSpecs", valueOf (.object fields)),
    ("breadCrumb", .array 0 ((Url.breadCrumb url).map .string))]

/-- The output of a template, which the session keeps. -/
def runTemplate (name node : String) (path : Path) (context : Template.Context) :
    SiteTask RenderError String := do
  let world ← get
  match world.session.template world.disk name path with
  | .error cause => throw (.templateSource name path cause)
  | .ok (template, session) =>
    set { world with session }
    match template.render context with
    | .ok html => return html
    | .error fault => throw (.template name node fault)

/-- The text of a page's own stylesheet. A file that is not there is reported. -/
def readInlineStyle (node : String) (source : Path) :
    Option String → SiteTask RenderError (Option String)
  | none => return none
  | some file => do
    let path := source.join file
    let disk := (← get).disk
    if disk.isFile path then
      match disk.readText path with
      | .ok css => return some css
      | .error cause => throw (.io cause)
    else
      SiteTask.report (.missingInlineStyle node path)
      return none

/-- Writes a page into a directory and copies its resources. -/
def publish (spec : ItemSpec) (source output : Path) (stem page : String) :
    SiteTask RenderError Unit := do
  SiteTask.onDisk (RenderError.asset ∘ Disk.CopyError.io) (Disk.ensureDirectory output)
  let file := output.join (stem ++ ".html")
  SiteTask.onSession (·.claim file)
  SiteTask.onDisk RenderError.io (Disk.Task.call id (·.writeText file page))
  let _ ← ExceptT.adapt RenderError.asset (Resources.copyAll source output spec.resources)

/-- The text of a page whose template the theme has. -/
def makePage (r : Renderer) (spec : ItemSpec) (template : String) (templatePath : Path)
    (node : String) (source : Path) (url : String) : SiteTask RenderError String := do
  let values ← addMarkdowns node source spec.markdowns spec.values
  if !spec.markdowns.isEmpty then
    SiteTask.onSession (·.register markdownStylesheet r.markdownCss)
  let html ← runTemplate template node templatePath (r.context spec template url values)
  let inlineStyle ← readInlineStyle node source spec.inlineStyles
  match Page.finish html { stylesheets := linkedStylesheets spec, inlineStyle } with
  | .error cause => throw (.markup cause)
  | .ok page => return page

/-- Makes and writes the page of a specification whose template the theme has. -/
def renderWith (r : Renderer) (spec : ItemSpec) (template : String) (templatePath : Path)
    (node : String) (source output : Path) (url stem : String) : SiteTask RenderError Unit := do
  publish spec source output stem (← r.makePage spec template templatePath node source url)

/-- Renders a page and gives back its address, if there is a page. The source directory is seen from
the website and the relative URL from the site's address. -/
def render (r : Renderer) (spec : Option ItemSpec) (source : String) (output : Path) (url : String)
    (target : PageTarget) : SiteTask RenderError (Option String) := do
  match spec with
  | none => return none
  | some spec =>
    let node := if url = "" then target.stem else url
    let template := spec.template.getD target.fallback
    match r.theme.templatePath? template with
    | none =>
      SiteTask.report (.unknownTemplate node template)
      return none
    | some path =>
      r.renderWith spec template path node (r.websiteDirectory.join source) output url target.stem
      return some (Url.absolute r.baseUrl url)

end Renderer

end StaticSite
