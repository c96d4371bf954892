import StaticSite.Markdown.Code
import StaticSite.Minify.Style
import StaticSite.Site.Alias
import StaticSite.Site.Crawlers
import StaticSite.Site.Pages

/-!
# Builds

A build first reads all that it is made of: the website's specification, its theme, its stylesheets
and its content. Nothing is written before all of this is read. Then it renders the content, copies
the resources, writes the sitemap and the verification file, the aliases, the main page and the one
for addresses that are not found, the stylesheets, and the rules for web robots.
-/

namespace StaticSite

/-- Why a build fails. -/
inductive BuildError where
  | io (cause : IoError)
  | config (cause : ConfigError)
  | content (cause : ContentError)
  | render (cause : RenderError)
  | asset (cause : Disk.CopyError)
  | stylesheet (name : String) (path : Path) (cause : IoError)

/-- What stopped a build, in words. -/
def BuildError.message : BuildError → String
  | io cause => "IO error: " ++ cause.message
  | config cause => cause.message
  | content cause => "content error: " ++ cause.message
  | render cause => "render error: " ++ cause.message
  | asset cause => "asset error: " ++ cause.message
  | stylesheet name path cause =>
    "cannot read stylesheet \x60" ++ name ++ "\x60 from " ++ path.text ++ ": " ++ cause.message

/-- What a build reads before it writes. -/
structure BuildPlan where
  website : WebsiteSpec
  theme : ThemeSpec
  /-- The texts of the website's own stylesheets. -/
  stylesheets : Fields String
  tree : ContentTree

/-- What a build has made. -/
structure BuildReport where
  /-- How many pages were written: those of the content, the main page, and the one for addresses
  that are not found. -/
  pages : Nat
  aliases : Nat
  /-- How many resources of the theme and of the website were copied. -/
  resources : Nat
  stylesheets : Nat
  /-- The addresses of the pages of the content. -/
  urls : List String
  inconsistencies : List Inconsistency := []

/-- Where a website is read and written, and how. -/
structure Builder where
  website : Path
  output : Path
  /-- The address at which the site is published. -/
  baseUrl : String
  /-- The directories in which the theme is looked for, unless these are the usual ones. -/
  themeDirectories : Option (List Path) := none
  /-- The user's own directory. -/
  home : Option Path := none
  /-- The stylesheet of pages with markdown. -/
  markdownCss : String := Markdown.CodeTheme.standard.stylesheet
  order : RenderOrder := RenderOrder.depthFirst

namespace Builder

/-- The address of the site without a slash at its end. -/
def address (b : Builder) : String :=
  Sitemap.trimBase b.baseUrl

/-! ## Reading -/

/-- Reads stylesheets in the order of their names. -/
def readStylesheets (website : Path) (disk : Disk) :
    Fields String → Except BuildError (Fields String)
  | [] => .ok []
  | (name, file) :: rest =>
    let path := website.join file
    match disk.readText path with
    | .error cause => .error (.stylesheet name path cause)
    | .ok css => (readStylesheets website disk rest).map ((name, css) :: ·)

/-- The directories in which the theme is looked for. -/
def searchDirectories (b : Builder) : List Path :=
  b.themeDirectories.getD (ThemeSpec.searchDirectories b.home b.website)

/-- Reads all that the site is made of. -/
def plan (b : Builder) (disk : Disk) : Except BuildError BuildPlan := do
  let website ← (WebsiteSpec.loadFrom disk b.website).mapError .config
  let theme ← (ThemeSpec.resolve disk website.theme b.searchDirectories).mapError .config
  let stylesheets ← readStylesheets b.website disk website.stylesheets
  let tree ← (ContentTree.gather disk (b.website.join website.contents)).mapError .content
  return { website, theme, stylesheets, tree }

/-! ## Writing -/

/-- What renders the pages of a plan. -/
def renderer (b : Builder) (plan : BuildPlan) : Renderer :=
  Renderer.ofSite b.website b.address b.markdownCss plan.website plan.theme plan.tree

/-- Registers stylesheets in the order of their names. -/
def registerAll (session : Session) (stylesheets : Fields String) : Session :=
  stylesheets.foldl (fun session (name, css) => session.register name css) session

/-- Copies resources of the theme or of the website into the output directory. -/
def copyResources (b : Builder) (source : Path) (resources : Resources) :
    SiteTask BuildError Nat :=
  ExceptT.adapt .asset (Resources.copyAll source b.output resources)

/-- The file by which a search engine verifies who owns the site. -/
def verificationFile (token : String) : String :=
  "google" ++ token ++ ".html"

/-- Writes the verification file, if it would be in the output directory. -/
def writeVerification (b : Builder) : Option String → SiteTask BuildError Unit
  | none => return ()
  | some token => do
    let name := verificationFile token
    if Url.isContained name then
      SiteTask.onDisk BuildError.io <| Disk.Task.call id
        (·.writeText (b.output.join name) ("google-site-verification: " ++ name))

/-- Renders a page outside the content and says whether there is one. -/
def renderSingle (b : Builder) (r : Renderer) (page : PageSpec) (target : PageTarget) :
    SiteTask BuildError Bool := do
  let address ← ExceptT.adapt .render (r.render page.item page.basePath b.output "" target)
  return address.isSome

/-- Makes a directory with those above it, as a part of a build. -/
def ensureDirectory (path : Path) : SiteTask BuildError Unit :=
  SiteTask.onDisk (BuildError.asset ∘ Disk.CopyError.io) (Disk.ensureDirectory path)

/-- Where stylesheets are put. -/
def stylesheetDirectory (b : Builder) : Path :=
  b.output.join "css"

/-- Writes one stylesheet, if its file would be among the stylesheets, and says whether it was. -/
def writeStylesheet (b : Builder) (name css : String) : SiteTask BuildError Bool := do
  if Url.isContained name then
    let path := b.stylesheetDirectory.join (name ++ ".css")
    match path.parent? with
    | some parent => ensureDirectory parent
    | none => pure ()
    SiteTask.onDisk BuildError.io (Disk.Task.call id (·.writeText path (Minify.style css)))
    return true
  else return false

/-- Writes stylesheets in the order of their names and counts them. -/
def writeStylesheets (b : Builder) : Fields String → SiteTask BuildError Nat
  | [] => return 0
  | (name, css) :: rest => do
    let written ← b.writeStylesheet name css
    return written.toNat + (← b.writeStylesheets rest)

/-- Writes the stylesheets that were registered, if there are any. -/
def publishStylesheets (b : Builder) : SiteTask BuildError Nat := do
  match (← get).session.stylesheets with
  | [] => return 0
  | stylesheets =>
    ensureDirectory b.stylesheetDirectory
    b.writeStylesheets stylesheets

/-- Writes the pages of the content and lists their addresses. -/
def publishContent (b : Builder) (plan : BuildPlan) : SiteTask BuildError (List String) := do
  SiteTask.onSession (registerAll · plan.stylesheets)
  ensureDirectory b.output
  ExceptT.adapt .render
    ((b.renderer plan).renderPages b.output b.order (plan.tree.pages plan.website.contents))

/-- Writes what goes with the pages of the content, which have the given addresses. Its report lacks
what is wrong with the site. -/
def publishRest (b : Builder) (plan : BuildPlan) (urls : List String) :
    SiteTask BuildError BuildReport := do
  let r := b.renderer plan
  let fromTheme ← b.copyResources plan.theme.basePath plan.theme.resources
  let fromWebsite ← b.copyResources b.website plan.website.resources
  SiteTask.onDisk BuildError.io (Sitemap.write b.output urls)
  b.writeVerification plan.website.verification
  let aliases ← ExceptT.adapt .render (Alias.writeAll urls b.output plan.website.aliases)
  let main ← b.renderSingle r plan.website.mainPage .content
  let notFound ← b.renderSingle r plan.website.notFound (.singleton "404")
  let stylesheets ← b.publishStylesheets
  let _ ← SiteTask.onDisk BuildError.io
    (Robots.write plan.website.robots (Sitemap.location b.address) b.output)
  return {
    pages := urls.length + main.toNat + notFound.toNat
    aliases
    resources := fromTheme + fromWebsite
    stylesheets
    urls }

/-- Writes the site. -/
def publish (b : Builder) (plan : BuildPlan) : SiteTask BuildError BuildReport := do
  let report ← b.publishRest plan (← b.publishContent plan)
  return { report with inconsistencies := (← get).session.reports }

/-- Builds the site in a session of its own. What was written stays when the build fails. -/
def build (b : Builder) (disk : Disk) : Except BuildError BuildReport × Disk :=
  match b.plan disk with
  | .error cause => (.error cause, disk)
  | .ok plan =>
    let (result, world) := (b.publish plan).run.run { disk }
    (result, world.disk)

/-- A build that fails while it reads leaves the disk as it was. -/
theorem build_of_plan_error {b : Builder} {disk : Disk} {cause : BuildError}
    (h : b.plan disk = .error cause) : b.build disk = (.error cause, disk) := by
  unfold build
  simp only [h]

end Builder

end StaticSite
