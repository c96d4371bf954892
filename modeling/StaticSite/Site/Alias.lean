import StaticSite.Site.Problem
import StaticSite.Site.Session

/-!
# Aliases

An alias is a page that sends its reader on to another page. Aliases of pages that were not built,
and aliases whose path is empty or leaves the output directory, are reported and passed over.
-/

namespace StaticSite.Alias

/-- The page of an alias, with its target in two places. -/
def redirectSource : String :=
  "<html><head><meta http-equiv=\"refresh\" content=\"0; url=<%= target %>\" /></head><body><p>" ++
  "This page has been moved to <a href=\"<%= target %>\">here</a>.</p></html>"

/-- The template of redirect pages. -/
def redirectTemplate : Template.Compiled :=
  Template.Compiler.compile ⟨some ["target"]⟩ redirectSource

/-- The page that sends its reader on to `target`. -/
def redirectPage (target : String) : Except Template.Fault String :=
  redirectTemplate.render [("target", .string target)]

/-- Where an alias is put below the output directory. -/
def relativePath (route : String) : String :=
  String.ofList (Url.trimSlashes (route.toList.dropWhile Url.isSlash))

/-- Writes the page of one alias and says whether it was written. -/
def writeOne (built : List String) (output : Path) (route target : String) :
    SiteTask RenderError Bool := do
  let relative := relativePath route
  if !built.contains target then
    SiteTask.report (.aliasTargetMissing route target)
    return false
  else if relative = "" || !Url.isContained relative then
    SiteTask.report (.invalidAliasPath route)
    return false
  else
    let directory := output.join relative
    SiteTask.onDisk RenderError.io (Disk.ensureDirectory directory)
    let file := directory.join "index.html"
    SiteTask.onSession (·.claim file)
    match redirectPage target with
    | .error fault => throw (.template "redirect" target fault)
    | .ok page =>
      SiteTask.onDisk RenderError.io (Disk.Task.call id (·.writeText file page))
      return true

/-- Writes the pages of aliases in the order of their names and counts them. -/
def writeAll (built : List String) (output : Path) : Fields String → SiteTask RenderError Nat
  | [] => return 0
  | (route, target) :: rest => do
    let written ← writeOne built output route target
    return written.toNat + (← writeAll built output rest)

end StaticSite.Alias
