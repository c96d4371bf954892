import StaticSite.Disk.Calls
import StaticSite.Site.Problem
import StaticSite.Template.Basic

/-!
# Sessions

A session is what the renders of one build share: the compiled templates by name, the stylesheets by
name, the files that were claimed, and the reported inconsistencies. A template is compiled from its
file when it is first asked for; a stylesheet keeps the text it was first registered with; a file
that is claimed again is reported.
-/

namespace StaticSite

/-- The names that page templates see. -/
def pageNames : List String :=
  ["websiteSpecs", "themeSpecs", "items", "nodeSpecs", "breadCrumb"]

/-- The caches and registries of one build. -/
structure Session where
  compiler : Template.Compiler := ⟨some pageNames⟩
  templates : Fields Template.Compiled := []
  /-- How many templates were compiled. -/
  compilations : Nat := 0
  stylesheets : Fields String := []
  /-- The components of the paths that were claimed. -/
  claimed : List (List String) := []
  /-- What was reported, in order. -/
  reports : List Inconsistency := []

namespace Session

/-- Adds an inconsistency to those that were reported. -/
def report (session : Session) (problem : Inconsistency) : Session :=
  { session with reports := session.reports ++ [problem] }

/-- The template of a name, compiled from a file unless it was compiled before. -/
def template (session : Session) (disk : Disk) (name : String) (path : Path) :
    Except IoError (Template.Compiled × Session) :=
  match Fields.get? session.templates name with
  | some t => .ok (t, session)
  | none => do
    let t := session.compiler.compile (← disk.readText path)
    return (t, { session with
      templates := session.templates.insert name t
      compilations := session.compilations + 1 })

/-- Whether a stylesheet of the name was registered. -/
def hasStylesheet (session : Session) (name : String) : Bool :=
  Fields.has session.stylesheets name

/-- Registers a stylesheet unless there is one of its name. -/
def register (session : Session) (name css : String) : Session :=
  if session.hasStylesheet name then session
  else { session with stylesheets := session.stylesheets.insert name css }

/-- Whether a file was claimed. Paths of the same components name the same file. -/
def isClaimed (session : Session) (path : Path) : Bool :=
  session.claimed.contains path.components

/-- Claims a file that is about to be written. -/
def claim (session : Session) (path : Path) : Session :=
  if session.isClaimed path then session.report (.duplicateOutput path)
  else { session with claimed := path.components :: session.claimed }

end Session

/-- A disk and the session of the build that works on it. -/
structure World where
  disk : Disk
  session : Session := {}

/-- A part of a build. What it has done is kept when it fails. -/
abbrev SiteTask (ε α : Type) := ExceptT ε (StateM World) α

namespace SiteTask

variable {ε α : Type}

/-- A task on the disk. -/
def onDisk {δ : Type} (failure : δ → ε) (task : Disk.Task δ α) : SiteTask ε α := do
  let world ← get
  let (result, disk) := task.run.run world.disk
  set { world with disk }
  match result with
  | .ok a => return a
  | .error cause => throw (failure cause)

/-- A change of the session. -/
def onSession (change : Session → Session) : SiteTask ε Unit :=
  modify fun world => { world with session := change world.session }

/-- Reports an inconsistency to the session. -/
def report (problem : Inconsistency) : SiteTask ε Unit :=
  onSession (·.report problem)

end SiteTask

end StaticSite
