import StaticSite.Disk.Copy
import StaticSite.Template.Fault

/-!
# What goes wrong with a site

A failure stops the making of a page. An inconsistency is what is wrong with a site's content but
does not stop its build.
-/

namespace StaticSite

/-! ## Failures -/

/-- Why markup cannot be made or changed. -/
inductive MarkupError where
  | unreadable (path : Path) (cause : IoError)
  | ambiguous
deriving DecidableEq

/-- What went wrong with markup, in words. -/
def MarkupError.message : MarkupError → String
  | unreadable path cause => "failed to read " ++ path.text ++ ": " ++ cause.message
  | ambiguous => "html rewriting failed: the text of an element may be read in more than one way"

/-- Why a page cannot be made. -/
inductive RenderError where
  | io (cause : IoError)
  | templateSource (name : String) (path : Path) (cause : IoError)
  | template (name node : String) (fault : Template.Fault)
  | markup (cause : MarkupError)
  | asset (cause : Disk.CopyError)

/-- Why a page could not be rendered, in words. -/
def RenderError.message : RenderError → String
  | io cause => "IO error: " ++ cause.message
  | templateSource name path cause =>
    "cannot read template \x60" ++ name ++ "\x60 from " ++ path.text ++ ": " ++ cause.message
  | template name node fault =>
    "template \x60" ++ name ++ "\x60 failed for \x60" ++ node ++ "\x60: " ++ fault.message
  | markup cause => cause.message
  | asset cause => cause.message

/-! ## Inconsistencies -/

/-- A problem that is reported and passed over. -/
inductive Inconsistency where
  | unknownTemplate (node template : String)
  | missingMarkdown (node : String) (path : Path)
  | missingInlineStyle (node : String) (path : Path)
  | unknownCategory (path : Path) (category : Option String)
  | missingResource (path : Path)
  | aliasTargetMissing (route target : String)
  | invalidAliasPath (route : String)
  | invalidResourcePath (name : String)
  | duplicateOutput (path : Path)
deriving DecidableEq

namespace Inconsistency

/-- A text in backquotes. -/
def quoted (s : String) : String :=
  "\x60" ++ s ++ "\x60"

/-- What is told of an inconsistency. -/
def message : Inconsistency → String
  | unknownTemplate node template => quoted node ++ " uses unknown template " ++ quoted template
  | missingMarkdown node path => quoted node ++ " references missing markdown " ++ path.text
  | missingInlineStyle node path => quoted node ++ " references missing inline style " ++ path.text
  | unknownCategory path category =>
    "resource " ++ path.text ++ " has unknown category " ++ quoted (category.getD "null")
  | missingResource path => "resource " ++ path.text ++ " does not exist"
  | aliasTargetMissing route target =>
    "alias " ++ quoted route ++ " points at " ++ target ++ ", which was not built"
  | invalidAliasPath route =>
    "alias " ++ quoted route ++ " is not a path inside the output directory"
  | invalidResourcePath name => "resource " ++ quoted name ++ " is not a path inside its directory"
  | duplicateOutput path => path.text ++ " was written more than once"

end Inconsistency

end StaticSite
