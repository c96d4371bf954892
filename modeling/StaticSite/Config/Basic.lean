import StaticSite.Disk.Calls
import StaticSite.Json.Reader
import StaticSite.Spec.Shape
import StaticSite.Spec.Theme
import StaticSite.Spec.Website
import StaticSite.Text.Case
import StaticSite.Toml.Reader

/-!
# Configurations

A configuration file is found by its stem: the JSON file if there is one, else the TOML file. Its
extension says how it is read. Loading only reads the disk.
-/

namespace StaticSite

/-! ## What can be wrong -/

/-- Why the text of a file is no specification. -/
inductive Malformation where
  | json (cause : Json.ReadError)
  | toml
  | notObject
  | shape (cause : SpecFault)
deriving DecidableEq

/-- What is wrong with a document, in words. -/
def Malformation.message : Malformation → String
  | json cause => cause.message
  | toml => "invalid TOML"
  | notObject => "expected an object at top level"
  | shape cause => cause.message

/-- Why a configuration cannot be loaded. -/
inductive ConfigError where
  | notFound (path : Path)
  | malformed (path : Path) (cause : Malformation)
  | missingField (path : Path) (field : String)
  | themeNotFound (name : String) (searched : List Path)
  | missingTemplate (theme template : String)
  | io (cause : IoError)
deriving DecidableEq

/-- What is wrong with a configuration, in words. -/
def ConfigError.message : ConfigError → String
  | notFound path => "Configuration file not found: " ++ path.text
  | malformed path cause => "Malformed configuration in " ++ path.text ++ ": " ++ cause.message
  | missingField path field => "No \x60" ++ field ++ "\x60 specified in " ++ path.text
  | themeNotFound name _ => "Could not find the theme named \x60" ++ name ++ "\x60"
  | missingTemplate theme template =>
    "Theme \x60" ++ theme ++ "\x60 must contain a \x60" ++ template ++ "\x60 template"
  | io cause => "IO error: " ++ cause.message

/-! ## Reading -/

namespace Config

/-- The extensions under which a configuration is looked for, in order. -/
def extensions : List String :=
  ["json", "toml"]

/-- Finds a configuration file in a directory. -/
def find? (disk : Disk) (directory : Path) (stem : String) : Option Path :=
  (extensions.map fun e => directory.join (stem ++ "." ++ e)).find? (disk.isFile ·)

/-- Whether a path names a TOML file, by its extension in any case. -/
def isToml (path : Path) : Bool :=
  path.extension?.any fun e => Text.lowerAscii e.toList == "toml".toList

/-- The document in a text, read as the path's extension says. -/
def parse (path : Path) (text : String) : Except ConfigError Json :=
  if isToml path then
    match Toml.read? text with
    | some document => .ok document
    | none => .error (.malformed path .toml)
  else
    match Json.read text with
    | .ok document => .ok document
    | .error cause => .error (.malformed path (.json cause))

/-- The document in a file. -/
def readDocument (disk : Disk) (path : Path) : Except ConfigError Json :=
  match disk.readText path with
  | .ok text => parse path text
  | .error .missing => .error (.notFound path)
  | .error cause => .error (.io cause)

/-- The specification in a file. -/
def load {α : Type} (shape : Json → Except SpecFault α) (disk : Disk) (path : Path) :
    Except ConfigError α := do
  match shape (← readDocument disk path) with
  | .ok spec => return spec
  | .error cause => throw (.malformed path (.shape cause))

end Config

/-- Loads a website's specification. The first required field that is absent is reported before any
field of the wrong shape. -/
def WebsiteSpec.load (disk : Disk) (path : Path) : Except ConfigError WebsiteSpec := do
  match ← Config.readDocument disk path with
  | .object fields =>
    match requiredFields.find? fun name => !Fields.has fields name with
    | some name => throw (.missingField path name)
    | none =>
      match ofFields fields with
      | .ok site => return site
      | .error cause => throw (.malformed path (.shape cause))
  | _ => throw (.malformed path .notObject)

/-- Loads the specification of the website in a directory. -/
def WebsiteSpec.loadFrom (disk : Disk) (directory : Path) : Except ConfigError WebsiteSpec :=
  WebsiteSpec.load disk
    ((Config.find? disk directory "website").getD (directory.join "website.json"))

namespace ThemeSpec

/-- Where themes are looked for: in the website and in the user's own directory. -/
def searchDirectories (home : Option Path) (website : Path) : List Path :=
  website.join "themes" :: (home.map fun h => (h.join ".kiln").join "themes").toList

/-- Checks that a theme has the templates that every theme has. -/
def validate (name : String) (theme : ThemeSpec) : Except ConfigError ThemeSpec :=
  match requiredTemplates.find? fun template => !theme.templates.has template with
  | some template => .error (.missingTemplate name template)
  | none => .ok theme

/-- Loads the theme of a name from the first of the directories that has a file for it. -/
def resolveIn (disk : Disk) (name : String) (searched : List Path) :
    List Path → Except ConfigError ThemeSpec
  | [] => .error (.themeNotFound name searched)
  | directory :: rest =>
    let base := directory.join name
    match Config.find? disk base "theme" with
    | none => resolveIn disk name searched rest
    | some path => do
      let theme ← Config.load ofJson disk path
      validate name { theme with basePath := base }

/-- The theme of a name, from the first of the directories that holds it. -/
def resolve (disk : Disk) (name : String) (directories : List Path) :
    Except ConfigError ThemeSpec :=
  resolveIn disk name directories directories

end ThemeSpec

end StaticSite
