import StaticSite.Spec.Item

/-!
# Website specifications

The specification of a website names its theme, its two pages outside the content, and the directory
of its content; these four are required.
-/

namespace StaticSite

/-- What a website is made of. -/
structure WebsiteSpec where
  theme : String
  mainPage : PageSpec
  notFound : PageSpec
  /-- The directory of the content, seen from the website. -/
  contents : String
  /-- The files of stylesheets, by name. -/
  stylesheets : Fields String := []
  /-- The targets of aliases, by path. -/
  aliases : Fields String := []
  /-- The token that proves ownership to a search engine. -/
  verification : Option String := none
  /-- The rules for web robots, by user agent. -/
  robots : Fields (List (String × String)) := []
  resources : Resources := []
  extra : Fields Json := []

namespace WebsiteSpec

/-- The fields that must be there, in the order in which they are looked for. -/
def requiredFields : List String :=
  ["theme", "mainPage", "404", "contents"]

/-- The fields that a website specification reads. -/
def fieldNames : List String :=
  requiredFields ++ ["additionalStylesheets", "additional_stylesheets", "aliases",
    "googleVerification", "robots", "resources"]

/-- A value that has to be there. -/
def require {α : Type} (name : String) : Option α → Except SpecFault α
  | some a => .ok a
  | none => .error (.missingField name)

/-- Reads a page specification, if it is one. -/
def page? (j : Json) : Option PageSpec :=
  (PageSpec.ofJson j).toOption

/-- Reads the stylesheets, which stand under either of two names but not under both. -/
def readStylesheets (fields : Fields Json) : Except SpecFault (Fields String) := do
  let first ← fields.read? "additionalStylesheets" (Json.fieldsOf? Json.text?)
  let second ← fields.read? "additional_stylesheets" (Json.fieldsOf? Json.text?)
  match first, second with
  | some _, some _ => throw .wrongShape
  | some sheets, none | none, some sheets => return sheets
  | none, none => return []

/-- Reads a specification. A field of the wrong shape is reported before one that is missing. -/
def ofFields (fields : Fields Json) : Except SpecFault WebsiteSpec := do
  let theme ← fields.read? "theme" Json.text?
  let mainPage ← fields.read? "mainPage" page?
  let notFound ← fields.read? "404" page?
  let contents ← fields.read? "contents" Json.text?
  let stylesheets ← readStylesheets fields
  let aliases ← fields.read? "aliases" (Json.fieldsOf? Json.text?)
  let verification ← fields.read? "googleVerification" Json.textOrNull?
  let robots ← fields.read? "robots" (Json.fieldsOf? Json.textPairs?)
  let resources ← fields.read? "resources" Json.resources?
  return {
    theme := ← require "theme" theme
    mainPage := ← require "mainPage" mainPage
    notFound := ← require "404" notFound
    contents := ← require "contents" contents
    stylesheets
    aliases := aliases.getD []
    verification := verification.getD none
    robots := robots.getD []
    resources := resources.getD []
    extra := fields.without fieldNames }

/-- Reads a website specification from a document. -/
def ofJson : Json → Except SpecFault WebsiteSpec
  | .object fields => ofFields fields
  | _ => .error .wrongShape

/-- The rules of an agent as pairs of strings. -/
def ofRules (rules : List (String × String)) : Json :=
  .array (rules.map fun (name, value) => .ofStrings [name, value])

/-- The fields that a website specification writes itself. -/
def ownFields (site : WebsiteSpec) : Fields Json :=
  Fields.ofList <|
    [("theme", Json.string site.theme), ("mainPage", site.mainPage.toJson),
      ("404", site.notFound.toJson), ("contents", .string site.contents),
      ("additionalStylesheets", .ofTextFields site.stylesheets),
      ("aliases", .ofTextFields site.aliases)] ++
    (site.verification.map fun t => ("googleVerification", Json.string t)).toList ++
    [("robots", .object (site.robots.mapValues ofRules)),
      ("resources", .ofResources site.resources)]

/-- A website specification as a document. -/
def toJson (site : WebsiteSpec) : Json :=
  .object (site.ownFields.overlay site.extra)

end WebsiteSpec

end StaticSite
