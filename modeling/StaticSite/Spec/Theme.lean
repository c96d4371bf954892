import StaticSite.Disk.Path
import StaticSite.Spec.Item

/-!
# Theme specifications

A theme maps names to template files. Its base path is the directory it was found in and is never
read from the document.
-/

namespace StaticSite

/-- The templates and resources that give websites their form. -/
structure ThemeSpec where
  /-- The template files, seen from the theme's directory. -/
  templates : Fields String := []
  resources : Resources := []
  basePath : Path := ⟨""⟩
  extra : Fields Json := []

namespace ThemeSpec

/-- The templates that every theme has. -/
def requiredTemplates : List String :=
  ["default", "404"]

/-- The fields that a theme specification reads. -/
def fieldNames : List String :=
  ["templates", "resources"]

/-- Reads a theme specification and keeps the fields that it does not know. -/
def ofFields (fields : Fields Json) : Except SpecFault ThemeSpec := do
  let templates ← fields.read? "templates" (Json.fieldsOf? Json.text?)
  let resources ← fields.read? "resources" Json.resources?
  return {
    templates := templates.getD []
    resources := resources.getD []
    extra := fields.without fieldNames }

/-- Reads a theme specification from a document. -/
def ofJson : Json → Except SpecFault ThemeSpec
  | .object fields => ofFields fields
  | _ => .error .wrongShape

/-- The fields that a theme specification writes itself. -/
def ownFields (theme : ThemeSpec) : Fields Json :=
  Fields.ofList
    [("templates", .ofTextFields theme.templates), ("resources", .ofResources theme.resources),
      ("basePath", .string theme.basePath.text)]

/-- A theme specification as a document. -/
def toJson (theme : ThemeSpec) : Json :=
  .object (theme.ownFields.overlay theme.extra)

/-- Where the source of a template is. -/
def templatePath? (theme : ThemeSpec) (name : String) : Option Path :=
  (theme.templates.get? name).map theme.basePath.join

end ThemeSpec

end StaticSite
