import StaticSite.Spec.Shape

/-!
# Item specifications

An item specification says how one directory of content becomes a page. A page specification is one
for a page outside the content, which has its own source directory.
-/

namespace StaticSite

/-- Resources by name, each with a category, a new name, or nothing to keep its name. -/
abbrev Resources := Fields (Option String)

/-- Reads resources: the names of sources, each with its target or null. -/
def Json.resources? : Json → Option Resources :=
  Json.fieldsOf? Json.textOrNull?

/-- Resources as a document. -/
def Json.ofResources (resources : Resources) : Json :=
  .object (resources.mapValues Json.ofText?)

/-- How a directory of content becomes a page. -/
structure ItemSpec where
  /-- The theme's template for the page. -/
  template : Option String := none
  /-- The names of stylesheets linked from the page. -/
  stylesheets : List String := []
  /-- The markdown files whose pages become variables, by variable. -/
  markdowns : Fields String := []
  /-- The stylesheet that is put into the page's head. -/
  inlineStyles : Option String := none
  /-- What is copied next to the page. -/
  resources : Resources := []
  /-- What the page itself says. -/
  values : Fields Json := []
  extra : Fields Json := []

namespace ItemSpec

/-- The fields that an item specification reads. -/
def fieldNames : List String :=
  ["template", "extraStylesheets", "markdowns", "inlineStyles", "resources", "variables"]

/-- Reads an item specification and keeps the fields that it does not know. -/
def ofFields (fields : Fields Json) : Except SpecFault ItemSpec := do
  let template ← fields.read? "template" Json.textOrNull?
  let stylesheets ← fields.read? "extraStylesheets" Json.texts?
  let markdowns ← fields.read? "markdowns" (Json.fieldsOf? Json.text?)
  let inlineStyles ← fields.read? "inlineStyles" Json.textOrNull?
  let resources ← fields.read? "resources" Json.resources?
  let values ← fields.read? "variables" (Json.fieldsOf? some)
  return {
    template := template.getD none
    stylesheets := stylesheets.getD []
    markdowns := markdowns.getD []
    inlineStyles := inlineStyles.getD none
    resources := resources.getD []
    values := values.getD []
    extra := fields.without fieldNames }

/-- Reads an item specification from a document. -/
def ofJson : Json → Except SpecFault ItemSpec
  | .object fields => ofFields fields
  | _ => .error .wrongShape

/-- The fields of its own that are written: texts that are not set are left out. -/
def ownFields (item : ItemSpec) : Fields Json :=
  Fields.ofList <|
    (item.template.map fun t => ("template", Json.string t)).toList ++
    [("extraStylesheets", .ofStrings item.stylesheets),
      ("markdowns", .ofTextFields item.markdowns)] ++
    (item.inlineStyles.map fun t => ("inlineStyles", Json.string t)).toList ++
    [("resources", .ofResources item.resources), ("variables", .object item.values)]

/-- The fields of an item specification, with those that were kept. -/
def toFields (item : ItemSpec) : Fields Json :=
  item.ownFields.overlay item.extra

/-- An item specification as a document. -/
def toJson (item : ItemSpec) : Json :=
  .object item.toFields

/-- Whether a name in the item's directory is a resource and not content. -/
def claims (item : ItemSpec) (name : String) : Bool :=
  item.resources.has name

end ItemSpec

/-- How a page outside the content is made. -/
structure PageSpec where
  /-- The page's source directory, seen from the website. -/
  basePath : String := "."
  item : ItemSpec := {}

namespace PageSpec

/-- Reads a page specification: the base path, and an item specification from the other fields. -/
def ofFields (fields : Fields Json) : Except SpecFault PageSpec := do
  let basePath ← fields.read? "basePath" Json.text?
  let item ← ItemSpec.ofFields (fields.without ["basePath"])
  return { basePath := basePath.getD ".", item }

/-- Reads a page specification from a document. -/
def ofJson : Json → Except SpecFault PageSpec
  | .object fields => ofFields fields
  | _ => .error .wrongShape

/-- A page specification as a document. -/
def toJson (page : PageSpec) : Json :=
  .object ((Fields.ofList [("basePath", Json.string page.basePath)]).overlay page.item.toFields)

end PageSpec

end StaticSite
