/-!
# Resource categories

A file among the resources is published in the directory of its category.
-/

namespace StaticSite

/-- What kind of file a resource is. -/
inductive Category where
  | css
  | font
  | img
  | js
deriving DecidableEq

namespace Category

/-- All categories. -/
def all : List Category :=
  [css, font, img, js]

/-- The directory that the files of a category are put into. -/
def directory : Category → String
  | css => "css"
  | font => "font"
  | img => "img"
  | js => "js"

/-- A category is named by its directory. -/
def ofName? (name : String) : Option Category :=
  all.find? fun c => c.directory == name

end Category

end StaticSite
