import StaticSite.Fields

/-!
# Documents

A document is a JSON value. Whole numbers of 64 bits are kept as integers and all others as doubles;
the fields of an object are in the order of their names.
-/

namespace StaticSite

/-- A JSON value. -/
inductive Json where
  | null
  | bool (b : Bool)
  | int (n : Int)
  | float (x : Float)
  | string (s : String)
  | array (items : List Json)
  | object (fields : List (String × Json))

instance : Inhabited Json := ⟨.null⟩

namespace Json

/-- The field of an object with the given name. -/
def field? (j : Json) (name : String) : Option Json :=
  match j with
  | object fields => Fields.get? fields name
  | _ => none

/-- An array of strings. -/
def ofStrings (texts : List String) : Json :=
  array (texts.map string)

end Json

end StaticSite
