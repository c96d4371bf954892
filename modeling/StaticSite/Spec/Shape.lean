import StaticSite.Json.Basic

/-!
# Shapes of documents

A specification is read from the fields of a document. A field that is absent has a default or is
required; one that is there has to have its shape. Fields of other names are kept aside as extra
fields.
-/

namespace StaticSite

/-- Why a document is not a specification. -/
inductive SpecFault where
  | wrongShape
  | missingField (name : String)
deriving DecidableEq

/-- What is wrong with a specification, in words. -/
def SpecFault.message : SpecFault → String
  | wrongShape => "a value has the wrong type"
  | missingField name => "missing field \x60" ++ name ++ "\x60"

namespace Json

/-- The text of a string. -/
def text? : Json → Option String
  | string s => some s
  | _ => none

/-- The texts of an array of strings. -/
def texts? : Json → Option (List String)
  | array items => items.mapM text?
  | _ => none

/-- A text, or `null` for none. -/
def textOrNull? : Json → Option (Option String)
  | null => some none
  | string s => some (some s)
  | _ => none

/-- The fields of an object, each read in the same way. -/
def fieldsOf? {α : Type} (read : Json → Option α) : Json → Option (Fields α)
  | object fields => fields.mapM fun (name, value) => (read value).map fun a => (name, a)
  | _ => none

/-- An array of pairs of texts. -/
def textPairs? : Json → Option (List (String × String))
  | array items => items.mapM fun
    | array [string a, string b] => some (a, b)
    | _ => none
  | _ => none

/-- Fields of texts as an object. -/
def ofTextFields (fields : Fields String) : Json :=
  object (fields.mapValues string)

/-- A text as a string, and none as null. -/
def ofText? : Option String → Json
  | none => null
  | some s => string s

end Json

namespace Fields

/-- Reads a field that may be absent. -/
def read? {α : Type} (fields : Fields Json) (name : String) (read : Json → Option α) :
    Except SpecFault (Option α) :=
  match fields.get? name with
  | none => .ok none
  | some value =>
    match read value with
    | none => .error .wrongShape
    | some a => .ok (some a)

/-- The fields whose names are not among those given. -/
def without {α : Type} (fields : Fields α) (names : List String) : Fields α :=
  fields.filter fun (name, _) => !names.contains name

/-- Writes all the fields of `extra` over those of `fields`. -/
def overlay {α : Type} (fields extra : Fields α) : Fields α :=
  extra.foldl (fun fields (name, value) => fields.insert name value) fields

end Fields

end StaticSite
