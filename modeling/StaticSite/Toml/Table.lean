import StaticSite.Json.Basic

/-!
# Tables

A TOML document builds a tree of tables line by line. A header may complete a table that was only
implied by a longer header, but never one that has its own header or that dotted keys have made;
dotted keys may extend only tables that dotted keys have made.
-/

namespace StaticSite.Toml

/-- How a table came to be. -/
inductive Origin where
  | header
  | implied
  | dotted
deriving DecidableEq

/-- What stands under a key: a value, a table, or the tables of an array, the last one first. -/
inductive Node where
  | value (value : Json)
  | table (origin : Origin) (fields : List (String × Node))
  | tables (items : List (List (String × Node)))

/-- The keys of a table with what they lead to. -/
abbrev Table := Fields Node

/-- The table under a key that stands before another one in a key or a header. A table that is not
there is made. -/
def Table.child? (fields : Table) (dotted : Bool) (name : String) : Option Table :=
  match fields.get? name with
  | none => some []
  | some (.value _) => none
  | some (.table origin inner) => if dotted ∧ origin = .header then none else some inner
  | some (.tables []) => none
  | some (.tables (last :: _)) => some last

/-- Puts a table back under the key that it was found under. -/
def Table.putChild (fields : Table) (dotted : Bool) (name : String) (inner : Table) : Table :=
  match fields.get? name with
  | some (.table origin _) => fields.insert name (.table origin inner)
  | some (.tables (_ :: rest)) => fields.insert name (.tables (inner :: rest))
  | _ => fields.insert name (.table (if dotted then .dotted else .implied) inner)

/-- Changes the table at the end of a chain of keys. -/
def Table.update (dotted : Bool) (change : Table → Option Table) (fields : Table) :
    List String → Option Table
  | [] => change fields
  | name :: names => do
    let inner ← fields.child? dotted name
    return fields.putChild dotted name (← Table.update dotted change inner names)

/-- Adds a value under a name that is free. -/
def Table.add (name : String) (value : Json) (fields : Table) : Option Table :=
  if fields.has name then none else some (fields.insert name (.value value))

/-- Whether a dotted key may add to a table under the first of its names: all the tables it leads
through have to come from dotted keys at their end. -/
def Table.accepts (fields : Table) : List String → Bool
  | [] => true
  | [name] =>
    match fields.get? name with
    | none | some (.table .dotted _) => true
    | _ => false
  | name :: names =>
    match fields.child? true name with
    | none => false
    | some inner => Table.accepts inner names

/-- Adds a value under a dotted key. -/
def Table.addDotted (key : List String) (name : String) (value : Json) (fields : Table) :
    Option Table :=
  if fields.accepts key then fields.update true (Table.add name value) key else none

/-- Opens the table of a header. -/
def Table.openTable (name : String) (fields : Table) : Option Table :=
  match fields.get? name with
  | none => some (fields.insert name (.table .header []))
  | some (.table .implied inner) => some (fields.insert name (.table .header inner))
  | some _ => none

/-- Opens the next table of an array of tables. -/
def Table.openNext (name : String) (fields : Table) : Option Table :=
  match fields.get? name with
  | none => some (fields.insert name (.tables [[]]))
  | some (.tables items) => some (fields.insert name (.tables ([] :: items)))
  | some _ => none

mutual

/-- The document that a node stands for. -/
def Node.toJson : Node → Json
  | .value v => v
  | .table _ fields => .object (fieldsToJson fields)
  | .tables items => .array (tablesToJson items).reverse

/-- The fields of a table as those of an object. -/
def fieldsToJson : List (String × Node) → List (String × Json)
  | [] => []
  | (name, node) :: rest => (name, node.toJson) :: fieldsToJson rest

/-- The tables of an array as objects. -/
def tablesToJson : List (List (String × Node)) → List Json
  | [] => []
  | fields :: rest => .object (fieldsToJson fields) :: tablesToJson rest

end

end StaticSite.Toml
