import StaticSite.Config.Basic

/-!
# Content trees

Every directory below the content root is a node, unless its name starts with a dot or its parent's
specification claims the name as a resource. A node has the specification in its item file, if there
is one; the root has none. Siblings are in the order of their names.
-/

namespace StaticSite

/-- A directory of content with those below it. -/
inductive ContentTree where
  | node (name : String) (source : Path) (spec : Option ItemSpec) (children : List ContentTree)

/-- Why the content cannot be gathered. -/
inductive ContentError where
  | io (cause : IoError)
  | missingRoot (path : Path)
  | config (cause : ConfigError)
deriving DecidableEq

/-- What is wrong with the content, in words. -/
def ContentError.message : ContentError → String
  | io cause => "IO error: " ++ cause.message
  | missingRoot path => "content directory not found: " ++ path.text
  | config cause => cause.message

namespace ContentTree

/-- The name of a node's directory. -/
def name : ContentTree → String
  | node name _ _ _ => name

/-- The directory of a node. -/
def source : ContentTree → Path
  | node _ source _ _ => source

/-- What the item file of a node says, if it has one. -/
def spec : ContentTree → Option ItemSpec
  | node _ _ spec _ => spec

/-- The nodes directly below a node. -/
def children : ContentTree → List ContentTree
  | node _ _ _ children => children

/-- Whether a directory of this name becomes a node below a parent with the specification. -/
def isContent (parent : Option ItemSpec) (name : String) : Bool :=
  name.toList.head? != some '.' && !parent.any (·.claims name)

/-- The names of the directories in a directory that become nodes, in ascending order. -/
def childNames (disk : Disk) (source : Path) (parent : Option ItemSpec) :
    Except IoError (List String) := do
  match ← disk.resolve true source with
  | .held place .directory =>
    return (disk.namesIn place).filter fun name =>
      disk.isDirectory (source.join name) && isContent parent name
  | .held _ _ => throw .notDirectory
  | .free _ => throw .missing

/-- The specification in the item file of a directory. -/
def itemAt (disk : Disk) (source : Path) : Except ConfigError (Option ItemSpec) :=
  match Config.find? disk source "item" with
  | none => .ok none
  | some path => (Config.load ItemSpec.ofJson disk path).map some

/-- The nodes below a directory, down to a depth of `depth`. -/
def gatherBelow (disk : Disk) (source : Path) (parent : Option ItemSpec) :
    Nat → Except ContentError (List ContentTree)
  | 0 => .ok []
  | depth + 1 => do
    let names ← (childNames disk source parent).mapError .io
    names.mapM fun name => do
      let own := source.join name
      let spec ← (itemAt disk own).mapError .config
      return node name own spec (← gatherBelow disk own spec depth)

/-- A depth that no directory of the disk has: a path leads through each directory once between two
links, and through no more links than may be followed. -/
def depthLimit (disk : Disk) : Nat :=
  (Disk.linkLimit + 1) * (disk.entries.length + 1) + 1

/-- The tree of the content in a directory. -/
def gather (disk : Disk) (source : Path) : Except ContentError ContentTree := do
  if disk.isDirectory source then
    return node "" source none (← gatherBelow disk source none (depthLimit disk))
  else throw (.missingRoot source)

/-- The node at the end of a chain of names below a node. -/
def find? (tree : ContentTree) : List String → Option ContentTree
  | [] => some tree
  | name :: names => (tree.children.find? (·.name == name)).bind (·.find? names)

mutual

/-- The number of nodes. -/
def size : ContentTree → Nat
  | node _ _ _ children => 1 + sizeAll children

/-- The number of nodes in some trees. -/
def sizeAll : List ContentTree → Nat
  | [] => 0
  | t :: rest => t.size + sizeAll rest

end

/-! ## The tree as templates see it -/

mutual

/-- A node's specification and its children, each only if there are any. -/
def entryJson : ContentTree → Json
  | node _ _ spec children =>
    .object <| Fields.ofList <|
      (if children.isEmpty then [] else
        [("children", Json.object (Fields.ofList (entries children)))])
      ++ (spec.map fun s => ("specs", s.toJson)).toList

/-- Some nodes as entries of an object, under their names. -/
def entries : List ContentTree → List (String × Json)
  | [] => []
  | t :: rest => (t.name, t.entryJson) :: entries rest

end

/-- The children of the root, which has no specification. -/
def toJson (tree : ContentTree) : Json :=
  .object [("children",
    if tree.children.isEmpty then .null else .object (Fields.ofList (entries tree.children)))]

end ContentTree

end StaticSite
