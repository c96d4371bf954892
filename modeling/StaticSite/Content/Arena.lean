import StaticSite.Content.Tree

/-!
# Content trees as arenas

The nodes of a content tree in one list, where each names the one above it and those below it by
their indices. A node is put at the end of the list when its directory is read, before those below
it are, and learns its children when all of these are there.
-/

namespace StaticSite

/-- A directory of content among the nodes of an arena. -/
structure ContentNode where
  /-- Empty for the root. -/
  name : String
  /-- The index of the node above it. -/
  parent : Option Nat
  source : Path
  spec : Option ItemSpec
  /-- The indices of the nodes below it, if there are any, in the order of their names. -/
  children : Option (List Nat)

/-- The nodes of a content tree, each at its own number. -/
abbrev Arena := List ContentNode

namespace Arena

/-- Reads that add nodes to an arena. -/
abbrev Gathering := StateT Arena (Except ContentError)

/-- The indices of the children of a node. -/
def children (arena : Arena) (i : Nat) : List Nat :=
  ((arena[i]?).bind (·.children)).getD []

/-- The children of a node with such nodes below it. -/
def listed (nodes : List Nat) : Option (List Nat) :=
  if nodes.isEmpty then none else some nodes

/-- Writes down the children of the node at a number. -/
def setChildren (i : Nat) (children : Option (List Nat)) (arena : Arena) : Arena :=
  arena.modify i fun node => { node with children }

/-- Adds the node of a directory, and then those below it with the given reads. -/
def addNode (disk : Disk) (parent : Nat) (source : Path)
    (readBelow : Nat → Gathering (Option (List Nat))) (name : String) : Gathering Nat := do
  let own := source.join name
  let spec ← StateT.lift ((ContentTree.itemAt disk own).mapError .config)
  let i := (← get).length
  modify (· ++ [{ name, parent := some parent, source := own, spec, children := none }])
  let children ← readBelow i
  modify (setChildren i children)
  return i

/-- Adds the nodes below a node, down to a depth of `depth`. -/
def gatherBelow (disk : Disk) : Nat → Nat → Gathering (Option (List Nat))
  | 0, _ => return none
  | depth + 1, parent => do
    match (← get)[parent]? with
    | none => return none
    | some node =>
      let names ← StateT.lift ((ContentTree.childNames disk node.source node.spec).mapError .io)
      let children ← names.mapM (addNode disk parent node.source (gatherBelow disk depth))
      return listed children

/-- The arena of the content in a directory. -/
def gather (disk : Disk) (source : Path) : Except ContentError Arena := do
  if disk.isDirectory source then
    let root : ContentNode := { name := "", parent := none, source, spec := none, children := none }
    let (children, arena) ← (gatherBelow disk (ContentTree.depthLimit disk) 0).run [root]
    return arena.setChildren 0 children
  else throw (.missingRoot source)

/-- The child of a node with a name. -/
def child? (arena : Arena) (i : Nat) (name : String) : Option Nat :=
  (arena.children i).find? fun c => (arena[c]?).any (·.name == name)

/-- The node at the end of a chain of names from the root. -/
def find? (arena : Arena) (names : List String) : Option Nat :=
  names.foldlM arena.child? 0

end Arena

end StaticSite
