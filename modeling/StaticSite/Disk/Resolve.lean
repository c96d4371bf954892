import StaticSite.Disk.Basic

/-!
# Resolving paths

A path is followed segment by segment from the root or from the current directory. `..` climbs, a
symbolic link is replaced by its target, and every name but the last must be a directory. At most
forty links are followed.
-/

namespace StaticSite.Disk

/-- Where a path leads: to an entry, or to a free name in a directory. -/
inductive Place where
  | held (place : Location) (entry : Entry)
  | free (place : Location)

/-- The bytes that a name may have. -/
def nameLimit : Nat := 255

/-- The number of links that are followed on one way. -/
def linkLimit : Nat := 40

/-- The directory at which a path starts. -/
def startOf (here : Location) (path : Path) : Location :=
  if path.isAbsolute then [] else here

/-- Follows segments from a directory. A link at the end is followed too if `follow` is set; what is
behind a link is left to `jump`. -/
def walkNames (disk : Disk) (follow : Bool) (jump : Location → List String → Except IoError Place)
    (here : Location) : List String → Except IoError Place
  | [] => .ok (.held here .directory)
  | name :: rest =>
    if Path.isIdle name then walkNames disk follow jump here rest
    else if name = ".." then walkNames disk follow jump here.dropLast rest
    else if nameLimit < name.utf8ByteSize then .error .nameTooLong
    else
      match disk.at? (here ++ [name]) with
      | none => if rest = [] then .ok (.free (here ++ [name])) else .error .missing
      | some .directory => walkNames disk follow jump (here ++ [name]) rest
      | some (.file bytes modified) =>
        if rest = [] then .ok (.held (here ++ [name]) (.file bytes modified))
        else .error .notDirectory
      | some (.link target) =>
        if rest = [] ∧ follow = false then .ok (.held (here ++ [name]) (.link target))
        else jump (startOf here ⟨target⟩) (Path.segments ⟨target⟩ ++ rest)

/-- Follows segments from a directory, through as many links as `links` says. -/
def walkFrom (disk : Disk) (follow : Bool) :
    Nat → Location → List String → Except IoError Place
  | 0 => walkNames disk follow fun _ _ => .error .tooManyLinks
  | links + 1 => walkNames disk follow (walkFrom disk follow links)

/-- Where a path leads. -/
def resolve (disk : Disk) (follow : Bool) (path : Path) : Except IoError Place :=
  if path.text = "" then .error .missing
  else if '\x00' ∈ path.text.toList then .error .nulInPath
  else walkFrom disk follow linkLimit (startOf disk.cwd path) path.segments

/-- The segments of a path without the empty ones at its end. -/
def bareSegments (path : Path) : List String :=
  (path.segments.reverse.dropWhile (· == "")).reverse

/-- The location that a path names in its directory, whether or not something is there, and whether
slashes stand behind it. A path whose last segment is no name has none. -/
def nameOf (disk : Disk) (path : Path) : Except IoError (Option Location × Bool) := do
  if path.text = "" then throw .missing
  if '\x00' ∈ path.text.toList then throw .nulInPath
  let bare := bareSegments path
  let start := startOf disk.cwd path
  match bare.getLast? with
  | none => return (none, true)
  | some last =>
    match ← walkFrom disk true linkLimit start (bare.dropLast ++ ["."]) with
    | .free _ => throw .missing
    | .held here _ =>
      if last = "." ∨ last = ".." then return (none, true)
      else if nameLimit < last.utf8ByteSize then throw .nameTooLong
      else return (some (here ++ [last]), path.text.toList.getLast? == some '/')

/-- What a path leads to, through links. -/
def entry (disk : Disk) (path : Path) : Except IoError Entry := do
  match ← disk.resolve true path with
  | .held _ found => return found
  | .free _ => throw .missing

/-- What a path names, a link at its end included. -/
def linkEntry (disk : Disk) (path : Path) : Except IoError Entry := do
  match ← disk.resolve false path with
  | .held _ found => return found
  | .free _ => throw .missing

/-- Whether a path leads to a directory, through links. -/
def isDirectory (disk : Disk) (path : Path) : Bool :=
  match disk.entry path with
  | .ok .directory => true
  | _ => false

/-- Whether a path leads to a file, through links. -/
def isFile (disk : Disk) (path : Path) : Bool :=
  match disk.entry path with
  | .ok (.file _ _) => true
  | _ => false

end StaticSite.Disk
