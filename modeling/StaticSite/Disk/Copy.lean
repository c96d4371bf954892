import StaticSite.Disk.Calls

/-!
# Copying

Files are copied with the time of their last change, directories with all that is below them,
merging with what is there, and symbolic links as links.
-/

namespace StaticSite.Disk

/-- Why copying fails: a call fails, or what a path names cannot be listed. -/
inductive CopyError where
  | io (cause : IoError)
  | walk (path : Path) (cause : IoError)
deriving DecidableEq

/-- What is said of a failed copy. -/
def CopyError.message : CopyError → String
  | io cause => "IO error: " ++ cause.message
  | walk path cause =>
    "walk error: IO error for operation on " ++ path.text ++ ": " ++ cause.message

/-- Copies a file and makes the directories above its copy. -/
def copyFile (source dest : Path) : Task IoError Unit := do
  match dest.parent? with
  | some parent => ensureDirectory parent
  | none => pure ()
  Task.call id (·.copyBytes source dest)

/-- Puts a link in the place of whatever is no directory there. -/
def copyLink (target : String) (dest : Path) : Task IoError Unit := do
  if ((← get).linkEntry dest).isOk then Task.call id (·.removeFile dest)
  match dest.parent? with
  | some parent => ensureDirectory parent
  | none => pure ()
  Task.call id (·.makeLink dest target)

/-- What is left of a location below another one. -/
def relativeTo? : Location → Location → Option Location
  | [], place => some place
  | _ :: _, [] => none
  | a :: base, b :: place => if a = b then relativeTo? base place else none

/-- Whether a location is listed before another one or is the same: a directory comes before what it
holds, and siblings are in the order of their names. -/
def precedes : Location → Location → Bool
  | [], _ => true
  | _ :: _, [] => false
  | a :: x, b :: y => if a = b then precedes x y else decide (a < b)

/-- An entry with its relative location, if it is below a directory. -/
def entryBelow? (base : Location) (e : Location × Entry) : Option (Location × Entry) :=
  match relativeTo? base e.1 with
  | none | some [] => none
  | some relative => some (relative, e.2)

/-- All entries below a directory with their relative locations, each directory before what it
holds and siblings by name. -/
def below (disk : Disk) (base : Location) : List (Location × Entry) :=
  sortBy (fun a b => precedes a.1 b.1) (disk.entries.filterMap (entryBelow? base))

/-- What a path names and all that is below it, as it is when the listing begins. A link is named as
a link, but what is below the directory it leads to is listed too. -/
def listed (disk : Disk) (path : Path) : Except IoError (List (Location × Entry)) := do
  match ← disk.resolve false path with
  | .free _ => throw .missing
  | .held _ (.file bytes modified) => return [([], .file bytes modified)]
  | .held place .directory => return ([], .directory) :: disk.below place
  | .held _ (.link target) =>
    match ← disk.resolve true path with
    | .free _ => throw .missing
    | .held place .directory => return ([], .link target) :: disk.below place
    | .held _ _ => return [([], .link target)]

/-- The path of what is at a relative location below a path. -/
def pathBelow (base : Path) (relative : Location) : Path :=
  relative.foldl Path.join base

/-- Copies one of the entries below `source` and says whether it counts. -/
def copyEntry (source dest : Path) : Location × Entry → Task IoError Nat
  | (relative, entry) => do
    let copy := dest.join ("/".intercalate relative)
    match entry with
    | .link target =>
      copyLink target copy
      return 1
    | .directory =>
      ensureDirectory copy
      return 0
    | .file _ _ =>
      copyFile (pathBelow source relative) copy
      return 1

/-- Copies entries below `source` one after the other and counts those that count. -/
def copyEntries (source dest : Path) : List (Location × Entry) → Task IoError Nat
  | [] => return 0
  | e :: rest => return (← copyEntry source dest e) + (← copyEntries source dest rest)

/-- Copies a directory into another one and counts the files and links. All that is below the
directory is listed before the first entry is copied. A walk that lists each directory only when it
comes to it does the same unless the destination lies in the directory: then it also meets the
copies it has made, which are left out here. -/
def copyDirectory (source dest : Path) : Task CopyError Nat := do
  match (← get).listed source with
  | .error cause => throw (.walk source cause)
  | .ok entries => ExceptT.adapt .io (copyEntries source dest entries)

end StaticSite.Disk
