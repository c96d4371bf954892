import StaticSite.Disk.Resolve

/-!
# Calls

The calls that a program makes on a disk. Each one either succeeds or changes nothing. Writing goes
through a link at the end of its path; making and removing act on the name itself.
-/

namespace StaticSite.Disk

/-- Makes a directory where nothing is. -/
def makeDirectory (disk : Disk) (path : Path) : Except IoError Disk := do
  match ← disk.nameOf path with
  | (none, _) => throw .alreadyThere
  | (some place, _) =>
    if (disk.at? place).isSome then throw .alreadyThere
    else return disk.put place .directory

/-- The file that writing to a path creates or replaces. -/
def writable (disk : Disk) (path : Path) : Except IoError Location := do
  match ← disk.nameOf path with
  | (none, _) | (_, true) => throw .isDirectory
  | (some _, false) =>
    match ← disk.resolve true path with
    | .held _ .directory => throw .isDirectory
    | .held place _ => return place
    | .free place => return place

/-- Makes a file with the given bytes, or gives them to the one that is there. -/
def writeBytes (disk : Disk) (path : Path) (bytes : ByteArray) : Except IoError Disk := do
  return disk.put (← disk.writable path) (.file bytes disk.now)

/-- Makes a file with the given text, or gives it to the one that is there. -/
def writeText (disk : Disk) (path : Path) (text : String) : Except IoError Disk :=
  disk.writeBytes path text.toUTF8

/-- The text of a file. -/
def readText (disk : Disk) (path : Path) : Except IoError String := do
  match ← disk.entry path with
  | .file bytes _ =>
    match String.fromUTF8? bytes with
    | some text => return text
    | none => throw .notUtf8
  | .directory => throw .isDirectory
  | .link _ => throw .missing

/-- Makes one file like another, the time of its last change included. A file copied to itself is
emptied, because it is cut off before it is read. -/
def copyBytes (disk : Disk) (source dest : Path) : Except IoError Disk := do
  match ← disk.resolve true source with
  | .held origin (.file bytes modified) =>
    let place ← disk.writable dest
    if place = origin then return disk.put place (.file .empty disk.now)
    else return disk.put place (.file bytes modified)
  | .held _ _ => throw .notRegular
  | .free _ => throw .missing

/-- Makes a symbolic link where nothing is. -/
def makeLink (disk : Disk) (path : Path) (target : String) : Except IoError Disk := do
  match ← disk.nameOf path with
  | (none, _) => throw .alreadyThere
  | (some place, slash) =>
    if (disk.at? place).isSome then throw .alreadyThere
    else if slash then throw .missing
    else return disk.put place (.link target)

/-- Removes a file or a link. -/
def removeFile (disk : Disk) (path : Path) : Except IoError Disk := do
  match ← disk.nameOf path with
  | (none, _) => throw .isDirectory
  | (some place, slash) =>
    match disk.at? place with
    | none => throw .missing
    | some .directory => throw .isDirectory
    | some _ => if slash then throw .notDirectory else return disk.remove place

/-! ## Directories with all that is above them -/

/-- Makes the first of the paths, of which each is in the directory named by the next one. -/
def ensureAll : List Path → Task IoError Unit
  | [] => return ()
  | path :: above => do
    match (← get).makeDirectory path with
    | .ok disk => set disk
    | .error .missing =>
      ensureAll above
      match (← get).makeDirectory path with
      | .ok disk => set disk
      | .error cause => if (← get).isDirectory path then return () else throw cause
    | .error cause => if (← get).isDirectory path then return () else throw cause

/-- Makes a directory and those above it, as far as they are not there. -/
def ensureDirectory (path : Path) : Task IoError Unit :=
  ensureAll path.withAncestors

end StaticSite.Disk
