import StaticSite.CommandLine

/-!
# The program

The program reads the directories that a build may use from the file system, builds on the disk that
they make, and writes what has changed. A link is read with what it leads to and written as a copy.
-/

namespace StaticSite.CommandLine

/-- The location of an absolute path. -/
def locationOf (path : String) : Location :=
  (Path.mk path).segments.filter (!Path.isIdle ·)

/-- Puts an entry and the directories above it. -/
def store (place : Location) (entry : Entry) (disk : Disk) : Disk :=
  let above := (List.range place.length).map place.take
  (above.foldl (fun d l => if (d.at? l).isNone then d.put l .directory else d) disk).put place entry

/-- Reads what is at an absolute path, all that is below it, and all that is linked from there. -/
partial def load (path : String) : StateT Disk IO Unit := do
  let place := locationOf path
  if ((← get).entries.lookup place).isSome then return
  match (← (IO.FS.realPath path).toBaseIO) with
  | .error _ => return
  | .ok real =>
    let found ← real.metadata
    if locationOf real.toString != place then
      if !place.contains ".." then modify (store place (.link real.toString))
      load real.toString
    else if found.type == .dir then
      modify (store place .directory)
      for child in (← real.readDir) do
        load child.path.toString
    else
      let modified := found.modified.sec.toNat * 1000000000 + found.modified.nsec.toNat
      modify (store place (.file (← IO.FS.readBinFile real) modified))

/-- An absolute form of a path. -/
def absolute (here : String) (path : Path) : String :=
  ((Path.mk here).join path.text).text

/-- The directories that a build reads or writes. -/
def usedDirectories (home : Option Path) (request : BuildRequest) : List Path :=
  [request.website, request.output] ++ ThemeSpec.searchDirectories home request.website

/-- Writes an entry at its place. -/
def save (disk : Disk) (place : Location) (entry : Entry) : IO Unit := do
  let path := "/" ++ "/".intercalate place
  match entry with
  | .directory => IO.FS.createDirAll path
  | .file bytes _ => IO.FS.writeBinFile path bytes
  | .link _ =>
    match disk.entry ⟨path⟩ with
    | .ok (.file bytes _) => IO.FS.writeBinFile path bytes
    | _ => return

/-- Whether two entries are written alike. -/
def isSame : Entry → Entry → Bool
  | .directory, .directory => true
  | .file a _, .file b _ => a.data == b.data
  | .link a, .link b => a == b
  | _, _ => false

/-- Writes what has changed between two disks, each directory before what is in it. -/
def saveChanges (before after : Disk) : IO Unit := do
  for (place, _) in before.entries do
    if (after.at? place).isNone then IO.FS.removeFile ("/" ++ "/".intercalate place)
  for (place, entry) in after.entries.mergeSort fun a b => a.1.length ≤ b.1.length do
    if !(before.at? place).any (isSame entry) then save after place entry

/-- A time in seconds with two decimals. -/
def durationText (milliseconds : Nat) : String :=
  let hundredths := (milliseconds + 5) / 10
  let rest := toString (hundredths % 100)
  toString (hundredths / 100) ++ "." ++ (if rest.length < 2 then "0" ++ rest else rest) ++ "s"

/-- Runs the program. -/
def program (arguments : List String) : IO UInt32 := do
  let start ← IO.monoMsNow
  let here := (← IO.currentDir).toString
  let home := (← IO.getEnv "HOME").map Path.mk
  let mut disk : Disk := { cwd := locationOf here }
  if let .ok request := read arguments then
    for directory in usedDirectories home request do
      let path := absolute here directory
      let (_, found) ← (load path).run disk
      disk := found
  let before : Disk := { disk with now := 0 }
  let (outcome, after) := run home arguments before
  saveChanges before after
  for line in outcome.lines (durationText ((← IO.monoMsNow) - start)) do
    IO.println line
  if let some text := outcome.complaint then IO.eprintln text
  return outcome.exitCode

end StaticSite.CommandLine

/-- The program. -/
def main (arguments : List String) : IO UInt32 :=
  StaticSite.CommandLine.program arguments
