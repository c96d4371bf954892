import StaticSite.Disk.Path
import StaticSite.Sorting

/-!
# Disks

A disk holds files, directories and symbolic links, each at one location: the names that lead to it
from the root. The root is a directory that is always there. Operations are calls that either
succeed or leave the disk as it was; `Disk.Task` runs several of them, and what they did stays done
when a later one fails.
-/

namespace StaticSite

/-- The names that lead from the root to a place, the outermost first. -/
abbrev Location := List String

/-- What a location holds. A file keeps the time at which it was last changed. -/
inductive Entry where
  | directory
  | file (bytes : ByteArray) (modified : Nat)
  | link (target : String)

/-- Why a call on the file system fails. -/
inductive IoError where
  | missing
  | alreadyThere
  | notDirectory
  | isDirectory
  | nameTooLong
  | tooManyLinks
  | notUtf8
  | nulInPath
  | notRegular
deriving DecidableEq

/-- What the system says when a call fails. -/
def IoError.message : IoError → String
  | missing => "No such file or directory (os error 2)"
  | alreadyThere => "File exists (os error 17)"
  | notDirectory => "Not a directory (os error 20)"
  | isDirectory => "Is a directory (os error 21)"
  | nameTooLong => "File name too long (os error 36)"
  | tooManyLinks => "Too many levels of symbolic links (os error 40)"
  | notUtf8 => "stream did not contain valid UTF-8"
  | nulInPath => "file name contained an unexpected NUL byte"
  | notRegular => "the source path is neither a regular file nor a symlink to a regular file"

/-- The entries of a file system, where relative paths start, and the time that new content gets. -/
structure Disk where
  entries : List (Location × Entry) := []
  cwd : Location := []
  now : Nat := 0

namespace Disk

/-- What a location holds. -/
def at? (disk : Disk) (place : Location) : Option Entry :=
  if place = [] then some .directory else disk.entries.lookup place

/-- Puts an entry at a location, in place of what is there. -/
def put (disk : Disk) (place : Location) (entry : Entry) : Disk :=
  { disk with entries := (place, entry) :: disk.entries.filter (·.1 != place) }

/-- Takes away what is at a location. -/
def remove (disk : Disk) (place : Location) : Disk :=
  { disk with entries := disk.entries.filter (·.1 != place) }

/-- The names in a directory, in ascending order. -/
def namesIn (disk : Disk) (place : Location) : List String :=
  let names := disk.entries.filterMap fun (l, _) =>
    if l ≠ [] ∧ l.dropLast = place then l.getLast? else none
  sortBy (fun a b => a ≤ b) names

theorem at?_root (disk : Disk) : disk.at? [] = some .directory := rfl

theorem lookup_filter_ne {place other : Location} (h : other ≠ place)
    (entries : List (Location × Entry)) :
    (entries.filter (·.1 != place)).lookup other = entries.lookup other := by
  induction entries with
  | nil => rfl
  | cons e rest ih =>
    obtain ⟨l, v⟩ := e
    by_cases hl : l = place
    · subst hl
      have ho : (other == l) = false := by simpa using h
      simp [List.lookup_cons, ho, ih]
    · simp [hl, List.lookup_cons, ih]

theorem lookup_filter_self (place : Location) (entries : List (Location × Entry)) :
    (entries.filter (·.1 != place)).lookup place = none := by
  induction entries with
  | nil => rfl
  | cons e rest ih =>
    obtain ⟨l, v⟩ := e
    by_cases hl : l = place
    · simp [hl, ih]
    · have hp : (place == l) = false := by simpa using fun e => hl e.symm
      simp [hl, List.lookup_cons, hp, ih]

theorem at?_put (disk : Disk) {place : Location} (h : place ≠ []) (entry : Entry) :
    (disk.put place entry).at? place = some entry := by
  simp [at?, put, h]

theorem at?_put_of_ne (disk : Disk) {place other : Location} (h : other ≠ place) (entry : Entry) :
    (disk.put place entry).at? other = disk.at? other := by
  have ho : (other == place) = false := by simpa using h
  simp [at?, put, List.lookup_cons, ho, lookup_filter_ne h]

theorem at?_remove (disk : Disk) {place : Location} (h : place ≠ []) :
    (disk.remove place).at? place = none := by
  simp [at?, remove, h, lookup_filter_self]

theorem at?_remove_of_ne (disk : Disk) {place other : Location} (h : other ≠ place) :
    (disk.remove place).at? other = disk.at? other := by
  simp [at?, remove, lookup_filter_ne h]

/-- A sequence of calls. -/
abbrev Task (ε α : Type) := ExceptT ε (StateM Disk) α

/-- One call that changes the disk. -/
def Task.call {ε : Type} (failure : IoError → ε) (step : Disk → Except IoError Disk) :
    Task ε Unit := do
  match step (← get) with
  | .ok disk => set disk
  | .error cause => throw (failure cause)

end Disk

end StaticSite
