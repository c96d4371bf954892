import StaticSite.Disk.Copy
import StaticSite.Site.Session
import StaticSite.Spec.Category
import StaticSite.Spec.Item

/-!
# Resources

A directory among the resources is copied under its new name or its own, a file into the directory
of its category. A name or a target that is empty or leaves its directory, a source that is not
there and a category that is not known are reported and passed over.
-/

namespace StaticSite.Resources

/-- Whether a name may be joined to a directory. -/
def isUsable (name : String) : Bool :=
  name != "" && Url.isContained name

/-- The first of a resource's name and target that may not be used. -/
def unusable? (name : String) (target : Option String) : Option String :=
  (name :: target.toList).find? (!isUsable ·)

/-- Copies one resource and says whether it was copied. -/
def copyOne (source output : Path) (name : String) (target : Option String) :
    SiteTask Disk.CopyError Bool := do
  match unusable? name target with
  | some bad =>
    SiteTask.report (.invalidResourcePath bad)
    return false
  | none =>
    let origin := source.join name
    let disk := (← get).disk
    if disk.isDirectory origin then
      let _ ← SiteTask.onDisk id (Disk.copyDirectory origin (output.join (target.getD name)))
      return true
    else if disk.isFile origin then
      match target.bind Category.ofName? with
      | some category =>
        let dest := (output.join category.directory).join name
        SiteTask.onDisk Disk.CopyError.io (Disk.copyFile origin dest)
        return true
      | none =>
        SiteTask.report (.unknownCategory origin target)
        return false
    else
      SiteTask.report (.missingResource origin)
      return false

/-- Copies resources in the order of their names and counts them. -/
def copyAll (source output : Path) : Resources → SiteTask Disk.CopyError Nat
  | [] => return 0
  | (name, target) :: rest => do
    let copied ← copyOne source output name target
    return copied.toNat + (← copyAll source output rest)

end StaticSite.Resources
