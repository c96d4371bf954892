import StaticSite.Proofs.Content.Places
import StaticSite.Proofs.Site.Planning

/-!
# Children of gathered nodes

Gathering goes down to a fixed depth, and no directory is as deep: a walk by names enters each
directory at most once between two links, and follows only so many of them (`length_le_of_leads`).
So every node of a gathered tree has the children that its directory and its specification ask for,
whether or not there are links (`exists_child_iff`).
-/

namespace StaticSite

open Disk

variable {disk : Disk} {source : Path} {place here there : Location} {names : List String}
  {n : String}

/-! ## Depth -/

theorem Disk.Leads.le {segments : List String} {links left : Nat}
    (h : Leads disk links here segments left there) : left ≤ links := by
  induction h with
  | done => exact le_refl _
  | idle _ _ ih | up _ ih | enter _ _ _ ih => exact ih
  | jump _ _ _ ih => exact Nat.le_succ_of_le ih

namespace ContentTree

/-- A walk by names is no longer than there are directories to enter, from where it starts and again
behind each link. -/
theorem length_le_of_leads {links left : Nat} (hn : ∀ s ∈ names, Path.IsName s)
    (h : Leads disk links here names left there) :
    names.length ≤ links * (disk.entries.length + 1) + (disk.below here).length := by
  induction links using Nat.strong_induction_on generalizing here names with
  | _ links behind =>
    induction names generalizing here with
    | nil => exact Nat.zero_le _
    | cons s rest ih =>
      have hs := hn s List.mem_cons_self
      have hrest (t : String) (ht : t ∈ rest) := hn t (List.mem_cons_of_mem s ht)
      rw [List.length_cons]
      cases h with
      | idle hi => exact absurd hi (by simp [hs.isStep.1])
      | up => exact absurd rfl hs.2.2.1
      | enter _ found tail =>
        have hless := length_below_concat_lt (mem_of_at? found (by simp))
        have := ih hrest tail
        omega
      | jump _ _ tail =>
        obtain ⟨k, mid, hfirst, hsecond⟩ := tail.split
        have hk := hfirst.le
        have hlength := behind k (by omega) hrest hsecond
        have hbelow := length_below_le disk mid
        have hmul := Nat.mul_le_mul_right (disk.entries.length + 1) hk
        rw [Nat.succ_mul]
        omega

theorem length_lt_depthLimit (hn : ∀ s ∈ names, Path.IsName s)
    (hd : disk.isDirectory (pathBelow source names)) : names.length < depthLimit disk := by
  obtain ⟨l, hl⟩ := resolve_of_isDirectory hd
  obtain ⟨links, left, mid, hfirst, hnames⟩ := (reaches_of_resolve hl).above
    (isAbsolute_pathBelow source hn).symm (steps_pathBelow source hn).symm
  have hlength := length_le_of_leads hn hnames
  have hbelow := length_below_le disk mid
  have hmul := Nat.mul_le_mul_right (disk.entries.length + 1) hfirst.le
  unfold depthLimit
  rw [Nat.succ_mul]
  omega

/-! ## Nodes -/

theorem childNames_eq {own : Path} (hr : disk.resolve true own = .ok (.held place .directory))
    (parent : Option ItemSpec) : childNames disk own parent =
      .ok ((disk.namesIn place).filter fun n =>
      disk.isDirectory (own.join n) && isContent parent n) :=
  childNames_eq_ok_iff.2 ⟨place, hr, rfl⟩

/-- A node is what is gathered at a path, down to a depth. -/
structure IsGathered (disk : Disk) (own : Path) (depth : Nat) (t : ContentTree) : Prop where
  source : t.source = own
  isDirectory : disk.isDirectory own
  below : gatherBelow disk own t.spec depth = .ok t.children

namespace IsGathered

variable {t u : ContentTree} {own : Path} {depth : Nat}

theorem eq_nil (h : IsGathered disk own 0 t) : t.children = [] :=
  (Except.ok.inj h.below).symm

/-- The names of the children are those of the directories of content in the directory of a node. -/
theorem mem_names_iff (h : IsGathered disk own (depth + 1) t)
    (hr : disk.resolve true own = .ok (.held place .directory)) : n ∈ t.children.map name ↔
      n ∈ disk.namesIn place ∧ disk.isDirectory (own.join n) ∧ isContent t.spec n := by
  have hb := h.below
  rw [gatherBelow_of_ok (childNames_eq hr t.spec)] at hb
  rw [map_eq_of_mapM hb fun _ _ => name_of_readNode, List.mem_filter, Bool.and_eq_true]

theorem child (h : IsGathered disk own (depth + 1) t) (hu : u ∈ t.children) :
    IsGathered disk (own.join u.name) depth u ∧ itemAt disk (own.join u.name) = .ok u.spec := by
  obtain ⟨place, hr⟩ := resolve_of_isDirectory h.isDirectory
  have hb := h.below
  rw [gatherBelow_succ] at hb
  obtain ⟨found, -, hb⟩ := Except.bind_eq_ok_iff.1 hb
  obtain ⟨m, -, hread⟩ := exists_mem_of_mapM hb hu
  obtain ⟨spec, children, hspec, hchildren, rfl⟩ := readNode_eq_ok_iff.1 hread
  exact ⟨⟨rfl, ((h.mem_names_iff hr).1 (List.mem_map_of_mem hu)).2.1, hchildren⟩, hspec⟩

/-- The node at the end of a chain of names is gathered at the path below by these names. -/
theorem find? (hw : disk.WellFormed) (h : IsGathered disk own depth t)
    (hu : t.find? names = some u) :
    (∀ m ∈ names, Path.IsName m) ∧ names.length ≤ depth ∧
      IsGathered disk (pathBelow own names) (depth - names.length) u := by
  induction names generalizing t own depth with
  | nil =>
    cases hu
    exact ⟨by simp, Nat.zero_le _, h⟩
  | cons n rest ih =>
    obtain ⟨c, hc, hrest⟩ := Option.bind_eq_some_iff.1 hu
    have hmem := List.mem_of_find?_eq_some hc
    obtain rfl : c.name = n := by simpa using List.find?_some hc
    cases depth with
    | zero => exact absurd hmem (by simp [h.eq_nil])
    | succ depth =>
      obtain ⟨place, hr⟩ := resolve_of_isDirectory h.isDirectory
      have hlisted := ((h.mem_names_iff hr).1 (List.mem_map_of_mem hmem)).1
      obtain ⟨hnames, hlength, hbelow⟩ := ih (h.child hmem).1 hrest
      refine ⟨List.forall_mem_cons.2 ⟨isName_of_mem_namesIn hw hlisted, hnames⟩, ?_, ?_⟩
      · rw [List.length_cons]
        omega
      · rwa [List.length_cons, Nat.add_sub_add_right]

end IsGathered

section Gathering

variable {tree u : ContentTree}

theorem isGathered_of_gather (hg : gather disk source = .ok tree) :
    IsGathered disk source (depthLimit disk) tree := by
  unfold gather at hg
  split at hg
  · rename_i hd
    obtain ⟨ts, hts, hg⟩ := Except.bind_eq_ok_iff.1 hg
    cases hg
    exact ⟨rfl, hd, hts⟩
  · cases hg

variable (hw : disk.WellFormed) (hg : gather disk source = .ok tree)
  (hu : tree.find? names = some u)

include hw hg hu

/-- The nodes of a gathered tree were gathered to a depth that is left. -/
theorem isGathered_of_find? : (∀ m ∈ names, Path.IsName m) ∧
    ∃ depth, IsGathered disk (pathBelow source names) (depth + 1) u := by
  obtain ⟨hnames, -, h⟩ := (isGathered_of_gather hg).find? hw hu
  have hlt := length_lt_depthLimit hnames h.isDirectory
  obtain ⟨depth, hdepth⟩ : ∃ k, depthLimit disk - names.length = k + 1 :=
    ⟨depthLimit disk - names.length - 1, by omega⟩
  exact ⟨hnames, depth, hdepth ▸ h⟩

/-- A node of a gathered tree has a child of a name exactly if the name is in its directory and
leads to a directory of content. -/
theorem exists_child_iff (hr : disk.resolve true u.source = .ok (.held place .directory)) :
    (∃ c, tree.find? (names ++ [n]) = some c) ↔
      n ∈ disk.namesIn place ∧ disk.isDirectory (u.source.join n) ∧ isContent u.spec n := by
  obtain ⟨-, depth, h⟩ := isGathered_of_find? hw hg hu
  rw [h.source] at hr ⊢
  rw [find?_append, hu, Option.bind_some,
    find?_singleton, ← h.mem_names_iff hr, ← Option.isSome_iff_exists,
    List.find?_isSome, List.mem_map]
  simp only [beq_iff_eq]

end Gathering

end ContentTree

end StaticSite
