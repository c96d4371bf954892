import StaticSite.Proofs.Content.Children
import StaticSite.Proofs.Content.Items
import StaticSite.Proofs.Disk.Chain

/-!
# Which directories are content

A chain of names below the content root is content if a directory is there, no name on the way is
hidden and none is claimed by the specification of the directory above it (`IsContentDirectory`).
Where there are no links below the root, these are exactly the chains that lead to nodes of the
gathered tree (`exists_node_iff`), and gathering fails only for the item file of such a directory
(`exists_broken`). The main result is `gather_directories`.
-/

namespace StaticSite

namespace ContentTree

open Disk

variable {disk : Disk} {source : Path} {place : Location} {names : List String} {n : String}

/-- A chain of names leads to a directory of content: none of its names is hidden or claimed as a
resource by the specification of the directory above it. The root claims nothing. -/
structure IsContentDirectory (disk : Disk) (source : Path) (names : List String) : Prop where
  isName : ∀ n ∈ names, Path.IsName n
  root : disk.isDirectory source
  isDirectory : disk.isDirectory (pathBelow source names)
  visible {above : List String} {n : String} : above ++ [n] <+: names → n.toList.head? ≠ some '.'
  unclaimed {above : List String} {n : String} {spec : ItemSpec} :
    above ++ [n] <+: names → above ≠ [] →
    HoldsItem disk (pathBelow source above) (some spec) → spec.claims n = false

/-- The specification of the node at a chain of names. -/
def IsSpecAt (disk : Disk) (source : Path) (names : List String) (spec : Option ItemSpec) : Prop :=
  if names = [] then spec = none else HoldsItem disk (pathBelow source names) spec

/-! ## Directories below the root -/

theorem text_join (p : Path) (h : Path.IsName n) :
    ∃ between, (p.join n).text = p.text ++ between ++ n := by
  rcases Path.join_cases p h.isStep.isRelative with ⟨hp, hj⟩ | ⟨a, hp, hj⟩ | ⟨-, hj⟩
  · exact ⟨"", by rw [hj, hp]; simp⟩
  · exact ⟨"", by rw [hj, hp]; simp⟩
  · exact ⟨"/", by rw [hj]⟩

theorem text_pathBelow (p : Path) (h : ∀ n ∈ names, Path.IsName n) :
    ∃ tail, (pathBelow p names).text = p.text ++ tail := by
  induction names using List.reverseRecOn with
  | nil => exact ⟨"", by simp [pathBelow]⟩
  | append_singleton init n ih =>
    obtain ⟨tail, ht⟩ := ih fun m hm => h m (List.mem_append_left _ hm)
    obtain ⟨between, hb⟩ := text_join (pathBelow p init) (h n (by simp))
    exact ⟨tail ++ between ++ n, by rw [pathBelow_concat, hb, ht]; simp [String.append_assoc]⟩

theorem isName_concat (h : ∀ n ∈ names, Path.IsName n) (hn : Path.IsName n) :
    ∀ m ∈ names ++ [n], Path.IsName m :=
  List.forall_mem_append.2 ⟨h, List.forall_mem_singleton.2 hn⟩

theorem isAbove_join (p : Path) (h : Path.IsName n) : p.IsAbove (p.join n) := by
  refine ⟨?_, (Path.isAbsolute_join p h.isStep.isRelative).symm⟩
  rw [Path.steps_join p h.isStep.isRelative]
  exact List.prefix_append _ _

theorem noFault_of_join {p : Path} (h : Path.IsName n) (hp : p.text ≠ "")
    (hf : faultOf (p.join n) = none) :
    faultOf p = none := by
  obtain ⟨between, hb⟩ := text_join p h
  have hnul := nul_of_noFault hf
  rw [hb] at hnul
  unfold faultOf
  rw [if_neg hp, if_neg fun hm => hnul (by simp [hm])]

section Below

variable (hr : disk.resolve true source = .ok (.held place .directory))

include hr

/-- What is above a directory below the root is a directory. -/
theorem isDirectory_above (h : ∀ m ∈ names ++ [n], Path.IsName m)
    (hd : disk.isDirectory (pathBelow source (names ++ [n]))) :
    disk.isDirectory (pathBelow source names) := by
  obtain ⟨hnames, hn⟩ := List.forall_mem_append.1 h
  have hn := hn n List.mem_cons_self
  rw [pathBelow_concat] at hd
  obtain ⟨l, hl⟩ := resolve_of_isDirectory hd
  have htext : (pathBelow source names).text ≠ "" := by
    obtain ⟨tail, ht⟩ := text_pathBelow source hnames
    intro he
    rw [ht] at he
    have hs : source.text ≠ "" := fun he => by
      rw [resolve_of_fault (show faultOf source = some .missing from if_pos he)] at hr
      cases hr
    exact hs (String.append_eq_empty_iff.1 he).1
  exact Disk.isDirectory_above (reaches_of_resolve hl) (isAbove_join _ hn)
    (noFault_of_join hn htext (noFault_of_resolve hl))

variable (hl : disk.HasNoLinks place)

include hl

theorem resolve_directory (h : ∀ m ∈ names, Path.IsName m)
    (hd : disk.isDirectory (pathBelow source names)) :
    disk.resolve true (pathBelow source names) = .ok (.held (place ++ names) .directory) := by
  obtain ⟨l, hd⟩ := resolve_of_isDirectory hd
  have hland :=
    (resolve_below (Twins.self (reaches_of_resolve hr) hl) (continues_pathBelow source h)).2
  rw [hd] at hland
  obtain rfl : l = place ++ names := hland
  exact hd

theorem at?_directory (h : ∀ m ∈ names ++ [n], Path.IsName m)
    (hd : disk.isDirectory (pathBelow source (names ++ [n]))) :
    disk.at? (place ++ names ++ [n]) = some .directory := by
  obtain ⟨hnames, hn⟩ := List.forall_mem_append.1 h
  have hn := hn n List.mem_cons_self
  have habove := resolve_directory hr hl hnames (isDirectory_above hr h hd)
  have hbelow := resolve_directory hr hl h hd
  rw [pathBelow_concat] at hbelow
  -- the walk to the directory goes through the one above it and then by the last name
  obtain ⟨m, k, mid, hfirst, hlast⟩ := (reaches_of_resolve hbelow).above
    (Path.isAbsolute_join _ hn.isStep.isRelative).symm
    (Path.steps_join (pathBelow source names) hn.isStep.isRelative).symm
  rw [resolve_of_noFault (noFault_of_resolve habove), hfirst.walk_eq] at habove
  cases habove
  rw [hn.isStep.steps] at hlast
  cases hlast with
  | idle hi => exact absurd hi (by simp [hn.isStep.1])
  | up => exact absurd rfl hn.2.2.1
  | enter _ found => exact found
  | jump _ found =>
    rw [List.append_assoc] at found
    exact absurd found (hl _ (List.prefix_append _ _) _)

theorem mem_namesIn_of_isDirectory (h : ∀ m ∈ names ++ [n], Path.IsName m)
    (hd : disk.isDirectory (pathBelow source (names ++ [n]))) :
    n ∈ disk.namesIn (place ++ names) := by
  have hthere := at?_directory hr hl h hd
  rw [namesIn_eq, mem_sortBy, List.mem_filterMap]
  exact ⟨_, List.mem_map_of_mem (mem_of_at? hthere (by simp)), nameIn?_eq_some_iff.2 rfl⟩

end Below

/-! ## Content directories -/

namespace IsContentDirectory

theorem isContent_iff {parent : Option ItemSpec} (hs : IsSpecAt disk source names parent) :
    isContent parent n ↔ n.toList.head? ≠ some '.' ∧ (names ≠ [] → ∀ spec,
      HoldsItem disk (pathBelow source names) (some spec) → spec.claims n = false) := by
  unfold isContent
  unfold IsSpecAt at hs
  rw [Bool.and_eq_true, bne_iff_ne]
  refine and_congr_right fun _ => ?_
  split at hs
  · rename_i he
    subst hs
    simp [he]
  · rename_i hne
    cases parent with
    | none =>
      refine ⟨fun _ _ spec h => ?_, fun _ => rfl⟩
      cases hs.unique h
    | some parent =>
      simp only [Option.any_some, Bool.not_eq_true']
      refine ⟨fun hc _ spec h => ?_, fun h => h hne parent hs⟩
      cases hs.unique h
      exact hc

theorem concat_iff {parent : Option ItemSpec} (h : IsContentDirectory disk source names)
    (hs : IsSpecAt disk source names parent) : IsContentDirectory disk source (names ++ [n]) ↔
      Path.IsName n ∧ disk.isDirectory (pathBelow source (names ++ [n])) ∧ isContent parent n := by
  rw [isContent_iff hs]
  constructor
  · intro hc
    exact ⟨hc.isName n (by simp), hc.isDirectory, hc.visible List.prefix_rfl,
      fun hne spec => hc.unclaimed List.prefix_rfl hne⟩
  · rintro ⟨hn, hd, hv, hu⟩
    refine ⟨isName_concat h.isName hn, h.root, hd, fun {above m} hp => ?_,
      fun {above m spec} hp hne hspec => ?_⟩
    · rcases List.prefix_concat_iff.1 hp with he | hp
      · obtain ⟨rfl, rfl⟩ := List.append_singleton_inj.1 he
        exact hv
      · exact h.visible hp
    · rcases List.prefix_concat_iff.1 hp with he | hp
      · obtain ⟨rfl, rfl⟩ := List.append_singleton_inj.1 he
        exact hu hne spec hspec
      · exact h.unclaimed hp hne hspec

theorem of_concat (hr : disk.resolve true source = .ok (.held place .directory))
    (h : IsContentDirectory disk source (names ++ [n])) : IsContentDirectory disk source names :=
  have hp : names <+: names ++ [n] := List.prefix_append _ _
  { isName := fun m hm => h.isName m (hp.subset hm)
    root := h.root
    isDirectory := isDirectory_above hr h.isName h.isDirectory
    visible := fun hm => h.visible (hm.trans hp)
    unclaimed := fun hm => h.unclaimed (hm.trans hp) }

theorem nil (hd : disk.isDirectory source) : IsContentDirectory disk source [] where
  isName := by simp
  root := hd
  isDirectory := hd
  visible h := by simp at h
  unclaimed h := by simp at h

end IsContentDirectory

/-! ## Gathering -/

section Gathering

variable (hw : disk.WellFormed)

include hw

theorem isSpecAt_of_find? {tree u : ContentTree} (hg : gather disk source = .ok tree)
    (hu : tree.find? names = some u) : IsSpecAt disk source names u.spec := by
  unfold IsSpecAt
  induction names using List.reverseRecOn with
  | nil =>
    cases hu
    exact (gather_wellNamed hw hg).2
  | append_singleton init n =>
    rw [find?_append] at hu
    obtain ⟨above, habove, hu⟩ := Option.bind_eq_some_iff.1 hu
    rw [find?_singleton] at hu
    obtain rfl : u.name = n := by simpa using List.find?_some hu
    obtain ⟨-, depth, h⟩ := isGathered_of_find? hw hg habove
    rw [if_neg (by simp), pathBelow_concat]
    exact itemAt_eq_ok_iff.1 (h.child (List.mem_of_find?_eq_some hu)).2

variable (hr : disk.resolve true source = .ok (.held place .directory)) (hl : disk.HasNoLinks place)

include hr hl

/-- The chains that lead to nodes are those of directories of content. -/
theorem exists_node_iff {tree : ContentTree} (hg : gather disk source = .ok tree) :
    (∃ u, tree.find? names = some u) ↔ IsContentDirectory disk source names := by
  induction names using List.reverseRecOn with
  | nil => exact ⟨fun _ => .nil (isGathered_of_gather hg).isDirectory, fun _ => ⟨tree, rfl⟩⟩
  | append_singleton init n ih =>
    -- the node above decides by its specification whether there is one below
    have below {u : ContentTree} (hu : tree.find? init = some u) :
        (∃ c, tree.find? (init ++ [n]) = some c) ↔
        IsContentDirectory disk source (init ++ [n]) := by
      have hc := ih.1 ⟨u, hu⟩
      obtain ⟨-, depth, h⟩ := isGathered_of_find? hw hg hu
      have hres := resolve_directory hr hl hc.isName hc.isDirectory
      rw [exists_child_iff hw hg hu (h.source ▸ hres), h.source, ← pathBelow_concat,
        hc.concat_iff (isSpecAt_of_find? hw hg hu)]
      exact ⟨fun ⟨hm, hd, hn⟩ => ⟨isName_of_mem_namesIn hw hm, hd, hn⟩, fun ⟨hm, hd, hn⟩ =>
        ⟨mem_namesIn_of_isDirectory hr hl (isName_concat hc.isName hm) hd, hd, hn⟩⟩
    constructor
    · intro h
      have ⟨c, hc⟩ := h
      rw [find?_append] at hc
      obtain ⟨u, hu, -⟩ := Option.bind_eq_some_iff.1 hc
      exact (below hu).1 h
    · intro h
      obtain ⟨u, hu⟩ := ih.2 (h.of_concat hr)
      exact (below hu).2 h

/-- What cannot be gathered below a directory of content has a broken item file in it. -/
theorem exists_broken {parent : Option ItemSpec} {depth : Nat} {cause : ContentError}
    (hc : IsContentDirectory disk source names) (hs : IsSpecAt disk source names parent)
    (hg : gatherBelow disk (pathBelow source names) parent depth = .error cause) :
    (∃ c, cause = .config c) ∧ ∃ more, more ≠ [] ∧ IsContentDirectory disk source (names ++ more) ∧
      HasBrokenItem disk (pathBelow source (names ++ more)) := by
  induction depth generalizing names parent with
  | zero => cases hg
  | succ depth ih =>
    rw [gatherBelow_of_ok (childNames_eq (resolve_directory hr hl hc.isName hc.isDirectory) parent)]
      at hg
    obtain ⟨n, hn, hread⟩ := exists_error_of_mapM hg
    obtain ⟨hm, hn⟩ := List.mem_filter.1 hn
    rw [Bool.and_eq_true, ← pathBelow_concat] at hn
    have hbelow := (hc.concat_iff hs).2 ⟨isName_of_mem_namesIn hw hm, hn⟩
    rcases Except.bind_eq_error_iff.1 hread with hread | ⟨spec, hspec, hread⟩
    · obtain ⟨c, hitem, rfl⟩ := Except.mapError_eq_error_iff.1 hread
      rw [← pathBelow_concat] at hitem
      exact ⟨⟨c, rfl⟩, [n], by simp, hbelow, itemAt_eq_error_iff.1 ⟨c, hitem⟩⟩
    · rcases Except.bind_eq_error_iff.1 hread with hread | ⟨children, -, hread⟩
      · rw [← pathBelow_concat] at hread hspec
        have hholds : IsSpecAt disk source (names ++ [n]) spec := by
          unfold IsSpecAt
          rw [if_neg (by simp)]
          exact itemAt_eq_ok_iff.1 (Except.mapError_eq_ok_iff.1 hspec)
        obtain ⟨hcause, more, -, hmore, hbroken⟩ := ih hbelow hholds hread
        rw [List.append_assoc] at hmore hbroken
        exact ⟨hcause, n :: more, by simp, hmore, hbroken⟩
      · cases hread

theorem exists_broken_of_gather {cause : ContentError} (hg : gather disk source = .error cause) :
    (∃ c, cause = .config c) ∧ ∃ names, names ≠ [] ∧ IsContentDirectory disk source names ∧
      HasBrokenItem disk (pathBelow source names) := by
  have hd := isDirectory_of_resolve hr
  unfold gather at hg
  rw [if_pos hd] at hg
  rcases Except.bind_eq_error_iff.1 hg with hg | ⟨_, -, hg⟩
  · exact exists_broken hw hr hl (.nil hd) rfl hg
  · cases hg

end Gathering

theorem gather_of_not_isDirectory (hd : ¬ disk.isDirectory source) :
    gather disk source = .error (.missingRoot source) := by
  unfold gather
  rw [if_neg hd]
  rfl

theorem not_hasBrokenItem {spec : Option ItemSpec} (hne : names ≠ [])
    (hs : IsSpecAt disk source names spec) :
    ¬ HasBrokenItem disk (pathBelow source names) := by
  unfold IsSpecAt at hs
  rw [if_neg hne] at hs
  exact fun hb => hasBrokenItem_iff.1 hb ⟨spec, hs⟩

/-- Where no link is below the content root, a chain of names leads to a node of the gathered tree
exactly if it leads to a directory of content, and the node has the specification that the directory
holds. The content cannot be gathered exactly if the root is no directory, or some directory of
content below it has a broken item file. -/
theorem gather_directories (hw : disk.WellFormed) (source : Path)
    (hl : ∀ place, disk.resolve true source = .ok (.held place .directory) →
      disk.HasNoLinks place) :
    (∀ tree, gather disk source = .ok tree → ∀ names,
      ((∃ u, tree.find? names = some u) ↔ IsContentDirectory disk source names) ∧
        ∀ u, tree.find? names = some u → IsSpecAt disk source names u.spec) ∧
    (gather disk source = .error (.missingRoot source) ↔ disk.isDirectory source = false) ∧
    ((∃ cause, gather disk source = .error (.config cause)) ↔
      ∃ names, names ≠ [] ∧ IsContentDirectory disk source names ∧
        HasBrokenItem disk (pathBelow source names)) ∧
    ∀ cause, gather disk source = .error cause →
      cause = .missingRoot source ∨ ∃ c, cause = .config c := by
  by_cases hd : disk.isDirectory source
  · obtain ⟨place, hr⟩ := resolve_of_isDirectory hd
    have nodes (tree : ContentTree) (h : gather disk source = .ok tree) (names : List String) :
        ((∃ u, tree.find? names = some u) ↔ IsContentDirectory disk source names) ∧
          ∀ u, tree.find? names = some u → IsSpecAt disk source names u.spec :=
      ⟨exists_node_iff hw hr (hl place hr) h, fun u hu => isSpecAt_of_find? hw h hu⟩
    have broken {cause : ContentError} (h : gather disk source = .error cause) :=
      exists_broken_of_gather hw hr (hl place hr) h
    refine ⟨nodes, ⟨fun h => ?_, fun h => ?_⟩, ⟨fun ⟨c, h⟩ => (broken h).2, ?_⟩,
      fun cause h => .inr (broken h).1⟩
    · obtain ⟨⟨c, hc⟩, -⟩ := broken h
      cases hc
    · rw [hd] at h
      cases h
    · rintro ⟨names, hne, hc, hb⟩
      cases hg : gather disk source with
      | error cause =>
        obtain ⟨⟨c, rfl⟩, -⟩ := broken hg
        exact ⟨c, rfl⟩
      | ok tree =>
        obtain ⟨hfind, hspec⟩ := nodes tree hg names
        obtain ⟨u, hu⟩ := hfind.2 hc
        exact absurd hb (not_hasBrokenItem hne (hspec u hu))
  · rw [gather_of_not_isDirectory hd]
    refine ⟨fun tree h => ?_, ⟨fun _ => by simpa using hd, fun _ => rfl⟩, ⟨fun ⟨c, h⟩ => ?_, ?_⟩,
      fun cause h => ?_⟩
    · cases h
    · cases h
    · rintro ⟨names, -, hc, -⟩
      exact absurd hc.root hd
    · cases h
      exact .inl rfl

/-- A disk whose content is `a` with `d` in it. The item files that stand in a hidden directory and
in one that `a` claims are no item files. -/
def claimedDisk : Disk where
  entries :=
    let file (text : String) : Entry := .file text.toUTF8 0
    [(["c"], .directory), (["c", "a"], .directory),
      (["c", "a", "item.json"], file "\x7b\"resources\": \x7b\"b\": null\x7d\x7d"),
      (["c", "a", "b"], .directory), (["c", "a", "b", "item.json"], file "?"),
      (["c", "a", "d"], .directory), (["c", ".h"], .directory),
      (["c", ".h", "item.json"], file "?")]

theorem gather_directories_of_claimed : claimedDisk.WellFormed ∧
    (∃ tree, gather claimedDisk ⟨"/c"⟩ = .ok tree) ∧
    IsContentDirectory claimedDisk ⟨"/c"⟩ ["a", "d"] ∧
    ¬ IsContentDirectory claimedDisk ⟨"/c"⟩ ["a", "b"] ∧
    ¬ IsContentDirectory claimedDisk ⟨"/c"⟩ [".h"] := by
  have wellFormed : claimedDisk.WellFormed := .of_entries (by decide) (by decide) (by decide)
  have gathered : (gather claimedDisk ⟨"/c"⟩).toOption.any (fun tree =>
      (tree.find? ["a", "d"]).isSome && (tree.find? ["a", "b"]).isNone &&
        (tree.find? [".h"]).isNone) = true := by
    decide +kernel
  obtain ⟨tree, htree, hfind⟩ := (Option.any_eq_true _ _).1 gathered
  have htree := Except.toOption_eq_some_iff.1 htree
  obtain ⟨nodes, -⟩ := gather_directories wellFormed ⟨"/c"⟩ fun place _ l _ target =>
    not_link_of_isLinkFree (by decide) l target
  simp only [Bool.and_eq_true, Option.isSome_iff_exists, Option.isNone_iff_eq_none] at hfind
  obtain ⟨⟨hd, hb⟩, hh⟩ := hfind
  refine ⟨wellFormed, ⟨tree, htree⟩, (nodes tree htree _).1.1 hd, fun h => ?_, fun h => ?_⟩
  · obtain ⟨u, hu⟩ := (nodes tree htree _).1.2 h
    rw [hb] at hu
    cases hu
  · obtain ⟨u, hu⟩ := (nodes tree htree _).1.2 h
    rw [hh] at hu
    cases hu

end ContentTree

end StaticSite
