import StaticSite.Proofs.Content.Children
import StaticSite.Site.Resources

/-!
# Directories among the resources

An entry of a node's resources takes a subdirectory of the node's directory if its key leads there,
however the key is written (`Resources.Takes`); then all that is below the subdirectory is copied
(`Resources.Takes.copies`). Gathering passes over a subdirectory only if a key is its very name. So
the subdirectories that are both copied and content are those that are visible and taken by keys of
other spellings alone, such as a name with a slash behind it (`content_of_resource`).
-/

namespace StaticSite

open Disk

variable {disk : Disk} {source : Path} {place : Location} {names : List String} {key n : String}
  {target : Option String}

/-! ## Following a path up to a link at its end -/

theorem Disk.Leads.walk_false {segments : List String} {links left : Nat} {here there : Location}
    (h : Leads disk links here segments left there) :
    walkFrom disk false links here segments = .ok (.held there .directory) ∨
      ∃ l target, walkFrom disk false links here segments = .ok (.held l (.link target)) := by
  induction h with
  | done => exact .inl walkFrom_nil
  | idle hs _ ih => rwa [walkFrom_idle hs]
  | up _ ih => rwa [walkFrom_up]
  | enter hs found _ ih => rwa [walkFrom_enter hs found]
  | @jump n m here there s target rest hs found _ ih =>
    by_cases hrest : rest = []
    · rw [walkFrom_proper hs, found]
      exact .inr ⟨_, _, if_pos ⟨hrest, rfl⟩⟩
    · rwa [walkFrom_jump hs found (.inl hrest)]

/-- What is listed of a path that leads to a directory is all that is below the directory. -/
theorem Disk.listed_of_directory {p : Path}
    (hr : disk.resolve true p = .ok (.held place .directory)) :
    ∃ first, disk.listed p = .ok (([], first) :: disk.below place) := by
  obtain ⟨left, hleads⟩ := reaches_of_resolve hr
  have hwalk := hleads.walk_false
  rw [← resolve_of_noFault (noFault_of_resolve hr)] at hwalk
  unfold listed
  rcases hwalk with h | ⟨l, target, h⟩
  · exact ⟨.directory, by rw [h]; rfl⟩
  · exact ⟨.link target, by rw [h]; dsimp only [Bind.bind, Except.bind]; rw [hr]; rfl⟩

namespace Resources

/-- An entry of the resources of a directory takes a subdirectory: it may be used, and its key leads
to where the name of the subdirectory leads. -/
structure Takes (disk : Disk) (source : Path) (key : String) (target : Option String) (n : String) :
    Prop where
  usable : unusable? key target = none
  listed : ∃ place, disk.resolve true source = .ok (.held place .directory) ∧ n ∈ disk.namesIn place
  leads : ∃ place, disk.resolve true (source.join n) = .ok (.held place .directory) ∧
    disk.resolve true (source.join key) = .ok (.held place .directory)

/-- Copying an entry of resources copies what is below a location, to the new name or the key. -/
structure Copies (disk : Disk) (source : Path) (key : String) (target : Option String)
    (place : Location) :
    Prop where
  run (output : Path) (session : Session) :
    (copyOne source output key target).run.run ⟨disk, session⟩ =
    (do let _ ← SiteTask.onDisk id (copyDirectory (source.join key) (output.join (target.getD key)))
        return true : SiteTask CopyError Bool).run.run ⟨disk, session⟩
  listed : ∃ first, disk.listed (source.join key) = .ok (([], first) :: disk.below place)

/-- An entry that may be used copies the directory that its key leads to. -/
theorem run_copyOne_of_directory (husable : unusable? key target = none)
    (hr : disk.resolve true (source.join key) = .ok (.held place .directory)) (output : Path)
    (session : Session) :
    (copyOne source output key target).run.run ⟨disk, session⟩ =
      (do
        let _ ← SiteTask.onDisk id (copyDirectory (source.join key) (output.join (target.getD key)))
        return true : SiteTask CopyError Bool).run.run ⟨disk, session⟩ := by
  unfold copyOne
  rw [husable]
  dsimp only
  rw [Task.run_bind, show (get : SiteTask CopyError World).run.run ⟨disk, session⟩ =
    (.ok ⟨disk, session⟩, ⟨disk, session⟩) from rfl]
  dsimp only
  rw [if_pos (isDirectory_of_resolve hr)]

namespace Takes

/-- An entry that takes a subdirectory copies it. -/
theorem copies (h : Takes disk source key target n) :
    ∃ place, disk.resolve true (source.join n) = .ok (.held place .directory) ∧
      Copies disk source key target place := by
  obtain ⟨place, hn, hkey⟩ := h.leads
  exact ⟨place, hn, run_copyOne_of_directory h.usable hkey, listed_of_directory hkey⟩

/-- A key that does not climb, in a directory without links, leaves the name of the subdirectory. -/
theorem descend_eq {left : List String}
    (hr : disk.resolve true source = .ok (.held place .directory))
    (hl : disk.HasNoLinks place) (h : Takes disk source key target n) (hn : Path.IsName n)
    (hrel : Path.IsRelative key) (hd : Path.descend [] (Path.segments ⟨key⟩) = some left) :
    left = [n] := by
  obtain ⟨l, hname, hkey⟩ := h.leads
  have twins := Twins.self (reaches_of_resolve hr) hl
  have hnames : ∀ m ∈ [n], Path.IsName m := List.forall_mem_singleton.2 hn
  have landsName := (resolve_below twins (continues_pathBelow source hnames)).2
  have landsKey := (resolve_below twins ⟨Path.isAbsolute_join source hrel, _,
    Path.steps_join source hrel, (Path.descend_filter [] _).trans hd⟩).2
  rw [show pathBelow source [n] = source.join n from rfl, hname] at landsName
  rw [hkey] at landsKey
  exact List.append_cancel_left ((show l = place ++ left from landsKey).symm.trans landsName)

/-- A key of one segment is the name of the subdirectory that it takes, where there are no links. -/
theorem eq_of_noSlash (hr : disk.resolve true source = .ok (.held place .directory))
    (hl : disk.HasNoLinks place) (h : Takes disk source key target n) (hn : Path.IsName n)
    (hk : '/' ∉ key.toList) : key = n := by
  have husable := (isUsable_of_unusable h.usable).1
  unfold isUsable at husable
  obtain ⟨hne, hcontained⟩ := Bool.and_eq_true_iff.1 husable
  have hrel := Path.isRelative_of_isContained hcontained
  cases hi : Path.isIdle key with
  | true =>
    obtain rfl : key = "." := by simpa [Path.isIdle, bne_iff_ne.1 hne] using hi
    cases h.descend_eq hr hl hn hrel
      (show Path.descend [] (Path.segments ⟨"."⟩) = some [] by decide)
  | false =>
    have hstep : Path.IsStep key := ⟨hi, hk⟩
    have hup : key ≠ ".." := by
      rintro rfl
      exact absurd hcontained (by decide)
    have hd : Path.descend [] (Path.segments ⟨key⟩) = some [key] := by
      have hsteps : (Path.segments ⟨key⟩).filter (!Path.isIdle ·) = [key] := hstep.steps
      rw [← Path.descend_filter, hsteps]
      exact Path.descend_of_noClimb [] (by simpa using hstep) (by simpa using hup.symm)
    exact (List.cons.inj (h.descend_eq hr hl hn hrel hd)).1

end Takes

end Resources

theorem ItemSpec.claims_eq_false_iff {spec : ItemSpec} :
    spec.claims n = false ↔ ∀ e ∈ spec.resources, e.1 ≠ n := by
  unfold ItemSpec.claims Fields.has Fields.get?
  rw [Option.isSome_eq_false_iff, Option.isNone_iff_eq_none, List.lookup_eq_none_iff]
  exact forall₂_congr fun e _ => bne_iff_ne.trans ne_comm

namespace ContentTree

variable {tree u : ContentTree} {spec : ItemSpec}

/-- A subdirectory that an entry of a node's resources takes is copied. It is a node as well exactly
if it is visible and no key is its very name; where there are no links, then the key that takes it
has a slash. -/
theorem content_of_resource (hw : disk.WellFormed) (hg : gather disk source = .ok tree)
    (hu : tree.find? names = some u) (hs : u.spec = some spec) (he : (key, target) ∈ spec.resources)
    (ht : Resources.Takes disk u.source key target n) :
    (∃ place, disk.resolve true (u.source.join n) = .ok (.held place .directory) ∧
      Resources.Copies disk u.source key target place) ∧
    ((∃ c, tree.find? (names ++ [n]) = some c) ↔
      n.toList.head? ≠ some '.' ∧ ∀ e ∈ spec.resources, e.1 ≠ n) ∧
    ∀ place, disk.resolve true u.source = .ok (.held place .directory) → disk.HasNoLinks place →
      '/' ∉ key.toList → tree.find? (names ++ [n]) = none := by
  obtain ⟨place, hr, hlisted⟩ := ht.listed
  have node : (∃ c, tree.find? (names ++ [n]) = some c) ↔
      n.toList.head? ≠ some '.' ∧ ∀ e ∈ spec.resources, e.1 ≠ n := by
    rw [exists_child_iff hw hg hu hr, isContent, hs, Option.any_some, Bool.and_eq_true, bne_iff_ne,
      Bool.not_eq_true', ItemSpec.claims_eq_false_iff]
    obtain ⟨l, hl, -⟩ := ht.leads
    exact ⟨fun h => h.2.2, fun h => ⟨hlisted, isDirectory_of_resolve hl, h⟩⟩
  refine ⟨ht.copies, node, fun place hr hl hk => Option.eq_none_iff_forall_ne_some.2 fun c hc => ?_⟩
  obtain ⟨place', hr', hlisted⟩ := ht.listed
  exact (node.1 ⟨c, hc⟩).2 _ he (ht.eq_of_noSlash hr hl (isName_of_mem_namesIn hw hlisted) hk)

/-- A disk whose content is `a`. Its item names the subdirectory `b` and, with a slash behind it,
`d`. -/
def spelledDisk : Disk where
  entries :=
    [(["c"], .directory), (["c", "a"], .directory),
      (["c", "a", "item.json"],
        .file "\x7b\"resources\": \x7b\"b\": null, \"d/\": null\x7d\x7d".toUTF8 0),
      (["c", "a", "b"], .directory), (["c", "a", "d"], .directory)]

theorem gather_spelledDisk : ∃ tree u spec, gather spelledDisk ⟨"/c"⟩ = .ok tree ∧
    tree.find? ["a"] = some u ∧ u.spec = some spec ∧ u.source = ⟨"/c/a"⟩ ∧
    spec.resources = [("b", none), ("d/", none)] ∧ (tree.find? ["a", "d"]).isSome := by
  have gathered : (gather spelledDisk ⟨"/c"⟩).toOption.any (fun tree =>
      (tree.find? ["a"]).any (fun u => u.spec.any (fun spec =>
        u.source = ⟨"/c/a"⟩ ∧ spec.resources = [("b", none), ("d/", none)])) &&
      (tree.find? ["a", "d"]).isSome) = true := by decide +kernel
  obtain ⟨tree, htree, h⟩ := (Option.any_eq_true _ _).1 gathered
  obtain ⟨hfind, hd⟩ := Bool.and_eq_true_iff.1 h
  obtain ⟨u, hu, hspec⟩ := (Option.any_eq_true _ _).1 hfind
  obtain ⟨spec, hs, hown⟩ := (Option.any_eq_true _ _).1 hspec
  obtain ⟨hsource, hres⟩ := of_decide_eq_true hown
  exact ⟨tree, u, spec, Except.toOption_eq_some_iff.1 htree, hu, hs, hsource, hres, hd⟩

theorem spelledDisk_wellFormed : spelledDisk.WellFormed :=
  .of_entries (by decide) (by decide) (by decide)

theorem takes_slash : Resources.Takes spelledDisk ⟨"/c/a"⟩ "d/" none "d" :=
  ⟨by decide, ⟨["c", "a"], rfl, by decide⟩, ⟨["c", "a", "d"], rfl, rfl⟩⟩

theorem content_of_resource_spelled : ∃ tree u spec, gather spelledDisk ⟨"/c"⟩ = .ok tree ∧
    tree.find? ["a"] = some u ∧ u.spec = some spec ∧
    (("b", none) ∈ spec.resources ∧ Resources.Takes spelledDisk u.source "b" none "b" ∧
      tree.find? ["a", "b"] = none) ∧
    ("d/", none) ∈ spec.resources ∧ Resources.Takes spelledDisk u.source "d/" none "d" ∧
      ∃ c, tree.find? ["a", "d"] = some c := by
  obtain ⟨tree, u, spec, hg, hu, hs, hsource, hres, -⟩ := gather_spelledDisk
  have hb : ("b", none) ∈ spec.resources := by simp [hres]
  have hd : ("d/", none) ∈ spec.resources := by simp [hres]
  have takesB : Resources.Takes spelledDisk u.source "b" none "b" :=
    hsource ▸ ⟨by decide, ⟨["c", "a"], rfl, by decide⟩, ⟨["c", "a", "b"], rfl, rfl⟩⟩
  have takesD : Resources.Takes spelledDisk u.source "d/" none "d" := hsource ▸ takes_slash
  refine ⟨tree, u, spec, hg, hu, hs, ⟨hb, takesB, ?_⟩, hd, takesD, ?_⟩
  · obtain ⟨-, -, plain⟩ := content_of_resource spelledDisk_wellFormed hg hu hs hb takesB
    exact plain ["c", "a"] (hsource ▸ rfl)
      (fun l _ target => not_link_of_isLinkFree (by decide) l target)
      (by decide)
  · obtain ⟨-, node, -⟩ := content_of_resource spelledDisk_wellFormed hg hu hs hd takesD
    exact node.2 ⟨by decide, by simp [hres]⟩

/-- A directory may be both content and resource: `d/` takes the directory `d`, which is a node. -/
theorem content_and_resource_of_slash : ¬ ∀ (disk : Disk) (source : Path) (tree : ContentTree),
    disk.WellFormed → gather disk source = .ok tree → ∀ names u spec, tree.find? names = some u →
      u.spec = some spec → ∀ key target n, (key, target) ∈ spec.resources →
        Resources.Takes disk u.source key target n → tree.find? (names ++ [n]) = none := by
  intro claim
  obtain ⟨tree, u, spec, hg, hu, hs, hsource, hres, hd⟩ := gather_spelledDisk
  have hnone := claim spelledDisk ⟨"/c"⟩ tree spelledDisk_wellFormed hg
    ["a"] u spec hu hs "d/" none "d"
    (by simp [hres]) (hsource ▸ takes_slash)
  rw [show ["a"] ++ ["d"] = ["a", "d"] from rfl] at hnone
  rw [hnone] at hd
  cases hd

end ContentTree

end StaticSite
