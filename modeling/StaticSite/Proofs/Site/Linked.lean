import StaticSite.Proofs.Disk.Copying
import StaticSite.Proofs.Site.Resources

/-!
# Directories that are named by links

A link to a directory is listed as a link, with what is below the directory. So the copy starts by
putting the link at the destination with nothing joined to it, which fails wherever that is
(`copyLink_join_empty`): a directory is copied under its other paths, but not under a link
(`copyDirectory_alike_iff`), and neither are the resources whose keys lead to links.
-/

namespace StaticSite

open Disk

variable {disk d d' copied : Disk} {base origin place : Location} {source direct dest p : Path}
  {target : String} {slash : Bool}

namespace Disk

/-! ## Putting a link at a path with nothing joined to it -/

/-- Whether slashes stand behind a name is seen in the text of its path. -/
theorem slash_of_nameOf (h : d.nameOf p = .ok (some place, slash)) :
    slash = (p.text.toList.getLast? == some '/') := by
  rw [nameOf_of_noFault (noFault_of_nameOf h)] at h
  cases hb : (bareSegments p).getLast? with
  | none =>
    rw [hb] at h
    cases h
  | some last =>
    rw [hb] at h
    obtain ⟨found, -, h⟩ := Except.bind_eq_ok_iff.1 h
    cases found with
    | free => cases h
    | held here entry =>
      dsimp only at h
      split at h
      · cases h
      · split at h
        · cases h
        · cases h
          rfl

/-- A path to which nothing is joined is empty or ends with a slash. -/
theorem join_empty_ends (p : Path) :
    (p.join "").text = "" ∨ (p.join "").text.toList.getLast? = some '/' := by
  rw [Path.join_empty, Path.opened]
  split
  · assumption
  · exact .inr (by simp)

theorem makeLink_join_empty (d : Disk) (p : Path) (target : String) (d' : Disk) :
    d.makeLink (p.join "") target ≠ .ok d' := by
  intro h
  obtain ⟨place, hn, -, -⟩ := makeLink_eq_ok h
  rcases join_empty_ends p with htext | hends
  · rw [nameOf, if_pos htext] at hn
    cases hn
  · have hslash := slash_of_nameOf hn
    rw [hends] at hslash
    cases hslash

/-- A link is never put at a path to which nothing is joined. -/
theorem copyLink_join_empty (target : String) (p : Path) (d d' : Disk) :
    (copyLink target (p.join "")).run.run d ≠ (.ok (), d') := by
  have hmake (made : Disk) :
      (Task.call id (·.makeLink (p.join "") target) : Disk.Task IoError Unit).run.run made ≠
        (.ok (), d') :=
    fun h => makeLink_join_empty made p target d' (Task.run_call_eq_ok.1 h)
  intro h
  cases hp : (p.join "").parent? with
  | some parent =>
    obtain ⟨-, made, -, -, hm⟩ := run_copyLink_eq_ok hp h
    exact makeLink_join_empty made p target d' hm
  | none =>
    rw [copyLink, Simulation.run_get_bind] at h
    simp only [hp] at h
    split at h
    · obtain ⟨⟨⟩, cleared, -, h⟩ := StaticSite.Task.run_bind_eq_ok.1 h
      exact hmake cleared h
    · exact hmake d h

/-! ## Copying what a link leads to -/

/-- A path ends at a link. -/
def EndsAtLink (disk : Disk) (p : Path) : Prop :=
  ∃ place target, disk.resolve false p = .ok (.held place (.link target))

/-- What is listed of a link starts with the link. -/
theorem listed_of_link {entries : List (Location × Entry)}
    (h : disk.resolve false p = .ok (.held place (.link target)))
    (hl : disk.listed p = .ok entries) :
    ∃ rest, entries = ([], .link target) :: rest := by
  rw [listed, h] at hl
  dsimp only [Bind.bind, Except.bind] at hl
  obtain ⟨found, -, hl⟩ := Except.bind_eq_ok_iff.1 hl
  rcases found with ⟨l, _ | _ | _⟩ | l
  · cases hl
    exact ⟨_, rfl⟩
  · cases hl
    exact ⟨[], rfl⟩
  · cases hl
    exact ⟨[], rfl⟩
  · cases hl

/-- Copying a directory under a link fails, whatever the destination. -/
theorem copyDirectory_of_link (h : disk.EndsAtLink source) (dest : Path) (count : Nat)
    (disk' : Disk) :
    (copyDirectory source dest).run.run disk ≠ (.ok count, disk') := by
  obtain ⟨place, target, h⟩ := h
  intro hrun
  rw [copyDirectory, Simulation.run_get_bind] at hrun
  cases hl : disk.listed source with
  | error cause =>
    rw [hl] at hrun
    cases hrun
  | ok entries =>
    obtain ⟨rest, rfl⟩ := listed_of_link h hl
    rw [hl] at hrun
    obtain ⟨copied, made, hmade, -⟩ :=
      StaticSite.Task.run_bind_eq_ok.1 (StaticSite.Task.run_adapt_eq_ok.1 hrun)
    obtain ⟨⟨⟩, last, hlast, -⟩ := StaticSite.Task.run_bind_eq_ok.1 hmade
    exact copyLink_join_empty target dest disk last hlast

/-- A path to a directory ends at a link or names the directory. -/
theorem resolve_false_of_directory (hr : disk.resolve true p = .ok (.held place .directory))
    (hl : ¬ disk.EndsAtLink p) : disk.resolve false p = .ok (.held place .directory) := by
  obtain ⟨m, hm⟩ := reaches_of_resolve hr
  have hwalk := hm.walk_false
  rw [← resolve_of_noFault (noFault_of_resolve hr)] at hwalk
  exact hwalk.resolve_right hl

/-- Where nothing is, nothing is inside. -/
theorem IsTree.at?_inside (ht : disk.IsTree) (hfree : disk.at? base = none) (hp : base <+: place) :
    disk.at? place = none := by
  induction place using List.reverseRecOn with
  | nil => rwa [List.prefix_nil.1 hp] at hfree
  | append_singleton init s ih =>
    rcases List.prefix_concat_iff.1 hp with rfl | hp
    · exact hfree
    · refine Option.eq_none_iff_forall_ne_some.2 fun entry hat => ?_
      have := ht.directory hat
      rw [ih hp] at this
      cases this

/-- A directory is copied under any of its paths that is no link, if it is copied under one and
nothing is at the destination. -/
theorem IsCopyable.of_resolve (h : IsCopyable disk direct dest origin base)
    (hfree : disk.at? base = none)
    (hr : disk.resolve false source = .ok (.held origin .directory)) :
    IsCopyable disk source dest origin base := by
  have hpersists : Persists disk (disk.withoutLinks base) := fun l => by
    refine ⟨fun hd => (at?_withoutLinks_directory h.wellFormed).2 hd, fun target ht => ?_⟩
    refine (at?_withoutLinks h.wellFormed).2 ⟨ht, fun hin => ?_⟩
    rw [h.tree.at?_inside hfree hin.2.1] at ht
    cases ht
  exact { h with leads := resolve_mono hpersists rfl hr }

end Disk

/-- A directory is copied to a place where nothing is, and what is copied is the same under each of
its paths, as long as the path does not end at a link; so it is with the resources whose keys lead
to the directory. -/
theorem copyDirectory_alike_iff (h : IsCopyable disk direct dest origin base)
    (hdot : (bareSegments dest).getLast? = some "." → disk.isDirectory dest = true)
    (hfree : disk.at? base = none) (hr : disk.resolve true source = .ok (.held origin .directory)) :
    ∃ copied, (copyDirectory direct dest).run.run disk = (.ok (disk.countInside origin), copied) ∧
      Copied disk dest origin base copied ∧
      ((∃ disk', (copyDirectory source dest).run.run disk = (.ok (disk.countInside origin), disk') ∧
        ∀ place, disk'.at? place = copied.at? place) ↔ ¬ disk.EndsAtLink source) ∧
      ∀ parent output key target session, Resources.unusable? key target = none →
        parent.join key = source →
        output.join (target.getD key) = dest →
        ((∃ disk', (Resources.copyOne parent output key target).run.run ⟨disk, session⟩ =
            (.ok true, ⟨disk', session⟩) ∧ ∀ place, disk'.at? place = copied.at? place) ↔
          ¬ disk.EndsAtLink source) := by
  obtain ⟨copied, hrun, -, hc⟩ := h.run hdot
  have hsource (hl : ¬ disk.EndsAtLink source) : ∃ disk',
      (copyDirectory source dest).run.run disk = (.ok (disk.countInside origin), disk') ∧
        ∀ place, disk'.at? place = copied.at? place := by
    obtain ⟨disk', hrun', -, hc'⟩ :=
      (h.of_resolve hfree (resolve_false_of_directory hr hl)).run hdot
    exact ⟨disk', hrun', hc'.at?_eq_of_copied hc⟩
  refine ⟨copied, hrun, hc,
    ⟨fun ⟨disk', hrun', _⟩ hl => copyDirectory_of_link hl dest _ _ hrun', hsource⟩, ?_⟩
  rintro parent output key target session husable rfl rfl
  rw [Resources.run_copyOne_of_directory husable hr]
  constructor
  · rintro ⟨disk', hrun', -⟩ hl
    obtain ⟨count, made, hmade, -⟩ := Task.run_bind_eq_ok.1 hrun'
    obtain ⟨disk'', hcopy, -⟩ := SiteTask.run_onDisk_eq_ok.1 hmade
    exact copyDirectory_of_link hl _ _ _ hcopy
  · intro hl
    obtain ⟨disk', hrun', hat⟩ := hsource hl
    exact ⟨disk',
      Task.run_bind_eq_ok.2 ⟨_, _, SiteTask.run_onDisk_eq_ok.2 ⟨disk', hrun', rfl⟩, rfl⟩, hat⟩

/-- A disk with the directory `c/real` and a link to it, `c/src`. -/
def linkedSourceDisk : Disk where
  entries :=
    [(["c"], .directory), (["c", "real"], .directory), (["c", "real", "a"], .file "x".toUTF8 0),
      (["c", "src"], .link "real"), (["o"], .directory)]

theorem linkedSourceDisk_isCopyable :
    IsCopyable linkedSourceDisk ⟨"c/real"⟩ ⟨"o/src"⟩ ["c", "real"] ["o", "src"] :=
  .of_entries (.of_entries (by decide) (by decide) (by decide)) (by decide) rfl
    ⟨by decide, by decide, rfl, by decide +kernel⟩ rfl ⟨by decide, by decide⟩ (by decide +kernel)
    (by decide) (by decide +kernel)

theorem linkedSourceDisk_endsAtLink : linkedSourceDisk.EndsAtLink ⟨"c/src"⟩ :=
  ⟨["c", "src"], "real", rfl⟩

theorem copyDirectory_alike_iff_linked :
    IsCopyable linkedSourceDisk ⟨"c/real"⟩ ⟨"o/src"⟩ ["c", "real"] ["o", "src"] ∧
    linkedSourceDisk.resolve true ⟨"c/src"⟩ = .ok (.held ["c", "real"] .directory) ∧
    ∃ copied, (copyDirectory ⟨"c/real"⟩ ⟨"o/src"⟩).run.run linkedSourceDisk = (.ok 1, copied) ∧
      copied.at? ["o", "src", "a"] = some (.file "x".toUTF8 0) ∧
      (¬ ∃ disk', (copyDirectory ⟨"c/src"⟩ ⟨"o/src"⟩).run.run linkedSourceDisk = (.ok 1, disk') ∧
        ∀ place, disk'.at? place = copied.at? place) ∧
      ∀ session,
        ¬ ∃ disk', (Resources.copyOne ⟨"c"⟩ ⟨"o"⟩ "src" none).run.run ⟨linkedSourceDisk, session⟩ =
        (.ok true, ⟨disk', session⟩) ∧ ∀ place, disk'.at? place = copied.at? place := by
  have hr : linkedSourceDisk.resolve true ⟨"c/src"⟩ = .ok (.held ["c", "real"] .directory) := rfl
  obtain ⟨copied, hrun, hc, halike, hresource⟩ :=
    copyDirectory_alike_iff linkedSourceDisk_isCopyable (fun hd => absurd hd (by decide)) rfl hr
  have hlink := not_not_intro linkedSourceDisk_endsAtLink
  refine ⟨linkedSourceDisk_isCopyable, hr, copied, hrun, hc.copied (show ["a"] ≠ [] by decide) rfl,
    mt halike.1 hlink, fun session =>
    mt (hresource ⟨"c"⟩ ⟨"o"⟩ "src" none session ?_ rfl rfl).1 hlink⟩
  decide

/-- A link to a directory is not copied like the directory. -/
theorem copyDirectory_fails_at_link :
    ¬ ∀ (disk : Disk) (source direct dest : Path) (origin base : Location),
    IsCopyable disk direct dest origin base →
      ((bareSegments dest).getLast? = some "." → disk.isDirectory dest = true) →
      disk.at? base = none →
        disk.resolve true source = .ok (.held origin .directory) →
          ∃ disk', (copyDirectory source dest).run.run disk =
            (.ok (disk.countInside origin), disk') := by
  intro claim
  obtain ⟨disk', hrun⟩ := claim linkedSourceDisk ⟨"c/src"⟩ ⟨"c/real"⟩
    ⟨"o/src"⟩ _ _ linkedSourceDisk_isCopyable
    (fun hd => absurd hd (by decide)) rfl rfl
  exact copyDirectory_of_link linkedSourceDisk_endsAtLink _ _ _ hrun

end StaticSite
