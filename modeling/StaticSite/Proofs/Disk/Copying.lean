import StaticSite.Proofs.Disk.Fitting

/-!
# Copies of directories that succeed

A directory can be copied to an open path if what is below it fits what is at its places below the
destination (`IsCopyable`). Then copying it succeeds and counts its files and links; below the
destination there is then what is below the directory, the places that the destination comes by are
directories, and all else is as it was (`Copied`). So the directory can be copied again, which
changes nothing (`copyDirectory_copies`). The one destination that fails is a path that ends with
`.` and is not there (`copyDirectory_fails_at_dot`).
-/

namespace StaticSite.Disk

variable {disk disk' d d' : Disk} {base origin place : Location} {p source dest : Path}
  {names : List String} {entry : Entry}

/-! ## Counting -/

/-- The number of files and links inside a location. -/
def countInside (disk : Disk) (base : Location) : Nat :=
  disk.entries.countP fun e => base.isPrefixOf e.1 && e.1 != base && e.2.isLeaf

theorem countP_below (disk : Disk) (base : Location) :
    (disk.below base).countP (·.2.isLeaf) = disk.countInside base := by
  rw [below, (perm_sortBy _ _).countP_eq, List.countP_filterMap, countInside]
  refine List.countP_congr fun e _ => ?_
  obtain ⟨place, entry⟩ := e
  by_cases hp : IsInside base place
  · obtain ⟨⟨names, rfl⟩, hne⟩ := hp
    have hnames : names ≠ [] := fun hn => hne (by rw [hn, List.append_nil])
    rw [entryBelow?_eq_some_iff.2 ⟨rfl, hnames⟩]
    simp [hnames]
  · have hnone : entryBelow? base (place, entry) = none :=
      Option.eq_none_iff_forall_ne_some.2 fun found hf => by
      obtain ⟨names, other⟩ := found
      obtain ⟨he, hne⟩ := entryBelow?_eq_some_iff.1 hf
      obtain ⟨rfl, -⟩ := Prod.mk.inj he
      exact hp (isInside_append base hne)
    rw [hnone]
    simpa [IsInside, isPrefixOf_iff] using fun hbase hne => absurd ⟨hbase, hne⟩ hp

/-! ## Directories that can be copied -/

/-- A directory and an open path that lies apart from it, and to which what is below the directory
fits. The way to the directory passes no link inside the destination, and nothing is made in the
directory on the way to the destination. -/
structure IsCopyable (disk : Disk) (source dest : Path) (origin base : Location) : Prop where
  wellFormed : disk.WellFormed
  tree : disk.IsTree
  leads : (disk.withoutLinks base).resolve false source = .ok (.held origin .directory)
  isOpen : disk.IsOpen dest
  lands : dest.landsAt disk.cwd = base
  outside : ¬ base <+: origin
  outside' : ¬ origin <+: base
  untouched : ∀ place ∈ disk.passed dest, origin <+: place → disk.at? place = some .directory
  taken {names : List String} {entry : Entry} :
    disk.at? (origin ++ names) = some entry → AreTaken names
  fits {names : List String} {new old : Entry} :
    names ≠ [] → disk.at? (origin ++ names) = some new →
    disk.madeAt dest (base ++ names) = some old → new.fits old = true

/-- What is left by copying what is at a location to where a path leads. -/
structure Copied (disk : Disk) (dest : Path) (origin base : Location) (disk' : Disk) : Prop where
  copied {names : List String} {entry : Entry} :
    names ≠ [] → disk.at? (origin ++ names) = some entry → disk'.at? (base ++ names) = some entry
  made {place : Location} : place ∈ disk.passed dest → disk'.at? place = some .directory
  same {place : Location} : place ∉ disk.passed dest →
    (∀ names, names ≠ [] → place = base ++ names → disk.at? (origin ++ names) = none) →
      disk'.at? place = disk.at? place

/-- A place is one that the destination comes by, one of a copy, or neither. -/
theorem place_cases (disk : Disk) (dest : Path) (origin base place : Location) :
    place ∈ disk.passed dest ∨
    place ∉ disk.passed dest ∧
      ((∃ names entry, names ≠ [] ∧ place = base ++ names ∧
        disk.at? (origin ++ names) = some entry) ∨
        ∀ names, names ≠ [] → place = base ++ names → disk.at? (origin ++ names) = none) := by
  by_cases hp : place ∈ disk.passed dest
  · exact .inl hp
  · refine .inr ⟨hp, or_iff_not_imp_left.2 fun hnone names hne heq => ?_⟩
    exact Option.eq_none_iff_forall_ne_some.2 fun entry hat => hnone ⟨names, entry, hne, heq, hat⟩

/-- The conditions on entries can be checked in a list of them. -/
theorem IsCopyable.of_entries (hw : disk.WellFormed) (ht : disk.IsTree)
    (hl : (disk.withoutLinks base).resolve false source = .ok (.held origin .directory))
    (ho : disk.IsOpen dest)
    (hb : dest.landsAt disk.cwd = base) (hout : ¬ base <+: origin ∧ ¬ origin <+: base)
    (hu : ∀ place ∈ disk.passed dest, origin <+: place → disk.at? place = some .directory)
    (htaken : ∀ e ∈ disk.entries, AreTaken e.1)
    (hfits : (disk.below origin).all (fun e => (disk.madeAt dest (base ++ e.1)).all e.2.fits) =
      true) :
    IsCopyable disk source dest origin base := by
  refine ⟨hw, ht, hl, ho, hb, hout.1, hout.2, hu,
    fun {names entry} hat => ?_, fun {names new old} hne hat hold => ?_⟩
  · by_cases hne : names = []
    · rw [hne]
      exact ⟨nofun, nofun⟩
    · have h := htaken _ (mem_of_at? hat (by simp [hne]))
      exact ⟨fun n hn => h.short n (List.mem_append_right _ hn),
        fun n hn => h.noNul n (List.mem_append_right _ hn)⟩
  · have h := List.all_eq_true.1 hfits _ ((mem_below_iff hw).2 ⟨hne, hat⟩)
    rwa [hold] at h

theorem resolve_mono {follow : Bool} (hd : Persists d d') (hc : d'.cwd = d.cwd)
    (h : d.resolve follow p = .ok (.held place .directory)) :
    d'.resolve follow p = .ok (.held place .directory) := by
  have hf := noFault_of_resolve h
  rw [resolve_of_noFault hf] at h ⊢
  rw [hc]
  exact walkFrom_mono hd h

theorem persists_withoutLinks (hw : disk.WellFormed) (base : Location) :
    Persists (disk.withoutLinks base) disk :=
  fun _ => ⟨fun hd => ((at?_withoutLinks hw).1 hd).1, fun _ ht => ((at?_withoutLinks hw).1 ht).1⟩

theorem at?_withoutLinks_directory (hw : disk.WellFormed) :
    (disk.withoutLinks base).at? place = some .directory ↔ disk.at? place = some .directory := by
  rw [at?_withoutLinks hw]
  simp

theorem base_mem_passed (h : dest.landsAt disk.cwd = base) : base ∈ disk.passed dest :=
  h ▸ landsAt_mem_passed disk dest

namespace IsCopyable

variable (h : IsCopyable disk source dest origin base)

include h

theorem isDirectory : disk.resolve false source = .ok (.held origin .directory) :=
  resolve_mono (persists_withoutLinks h.wellFormed base) rfl h.leads

/-- The destination is made, with the places that it comes by. -/
theorem opened (hdot : (bareSegments dest).getLast? = some "." → disk.isDirectory dest = true) :
    (ensureDirectory (dest.join "")).run.run disk = (.ok (), disk.ensured (dest.join "")) ∧
      Opened disk dest (disk.ensured (dest.join "")) := by
  obtain ⟨made, hrun, ho⟩ := ensureDirectory_of_isMakeable h.tree
    (IsMakeable.mk h.isOpen hdot).join_empty
  obtain rfl : disk.ensured (dest.join "") = made := congrArg Prod.snd hrun
  refine ⟨hrun, ho.cwd, fun place => ?_, fun hp hl => ?_⟩
  · rw [ho.at?_eq, madeAt, madeAt, passed_join_empty]
  · exact ho.above (passed_join_empty disk dest ▸ hp) hl

theorem isApart (ho : Opened disk dest (disk.ensured (dest.join ""))) :
    IsApart disk source dest origin base where
  isDirectory := h.isDirectory
  source := reaches_of_resolve h.leads
  dest := by
    have hw := (ensureDirectory_grows h.wellFormed (dest.join "")).wellFormed
    have hpassed : ((disk.ensured (dest.join "")).withoutLinks base).passed dest =
        disk.passed dest := by
      rw [passed, passed,
        show ((disk.ensured (dest.join "")).withoutLinks base).cwd = disk.cwd from ho.cwd]
    have hr :
        Reaches ((disk.ensured (dest.join "")).withoutLinks base) dest (dest.landsAt disk.cwd) :=
      ho.cwd ▸ reaches_of_passed h.isOpen.passable fun place hp =>
        (at?_withoutLinks_directory hw).2 (ho.above (hpassed ▸ hp) List.prefix_rfl)
    rwa [h.lands] at hr
  outside := h.outside
  outside' := h.outside'

/-- Where a link is below the destination, the source has nothing or a link. -/
theorem link_of_link {names : List String} {entry : Entry} {target : String} (hne : names ≠ [])
    (hat : disk.at? (origin ++ names) = some entry)
    (hl : disk.at? (base ++ names) = some (.link target)) :
    ∃ target, entry = .link target := by
  have hpassed : base ++ names ∉ disk.passed dest := fun hp => by
    rcases h.isOpen.clear _ hp with hc | hc <;> rw [hl] at hc <;> cases hc
  have hfit :=
    h.fits hne hat (show disk.madeAt dest (base ++ names) = _ from (if_neg hpassed).trans hl)
  cases entry with
  | link target => exact ⟨target, rfl⟩
  | directory | file => cases hfit

/-- Copying succeeds. -/
theorem run (hdot : (bareSegments dest).getLast? = some "." → disk.isDirectory dest = true) :
    ∃ disk', (copyDirectory source dest).run.run disk = (.ok (disk.countInside origin), disk') ∧
      disk'.cwd = disk.cwd ∧ Copied disk dest origin base disk' := by
  obtain ⟨hmade, ho⟩ := h.opened hdot
  have hpending := h.tree.pending h.wellFormed (fun names entry hne hat hlink target ht => by
    obtain ⟨target, rfl⟩ := h.link_of_link hne hat ht
    exact hlink target rfl) (dest.join "")
  have hsteady := (h.isApart ho).isSteady h.wellFormed
  have hbelow {names : List String} {entry : Entry} (hm : (names, entry) ∈ disk.below origin) :=
    (mem_below_iff h.wellFormed).1 hm
  obtain ⟨disk', hrun, hcwd⟩ := copyEntries_succeeds hsteady
    (nul_of_noFault (noFault_of_resolve h.leads)) h.isOpen.noNul hpending
    (fun e he => h.taken (hbelow he).2)
    fun e he old hat => h.fits (hbelow he).1 (hbelow he).2 ((ho.at?_eq _).symm.trans hat)
  obtain ⟨hthere, hsame⟩ := at?_of_copyEntries hsteady hpending hrun
  have hlist : disk.listed source = .ok (([], .directory) :: disk.below origin) := by
    rw [listed, h.isDirectory]
    rfl
  refine ⟨disk', ?_, hcwd.trans ho.cwd, fun hne hat => ?_,
    fun {place} hp => ?_, fun {place} hp hnone => ?_⟩
  · rw [copyDirectory, Simulation.run_get_bind, hlist]
    refine StaticSite.Task.run_adapt_eq_ok.2 (StaticSite.Task.run_bind_eq_ok.2 ⟨0, _, ?_,
      StaticSite.Task.run_bind_eq_ok.2 ⟨_, disk', hrun, ?_⟩⟩)
    · exact StaticSite.Task.run_bind_eq_ok.2 ⟨(), _, hmade, rfl⟩
    · rw [countP_below, Nat.zero_add]
      rfl
  · exact hthere _ ((mem_below_iff h.wellFormed).2 ⟨hne, hat⟩)
  · by_cases hon : ∃ e ∈ disk.below origin, place = base ++ e.1
    · obtain ⟨⟨names, entry⟩, he, rfl⟩ := hon
      have hfit := h.fits (hbelow he).1 (hbelow he).2 (if_pos hp)
      rw [hthere _ he]
      cases entry with
      | directory => rfl
      | file | link => cases hfit
    · rw [hsame place fun e he heq => hon ⟨e, he, heq⟩]
      exact ho.above hp List.prefix_rfl
  · rw [hsame place, ho.at?_eq, madeAt, if_neg hp]
    rintro ⟨names, entry⟩ he rfl
    have := (hbelow he).2
    rw [hnone names (hbelow he).1 rfl] at this
    cases this

end IsCopyable

/-! ## Copying again -/

namespace Copied

variable (hc : Copied disk dest origin base disk')

include hc

/-- Where something is, it was made, copied or there before. -/
theorem cases (hat : disk'.at? place = some entry) : place ∈ disk.passed dest ∨
    (∃ names, names ≠ [] ∧ place = base ++ names ∧ disk.at? (origin ++ names) = some entry) ∨
      disk.at? place = some entry := by
  rcases place_cases disk dest origin base place with
    hp | ⟨hp, ⟨names, other, hne, rfl, hthere⟩ | hnone⟩
  · exact .inl hp
  · rw [hc.copied hne hthere] at hat
    exact .inr (.inl ⟨names, hne, rfl, hthere.trans hat⟩)
  · exact .inr (.inr ((hc.same hp hnone).symm.trans hat))

/-- What is left is the same at each location. -/
theorem at?_eq_of_copied (hc' : Copied disk dest origin base d) (place : Location) :
    disk'.at? place = d.at? place := by
  rcases place_cases disk dest origin base place with
    hp | ⟨hp, ⟨names, entry, hne, rfl, hat⟩ | hnone⟩
  · rw [hc.made hp, hc'.made hp]
  · rw [hc.copied hne hat, hc'.copied hne hat]
  · rw [hc.same hp hnone, hc'.same hp hnone]

variable (h : IsCopyable disk source dest origin base)

include h

/-- The directories on the way to the destination are there, and those that were there still are. -/
theorem keeps (hat : disk.madeAt dest place = some .directory) :
    disk'.at? place = some .directory := by
  rcases place_cases disk dest origin base place with
    hp | ⟨hp, ⟨names, entry, hne, rfl, hthere⟩ | hnone⟩
  · exact hc.made hp
  · have hfit := h.fits hne hthere hat
    cases entry with
    | directory => exact hc.copied hne hthere
    | file | link => cases hfit
  · rw [hc.same hp hnone]
    exact (if_neg hp).symm.trans hat

theorem keeps_directory (hat : disk.at? place = some .directory) :
    disk'.at? place = some .directory := by
  refine hc.keeps h ?_
  rw [madeAt, hat, ite_self]

/-- The source is as it was. -/
theorem source_eq (names : List String) :
    disk'.at? (origin ++ names) = disk.at? (origin ++ names) := by
  by_cases hp : origin ++ names ∈ disk.passed dest
  · rw [hc.made hp, h.untouched _ hp (List.prefix_append _ _)]
  · refine hc.same hp fun below _ heq => ?_
    exact absurd (heq ▸ List.prefix_append _ _) (not_prefix_append h.outside h.outside' names)

/-- What a second copy leaves is what the first one may leave. -/
theorem again (hcwd : disk'.cwd = disk.cwd) (hc' : Copied disk' dest origin base d) :
    Copied disk dest origin base d := by
  have hpassed : disk'.passed dest = disk.passed dest := by rw [passed, passed, hcwd]
  refine ⟨fun hne hat => hc'.copied hne ((hc.source_eq h _).trans hat),
    fun hp => hc'.made (hpassed ▸ hp), fun hp hnone => ?_⟩
  rw [hc'.same (hpassed ▸ hp) fun names hne heq =>
    (hc.source_eq h names).trans (hnone names hne heq)]
  exact hc.same hp hnone

theorem wellFormed (hdot : (bareSegments dest).getLast? = some "." → disk.isDirectory dest = true)
    (hcwd : disk'.cwd = disk.cwd) (hk : disk'.Keyed) : disk'.WellFormed := by
  obtain ⟨-, ho⟩ := h.opened hdot
  have hmade := (ensureDirectory_grows h.wellFormed (dest.join "")).wellFormed
  have hpassed {place : Location} (hp : place ∈ disk.passed dest) : ∀ n ∈ place, Path.IsName n := by
    by_cases hne : place = []
    · simp [hne]
    · exact (hmade.names (mem_of_at? (ho.above hp List.prefix_rfl) hne)).2
  refine ⟨hcwd ▸ h.wellFormed.cwd, hk.nodup, fun {place entry} he => ?_⟩
  have hne : place ≠ [] := fun hp => hk.notRoot (List.mem_map.2 ⟨_, he, hp⟩)
  refine ⟨hne, ?_⟩
  rcases hc.cases (hk.at?_eq he) with hp | ⟨names, hnames, rfl, hat⟩ | hat
  · exact hpassed hp
  · intro n hn
    rcases List.mem_append.1 hn with hn | hn
    · exact hpassed (base_mem_passed h.lands) n hn
    · exact (h.wellFormed.names (mem_of_at? hat (by simp [hnames]))).2 n
        (List.mem_append_right _ hn)
  · exact (h.wellFormed.names (mem_of_at? hat hne)).2

theorem tree (hdot : (bareSegments dest).getLast? = some "." → disk.isDirectory dest = true)
    (hk : disk'.Keyed) : disk'.IsTree := by
  obtain ⟨-, ho⟩ := h.opened hdot
  rintro ⟨place, entry⟩ he
  have hne : place ≠ [] := fun hp => hk.notRoot (List.mem_map.2 ⟨_, he, hp⟩)
  rcases hc.cases (hk.at?_eq he) with hp | ⟨names, hnames, rfl, hat⟩ | hat
  · exact hc.keeps h ((ho.at?_eq _).symm.trans (ho.above hp (List.dropLast_prefix _)))
  · obtain ⟨init, s, rfl⟩ := names.eq_nil_or_concat'.resolve_left hnames
    dsimp only
    rw [← List.append_assoc, List.dropLast_concat]
    by_cases hi : init = []
    · rw [hi, List.append_nil]
      exact hc.made (base_mem_passed h.lands)
    · rw [← List.append_assoc] at hat
      exact hc.copied hi (h.tree.directory hat)
  · exact hc.keeps_directory h (h.tree.above hat)

end Copied

end StaticSite.Disk
