import StaticSite.Proofs.Disk.Simulation
import StaticSite.Proofs.Disk.Source

/-!
# Writing below one directory

A `Zone` is a directory of the output, on two disks on which the same is below it. Calls that read
sources and write paths that continue the zone's root have one outcome on both disks, change nothing
beyond the zone and leave the same below it (`Zone.simulation`).
-/

namespace StaticSite.Disk

variable {disk disk' before : Disk} {outer base place : Location} {root p q : Path}
  {left : List String}

/-! ## Paths that continue a root -/

theorem Continues.refl (root : Path) : Continues root root [] :=
  ⟨rfl, [], (List.append_nil _).symm, rfl⟩

theorem Continues.join (h : Continues root p left) {t : String} {names : List String}
    (ht : Path.IsRelative t) (hd : Path.descend [] (Path.steps ⟨t⟩) = some names) :
    Continues root (p.join t) (left ++ names) := by
  obtain ⟨ha, more, hs, hm⟩ := h
  refine ⟨(p.isAbsolute_join ht).trans ha, more ++ Path.steps ⟨t⟩, ?_, ?_⟩
  · rw [p.steps_join ht, hs, List.append_assoc]
  · have := Path.descend_below left hd
    rw [List.append_nil] at this
    rw [Path.descend_append, hm]
    exact this

/-- A relative text that does not climb, behind a path that continues a root. -/
theorem Continues.join_of_stays (h : Continues root p left) {t : String} (ht : Path.IsRelative t)
    (hs : Path.stays ⟨t⟩ = true) : ∃ left', Continues root (p.join t) left' := by
  rw [Path.stays_iff_steps] at hs
  obtain ⟨names, hd⟩ := Option.isSome_iff_exists.1 hs
  exact ⟨left ++ names, h.join ht hd⟩

theorem Continues.join_names (h : Continues root p left) {names : List String}
    (hn : ∀ n ∈ names, Path.IsName n) :
    Continues root (p.join ("/".intercalate names)) (left ++ names) := by
  have hstep : ∀ n ∈ names, Path.IsStep n := fun n hm => (hn n hm).isStep
  refine h.join (Path.isRelative_intercalate hstep) ?_
  rw [Path.steps_intercalate hstep]
  exact Path.descend_of_noClimb [] hstep fun hup => (hn ".." hup).2.2.1 rfl

theorem Continues.join_name (h : Continues root p left) {n : String} (hn : Path.IsName n) :
    Continues root (p.join n) (left ++ [n]) := by
  have hall : ∀ m ∈ [n], Path.IsName m := fun m hm => List.mem_singleton.1 hm ▸ hn
  have := h.join_names hall
  rwa [String.intercalate_singleton] at this

theorem Continues.isOnLine (h : Continues root p left) (hq : q.IsAbove p) : IsOnLine root q := by
  obtain ⟨ha, more, hs, hd⟩ := h
  have hroot : root.steps <+: p.steps := ⟨more, hs.symm⟩
  rcases List.prefix_or_prefix_of_prefix hq.1 hroot with hp | ⟨more', hp⟩
  · exact .inl ⟨hp, hq.2.trans ha⟩
  · obtain ⟨rest, hrest⟩ := hq.1
    have hmore : more = more' ++ rest := by
      rw [← hp, hs, List.append_assoc] at hrest
      exact (List.append_cancel_left hrest).symm
    rw [hmore, Path.descend_append] at hd
    obtain ⟨left', hd', -⟩ := Option.bind_eq_some_iff.1 hd
    exact .inr ⟨left', hq.2.trans ha, more', hp.symm, hd'⟩

/-! ## Settled disks -/

theorem Settled.trans (h : Settled before outer disk) (h' : Settled disk base disk')
    (hb : outer <+: base) : Settled before outer disk' := by
  have key (d : Disk) : (d.entriesBeyond base).filter (fun e => !outer.isPrefixOf e.1) =
      d.entriesBeyond outer := by
    unfold entriesBeyond
    rw [List.filter_filter]
    refine List.filter_congr fun e _ => ?_
    by_cases ho : outer <+: e.1
    · simp [isPrefixOf_iff.2 ho]
    · have hn : ¬ base <+: e.1 := fun hp => ho (hb.trans hp)
      have hf : base.isPrefixOf e.1 = false := by
        rw [← Bool.not_eq_true, isPrefixOf_iff]
        exact hn
      simp [hf]
  refine ⟨h'.cwd.trans h.cwd, h'.now.trans h.now, ?_, fun hl => h'.directories (h.directories hl),
    fun l hl t => ?_⟩
  · rw [← key disk', h'.beyond, key, h.beyond]
  · by_cases hp : base <+: l
    · exact h'.noLinks l hp t
    · rw [h'.at?_eq hp]
      exact h.noLinks l hl t

theorem HasNoLinks.below (h : disk.HasNoLinks outer) (hb : outer <+: base) : disk.HasNoLinks base :=
  fun l hl => h l (hb.trans hl)

theorem AgreeBelow.put (h : AgreeBelow base disk disk') (hne : place ≠ []) (entry : Entry) :
    AgreeBelow base (disk.put place entry) (disk'.put place entry) := by
  intro l hl
  by_cases he : l = place
  · subst he
    rw [at?_put disk hne, at?_put disk' hne]
  · rw [at?_put_of_ne disk he, at?_put_of_ne disk' he]
    exact h l hl

/-! ## Calls on twins -/

theorem Twins.isDirectory (h : Twins root base disk disk') (hp : IsOnLine root p) :
    disk.isDirectory p = disk'.isDirectory p := by
  rcases hp with ha | ⟨left, hc⟩
  · cases hf : faultOf p with
    | some cause => exact isDirectory_congr (by rw [resolve_of_fault hf, resolve_of_fault hf])
    | none => rw [isDirectory_above h.reaches ha hf, isDirectory_above h.reaches' ha hf]
  · exact isDirectory_congr (resolve_below h hc).1

/-- Making a directory fails alike on both disks, or puts it at one place on both. -/
theorem Twins.makeDirectory (h : Twins root base disk disk') (hp : IsOnLine root p) :
    (∃ cause, disk.makeDirectory p = .error cause ∧ disk'.makeDirectory p = .error cause) ∨
      ∃ place, IsInside base place ∧ disk.makeDirectory p = .ok (disk.put place .directory) ∧
        disk'.makeDirectory p = .ok (disk'.put place .directory) := by
  rcases hp.cases with ha | ⟨hne, left, hc⟩
  · exact .inl ⟨_, makeDirectory_above h.reaches ha, makeDirectory_above h.reaches' ha⟩
  · obtain ⟨hn, hplace⟩ := nameOf_below h hc hne
    unfold Disk.makeDirectory
    rw [← hn]
    cases hfound : disk.nameOf p with
    | error cause => exact .inl ⟨cause, rfl, rfl⟩
    | ok found =>
      obtain ⟨_ | place, slash⟩ := found
      · exact .inl ⟨.alreadyThere, rfl, rfl⟩
      · obtain ⟨rfl, hl⟩ := hplace place slash hfound
        have hsame := h.agree (base ++ left) (List.prefix_append _ _)
        dsimp only [Bind.bind, Except.bind]
        rw [← hsame]
        split
        · exact .inl ⟨.alreadyThere, rfl, rfl⟩
        · exact .inr ⟨_, isInside_append base hl, rfl, rfl⟩

theorem Twins.writable (h : Twins root base disk disk') (hc : Continues root p left) :
    disk.writable p = disk'.writable p := by
  by_cases hne : p.steps = root.steps
  · have ha : p.IsAbove root := ⟨hne ▸ List.prefix_rfl, hc.1⟩
    rw [writable_above h.reaches ha, writable_above h.reaches' ha]
  · unfold Disk.writable
    rw [(nameOf_below h hc hne).1, (resolve_below h hc).1]

/-! ## Zones -/

/-- A directory to which a root leads on two disks that differ from `made` only at and below
`outer`. -/
structure Zone where
  made : Disk
  outer : Location
  root : Path
  base : Location
  start : Disk
  start' : Disk
  wellFormed : made.WellFormed
  inside : outer <+: base
  settled : Settled made outer start
  settled' : Settled made outer start'
  reaches : Reaches start root base
  reaches' : Reaches start' root base

namespace Zone

variable (z : Zone)

/-- Two disks that came from the two at the start by changes in the zone, and agree there. -/
structure Rel (d d' : Disk) : Prop where
  settled : Settled z.start z.base d
  settled' : Settled z.start' z.base d'
  agree : AgreeBelow z.base d d'

variable {z} {d d' : Disk}

namespace Rel

theorem twins (h : z.Rel d d') : Twins z.root z.base d d' where
  reaches := h.settled.reaches (z.settled.noLinks.below z.inside) z.reaches
  reaches' := h.settled'.reaches (z.settled'.noLinks.below z.inside) z.reaches'
  noLinks := h.settled.noLinks
  agree := h.agree

theorem beyond (h : z.Rel d d') : Settled z.made z.outer d :=
  z.settled.trans h.settled z.inside

theorem beyond' (h : z.Rel d d') : Settled z.made z.outer d' :=
  z.settled'.trans h.settled' z.inside

theorem resolve_eq (h : z.Rel d d') (hp : IsReadable z.made z.outer p) :
    d'.resolve true p = d.resolve true p :=
  (hp.same h.beyond'.agreeBeyond).trans (hp.same h.beyond.agreeBeyond).symm

theorem put (h : z.Rel d d') (hp : IsInside z.base place) {entry : Entry}
    (hlink : ∀ target, entry ≠ .link target)
    (hdir : d.at? place = some .directory → entry = .directory) :
    z.Rel (d.put place entry) (d'.put place entry) := by
  refine ⟨h.settled.put hp hlink hdir, h.settled'.put hp hlink fun hd => hdir ?_,
    h.agree.put ?_ entry⟩
  · rw [h.agree place hp.1, hd]
  · rintro rfl
    exact hp.2 (List.prefix_nil.1 hp.1).symm

theorem makeDirectory (h : z.Rel d d') (hp : IsOnLine z.root p) :
    Matches z.Rel (d.makeDirectory p) (d'.makeDirectory p) := by
  rcases h.twins.makeDirectory hp with ⟨cause, hd, hd'⟩ | ⟨place, hplace, hd, hd'⟩
  · rw [hd, hd']
    exact rfl
  · rw [hd, hd']
    exact h.put hplace (fun _ he => by cases he) fun _ => rfl

/-- A file that is written into the zone. -/
theorem write (h : z.Rel d d') (hc : Continues z.root p left) (hw : d.writable p = .ok place)
    (bytes : ByteArray) (modified : Nat) :
    z.Rel (d.put place (.file bytes modified)) (d'.put place (.file bytes modified)) := by
  obtain ⟨rfl, hl, hdir⟩ := writable_below h.twins.reaches h.settled.noLinks hc hw
  exact h.put (isInside_append z.base hl) (fun _ he => by cases he) fun he => absurd he hdir

theorem now_eq (h : z.Rel d d') : d.now = d'.now :=
  h.beyond.now.trans h.beyond'.now.symm

theorem writeBytes (h : z.Rel d d') (hc : Continues z.root p left) (bytes : ByteArray) :
    Matches z.Rel (d.writeBytes p bytes) (d'.writeBytes p bytes) := by
  unfold Disk.writeBytes
  rw [← h.twins.writable hc, ← h.now_eq]
  cases hw : d.writable p with
  | error cause => exact rfl
  | ok place => exact h.write hc hw _ _

theorem copyBytes (h : z.Rel d d') {source : Path} (hs : IsReadable z.made z.outer source)
    (hc : Continues z.root p left) :
    Matches z.Rel (d.copyBytes source p) (d'.copyBytes source p) := by
  unfold Disk.copyBytes
  rw [h.resolve_eq hs, ← h.twins.writable hc, ← h.now_eq]
  cases d.resolve true source with
  | error cause => exact rfl
  | ok found =>
    cases found with
    | free => exact rfl
    | held origin entry =>
      cases entry with
      | directory => exact rfl
      | link => exact rfl
      | file bytes modified =>
        cases hw : d.writable p with
        | error cause => exact rfl
        | ok place =>
          dsimp only [Bind.bind, Except.bind]
          split
          · exact h.write hc hw _ _
          · exact h.write hc hw _ _

end Rel

/-- Writing to paths that continue the root of a zone. -/
def simulation (z : Zone) : Simulation where
  rel := z.Rel
  files := IsReadable z.made z.outer
  origins := IsSource z.made z.outer
  targets p := ∃ left, Continues z.root p left
  line := IsOnLine z.root
  links := False
  files_of_origin h := h.toIsReadable
  line_of_target := fun ⟨_, hc⟩ hq => hc.isOnLine (Path.isAbove_of_mem_withAncestors hq)
  line_of_parent := fun ⟨_, hc⟩ hp hq =>
    hc.isOnLine ((Path.isAbove_of_mem_withAncestors hq).trans (Path.isAbove_of_parent hp))
  isFile h hp := (isFile_congr (h.resolve_eq hp)).symm
  readText h hp := (readText_congr (h.resolve_eq hp)).symm
  isDirectory h hp := by
    rcases hp with hp | hp
    · exact h.twins.isDirectory hp
    · exact (isDirectory_congr (h.resolve_eq hp.toIsReadable)).symm
  listed h hp := (hp.listed_eq h.beyond.sameBeyond).trans (hp.listed_eq h.beyond'.sameBeyond).symm
  makeDirectory h hp := h.makeDirectory hp
  writeBytes bytes h := fun ⟨_, hc⟩ => h.writeBytes hc bytes
  copyBytes h hs := fun ⟨_, hc⟩ => h.copyBytes hs hc
  copyLink _ h := h.elim
  listing h hs hl he := by
    obtain ⟨hn, hlink, hr⟩ := hs.mem_listed z.wellFormed
      ((hs.listed_eq h.beyond.sameBeyond).symm.trans hl) he
    exact ⟨fun _ => hr, fun ⟨target, ht⟩ => hlink target ht, fun ⟨_, hc⟩ => ⟨_, hc.join_names hn⟩⟩

end Zone

end StaticSite.Disk
