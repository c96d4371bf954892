import StaticSite.Proofs.Disk.Ensure
import StaticSite.Proofs.Disk.Content
import StaticSite.Proofs.Disk.Simulation

/-!
# Disks to which no links come

Making directories and writing files keeps the links as they are (`KeepsLinks`), and so does copying
where no link is copied. Where a path leads to no links, whatever is made and written before,
copying what it names copies none; so all that is made of such calls keeps the links
(`Simulation.linkless`).
-/

namespace StaticSite.Disk

variable {before disk disk' d : Disk} {base place : Location} {p : Path}

/-! ## The links of a disk -/

/-- What is a directory or a link on one disk is so on the other one, which has no other links. -/
structure KeepsLinks (before disk : Disk) : Prop where
  cwd : disk.cwd = before.cwd
  keyed : disk.Keyed
  persists : Persists before disk
  links {place : Location} {target : String} :
    disk.at? place = some (.link target) → before.at? place = some (.link target)

namespace KeepsLinks

theorem refl (h : disk.Keyed) : KeepsLinks disk disk :=
  ⟨rfl, h, fun _ => ⟨id, fun _ => id⟩, id⟩

theorem trans (h : KeepsLinks before disk) (h' : KeepsLinks disk disk') : KeepsLinks before disk' :=
  ⟨h'.cwd.trans h.cwd, h'.keyed, fun l => ⟨fun hd => (h'.persists l).1 ((h.persists l).1 hd),
    fun target hl => (h'.persists l).2 target ((h.persists l).2 target hl)⟩,
      fun hl => h.links (h'.links hl)⟩

theorem hasNoLinks (h : KeepsLinks before disk) (hb : before.HasNoLinks base) :
    disk.HasNoLinks base :=
  fun place hp target hl => hb place hp target (h.links hl)

theorem reaches (h : KeepsLinks before disk) (hr : Reaches before p base) : Reaches disk p base :=
  hr.mono h.cwd h.persists

/-- Something that is no link is put where neither a directory nor a link was. -/
theorem put (h : KeepsLinks before disk) (hne : place ≠ []) {entry : Entry}
    (he : ∀ target, entry ≠ .link target)
    (hfree : disk.at? place = none ∨ ∃ bytes modified,
      disk.at? place = some (.file bytes modified)) :
    KeepsLinks before (disk.put place entry) where
  cwd := h.cwd
  keyed := h.keyed.put hne entry
  persists l := by
    by_cases hl : l = place
    · subst hl
      have hkept := h.persists l
      rcases hfree with hat | ⟨_, _, hat⟩
      · exact ⟨fun hd => by simp [hkept.1 hd] at hat,
          fun target ht => by simp [hkept.2 target ht] at hat⟩
      · exact ⟨fun hd => by simp [hkept.1 hd] at hat,
          fun target ht => by simp [hkept.2 target ht] at hat⟩
    · rw [at?_put_of_ne disk hl]
      exact h.persists l
  links {l target} hl := by
    by_cases hp : l = place
    · rw [hp, at?_put disk hne] at hl
      exact absurd (Option.some.inj hl) (he target)
    · rw [at?_put_of_ne disk hp] at hl
      exact h.links hl

theorem makeDirectory (h : KeepsLinks before disk) (hm : disk.makeDirectory p = .ok disk') :
    KeepsLinks before disk' := by
  obtain ⟨place, hne, hfree, rfl, -, -⟩ := reaches_of_makeDirectory hm
  exact h.put hne (by simp) (.inl hfree)

theorem write (h : KeepsLinks before disk) (hw : disk.writable p = .ok place) (bytes : ByteArray)
    (modified : Nat) : KeepsLinks before (disk.put place (.file bytes modified)) :=
  h.put (ne_root_of_writable hw) (by simp) (at?_of_writable hw)

theorem writeBytes (h : KeepsLinks before disk) {bytes : ByteArray}
    (hw : disk.writeBytes p bytes = .ok disk') :
    KeepsLinks before disk' := by
  obtain ⟨place, hwritable, rfl⟩ := writeBytes_eq_ok_iff.1 hw
  exact h.write hwritable _ _

end KeepsLinks

/-! ## Paths that lead to no links -/

/-- Wherever a path leads when directories were made and files were written, no link is there or
below. -/
def LeadsToNoLinks (disk : Disk) (p : Path) : Prop :=
  ∀ d place entry, KeepsLinks disk d → d.resolve false p = .ok (.held place entry) →
    disk.HasNoLinks place

/-- Of a path that leads to a directory, only what is below the directory counts. -/
theorem leadsToNoLinks_of_resolve (h : disk.resolve false p = .ok (.held place .directory))
    (hl : disk.HasNoLinks place) : disk.LeadsToNoLinks p := by
  intro d found entry hd hfound
  have hf := noFault_of_resolve h
  rw [resolve_of_noFault hf] at h hfound
  rw [hd.cwd, walkFrom_mono hd.persists h] at hfound
  cases hfound
  exact hl

theorem LeadsToNoLinks.mono (h : before.LeadsToNoLinks p) (hd : KeepsLinks before disk) :
    disk.LeadsToNoLinks p :=
  fun d _ entry hk hr => hd.hasNoLinks (h d _ entry (hd.trans hk) hr)

theorem LeadsToNoLinks.not_link_of_listed (h : disk.LeadsToNoLinks p) (hd : KeepsLinks disk d)
    {entries : List (Location × Entry)} (hlist : d.listed p = .ok entries) {e : Location × Entry}
    (he : e ∈ entries) (target : String) : e.2 ≠ .link target := by
  have below {place : Location} (hl : disk.HasNoLinks place) (he : e ∈ d.below place) :
      e.2 ≠ .link target := by
    intro hlink
    obtain ⟨relative, entry⟩ := e
    obtain rfl : entry = .link target := hlink
    have hm := mem_below he
    exact hl (place ++ relative) (List.prefix_append _ _) target (hd.links (hd.keyed.at?_eq hm))
  unfold listed at hlist
  obtain ⟨found, hr, hlist⟩ := Except.bind_eq_ok_iff.1 hlist
  rcases found with ⟨place, _ | _ | goal⟩ | place
  · cases hlist
    rcases List.mem_cons.1 he with rfl | he
    · simp
    · exact below (h d place _ hd hr) he
  · cases hlist
    obtain rfl := List.mem_singleton.1 he
    simp
  · exact absurd (hd.links (isThere_of_resolve hr)) (h d place _ hd hr place List.prefix_rfl goal)
  · cases hlist

/-! ## Tasks that copy no links -/

theorem matches_same {x : Except IoError Disk}
    (h : ∀ disk', x = .ok disk' → KeepsLinks before disk') :
    Matches (fun d d' => d = d' ∧ KeepsLinks before d) x x := by
  cases x with
  | error cause => exact rfl
  | ok disk' => exact ⟨rfl, h disk' rfl⟩

/-- One run of a task that copies no links. -/
def Simulation.linkless (before : Disk) : Simulation where
  rel d d' := d = d' ∧ KeepsLinks before d
  files _ := True
  origins := before.LeadsToNoLinks
  targets _ := True
  line _ := True
  links := False
  files_of_origin _ := trivial
  line_of_target _ _ := trivial
  line_of_parent _ _ _ := trivial
  isFile h _ := by rw [h.1]
  readText h _ := by rw [h.1]
  isDirectory h _ := by rw [h.1]
  listed h _ := by rw [h.1]
  makeDirectory h _ := by
    obtain ⟨rfl, hd⟩ := h
    exact matches_same fun _ hm => hd.makeDirectory hm
  writeBytes bytes h _ := by
    obtain ⟨rfl, hd⟩ := h
    exact matches_same fun _ hw => hd.writeBytes hw
  copyBytes h _ _ := by
    obtain ⟨rfl, hd⟩ := h
    refine matches_same fun _ hcopy => ?_
    obtain ⟨place, bytes, modified, hw, rfl⟩ := writes_of_copyBytes hcopy
    exact hd.write hw bytes modified
  copyLink _ h := h.elim
  listing h ho hlist he := by
    obtain ⟨rfl, hd⟩ := h
    refine ⟨fun _ => trivial, fun ⟨target, hl⟩ => ?_, fun _ => trivial⟩
    exact absurd hl (ho.not_link_of_listed hd hlist he target)

theorem KeepsLinks.run {ε α : Type} {task : Disk.Task ε α} (h : KeepsLinks before disk)
    (ht : (Simulation.linkless before).logic.holds task) {outcome : Except ε α}
    (hrun : task.run.run disk = (outcome, disk')) : KeepsLinks before disk' := by
  have hrel := (ht disk disk ⟨rfl, h⟩).2
  rw [hrun] at hrel
  exact hrel.2

end StaticSite.Disk
