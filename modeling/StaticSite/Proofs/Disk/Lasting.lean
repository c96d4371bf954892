import StaticSite.Proofs.Disk.Ensure

/-!
# What lasts on a disk

`Lasts disk disk'` says that what is on the one disk is still there on the other one: directories,
links to the same places, and files, whatever these hold. It does not matter what was there before
when one of them is written again: a path that could be written is written at the same place as long
as a file stands there (`writable_of_lasts`).
-/

namespace StaticSite

/-- An entry without the time of its last change. -/
def Entry.timeless : Entry → Entry
  | .file bytes _ => .file bytes 0
  | entry => entry

/-- An entry without what a file holds. -/
def Entry.blank : Entry → Entry
  | .file _ _ => .file .empty 0
  | entry => entry

namespace Disk

variable {disk disk' later : Disk} {place : Location} {p : Path} {here : Location}
  {segments : List String} {n : Nat}

/-- What a location holds, whenever it was changed. -/
def content (disk : Disk) (place : Location) : Option Entry :=
  (disk.at? place).map Entry.timeless

/-- Whether a location holds a directory, a file, or which link. -/
def shape (disk : Disk) (place : Location) : Option Entry :=
  (disk.at? place).map Entry.blank

theorem shape_eq_directory_iff : disk.shape place = some .directory ↔
    disk.at? place = some .directory := by
  rw [shape]
  rcases disk.at? place with _ | _ | _ | _ <;> simp [Entry.blank]

theorem shape_eq_link_iff {target : String} :
    disk.shape place = some (.link target) ↔ disk.at? place = some (.link target) := by
  rw [shape]
  rcases disk.at? place with _ | _ | _ | _ <;> simp [Entry.blank]

theorem shape_eq_file_iff : disk.shape place = some (.file .empty 0) ↔
    ∃ bytes modified, disk.at? place = some (.file bytes modified) := by
  rw [shape]
  rcases disk.at? place with _ | _ | _ | _ <;> simp [Entry.blank]

theorem shape_put (disk : Disk) (h : place ≠ []) (entry : Entry) :
    (disk.put place entry).shape place = some entry.blank := by
  rw [shape, at?_put disk h, Option.map_some]

theorem shape_put_of_ne (disk : Disk) {other : Location} (h : other ≠ place) (entry : Entry) :
    (disk.put place entry).shape other = disk.shape other := by
  rw [shape, shape, at?_put_of_ne disk h]

theorem content_put (disk : Disk) (h : place ≠ []) (entry : Entry) :
    (disk.put place entry).content place = some entry.timeless := by
  rw [content, at?_put disk h, Option.map_some]

theorem content_put_of_ne (disk : Disk) {other : Location} (h : other ≠ place) (entry : Entry) :
    (disk.put place entry).content other = disk.content other := by
  rw [content, content, at?_put_of_ne disk h]

/-- What is on a disk is on the other one too, but files may hold something else. -/
structure Lasts (disk disk' : Disk) : Prop where
  cwd : disk'.cwd = disk.cwd
  shape {place : Location} {entry : Entry} :
    disk.shape place = some entry → disk'.shape place = some entry

namespace Lasts

theorem refl (disk : Disk) : Lasts disk disk :=
  ⟨rfl, id⟩

theorem trans (h : Lasts disk disk') (h' : Lasts disk' later) : Lasts disk later :=
  ⟨h'.cwd.trans h.cwd, fun hs => h'.shape (h.shape hs)⟩

theorem persists (h : Lasts disk disk') : Persists disk disk' := fun _ =>
  ⟨fun hd => shape_eq_directory_iff.1 (h.shape (shape_eq_directory_iff.2 hd)),
    fun _ hl => shape_eq_link_iff.1 (h.shape (shape_eq_link_iff.2 hl))⟩

/-- Something of one shape is put where nothing was or something of this shape. -/
theorem put (hne : place ≠ []) {entry : Entry}
    (h : disk.at? place = none ∨ disk.shape place = some entry.blank) :
    Lasts disk (disk.put place entry) where
  cwd := rfl
  shape {l e} hs := by
    by_cases hl : l = place
    · subst hl
      rw [shape_put disk hne]
      rcases h with h | h
      · rw [Disk.shape, h] at hs
        cases hs
      · exact h.symm.trans hs
    · rwa [shape_put_of_ne disk hl]

end Lasts

/-! ## Directories that are made -/

/-- A disk on which, since `before`, only directories were made where nothing was. -/
structure Raised (before disk : Disk) : Prop where
  cwd : disk.cwd = before.cwd
  made (place : Location) : disk.at? place = before.at? place ∨
    before.at? place = none ∧ disk.at? place = some .directory

theorem Raised.lasts {before : Disk} (h : Raised before disk) : Lasts before disk where
  cwd := h.cwd
  shape {l e} hs := by
    rcases h.made l with hl | ⟨hl, -⟩
    · rwa [shape, hl]
    · rw [shape, hl] at hs
      cases hs

theorem ensureDirectory_raises (disk : Disk) (p : Path) :
    Raised disk ((ensureDirectory p).run.run disk).2 := by
  refine ensureAll_preserves (P := Raised disk) (fun q _ d d' hd hm => ?_) ⟨rfl, fun _ => .inl rfl⟩
  obtain ⟨place, hne, hfree, rfl, -, -⟩ := reaches_of_makeDirectory hm
  refine ⟨hd.cwd, fun l => ?_⟩
  by_cases hl : l = place
  · subst hl
    exact .inr ⟨(hd.made l).elim (fun h => h ▸ hfree) And.left, at?_put d hne _⟩
  · rw [at?_put_of_ne d hl]
    exact hd.made l

/-- A directory that was made is there as long as everything lasts. -/
theorem ensureDirectory_of_lasts (hrun : (ensureDirectory p).run.run disk = (.ok (), disk'))
    (h : Lasts disk' later) : (ensureDirectory p).run.run later = (.ok (), later) := by
  by_cases hc : p.components = []
  · rw [ensureDirectory, Path.withAncestors, if_pos hc]
    rfl
  · obtain ⟨place, hr⟩ := resolve_of_isDirectory (isDirectory_of_ensureDirectory hrun hc)
    have hlater := (reaches_of_resolve hr).mono h.cwd h.persists
    exact ensureDirectory_of_isDirectory
      (isDirectory_above hlater ⟨List.prefix_rfl, rfl⟩ (noFault_of_resolve hr))

/-! ## Files that are written -/

/-- Where a walk ended at a free name or a file, it ends when a file is there. -/
theorem walk_of_file {found : Place} {bytes : ByteArray} {modified : Nat} (hd : Persists disk disk')
    (hne : ∀ l, found ≠ .held l .directory)
    (hv : disk'.at? found.location = some (.file bytes modified))
    (h : walkFrom disk true n here segments = .ok found) :
    walkFrom disk' true n here segments = .ok (.held found.location (.file bytes modified)) := by
  replace h := walks_of_walkFrom h
  refine Walks.walk_eq ?_
  induction h with
  | done => exact absurd rfl (hne _)
  | idle h tail ih => exact .idle h (ih hne hv)
  | up tail ih => exact .up (ih hne hv)
  | enter h found tail ih => exact .enter h ((hd _).1 found) (ih hne hv)
  | free h found => exact .file h hv
  | file h found => exact .file h hv
  | link h found stays => cases stays
  | jump h found goes tail ih => exact .jump h ((hd _).2 _ found) goes (ih hne hv)

theorem nameOf_of_persists (hd : Persists disk disk') (hc : disk'.cwd = disk.cwd)
    {found : Option Location × Bool} (h : disk.nameOf p = .ok found) :
    disk'.nameOf p = .ok found := by
  have hf := noFault_of_nameOf h
  rw [nameOf_of_noFault hf] at h ⊢
  split at h
  · exact h
  · obtain ⟨_, hw, -⟩ := Except.bind_eq_ok_iff.1 h
    obtain ⟨here, rfl⟩ := directory_of_dot hw
    obtain ⟨m, hm⟩ := leads_of_walkFrom hw
    rw [← hc] at hm
    rw [lastName_of_walk hw] at h
    rwa [lastName_of_walk (hm.mono hd).walk_eq]

/-- What can be written to names a location in a directory, and leads to the place that is written,
where no directory is. -/
theorem resolve_of_writable (hw : disk.writable p = .ok place) :
    (∃ named, disk.nameOf p = .ok (some named, false)) ∧ ∃ found, disk.resolve true p = .ok found ∧
      found.location = place ∧ ∀ l, found ≠ .held l .directory := by
  obtain ⟨⟨named, slash⟩, hn, hw⟩ := Except.bind_eq_ok_iff.1 hw
  cases named with
  | none => cases hw
  | some named =>
    cases slash with
    | true => cases hw
    | false =>
      obtain ⟨found, hr, hw⟩ := Except.bind_eq_ok_iff.1 hw
      refine ⟨⟨named, hn⟩, found, hr, ?_⟩
      rcases found with ⟨l, _ | _ | _⟩ | l
      · cases hw
      · cases hw
        exact ⟨rfl, by simp⟩
      · cases hw
        exact ⟨rfl, by simp⟩
      · cases hw
        exact ⟨rfl, by simp⟩

/-- What can be written to leads to a file as soon as one is there. -/
theorem resolve_of_lasts (hw : disk.writable p = .ok place) (h : Lasts disk disk')
    {bytes : ByteArray} {modified : Nat} (hv : disk'.at? place = some (.file bytes modified)) :
    disk'.resolve true p = .ok (.held place (.file bytes modified)) := by
  obtain ⟨-, found, hr, rfl, hne⟩ := resolve_of_writable hw
  have hf := noFault_of_resolve hr
  rw [resolve_of_noFault hf] at hr ⊢
  rw [← h.cwd] at hr
  exact walk_of_file h.persists hne hv hr

/-- What can be written to can be written to where a file is afterwards. -/
theorem writable_of_lasts (hw : disk.writable p = .ok place) (h : Lasts disk disk')
    (hfile : disk'.shape place = some (.file .empty 0)) : disk'.writable p = .ok place := by
  obtain ⟨bytes, modified, hv⟩ := shape_eq_file_iff.1 hfile
  obtain ⟨⟨named, hn⟩, -⟩ := resolve_of_writable hw
  rw [writable, nameOf_of_persists h.persists h.cwd hn]
  show (disk'.resolve true p >>= _) = _
  rw [resolve_of_lasts hw h hv]
  rfl

end Disk

end StaticSite
