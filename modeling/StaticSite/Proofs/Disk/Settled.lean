import StaticSite.Disk.Copy
import StaticSite.Proofs.Disk.Reach

/-!
# Disks that changed below one directory

`Settled before base disk` says that a disk came from another one by changes at and below a
location: everything beyond is as it was, directories are still there, and there are no links below.
What lies beyond the location is as before (`Settled.at?_eq`), a disk stays settled when something
is put inside the location (`Settled.put`), and there lies what a path names that continues a path
to the location (`writable_below`).
-/

namespace StaticSite.Disk

variable {before disk disk' : Disk} {base place : Location} {root p : Path}

/-- Locations are chains of names, and each holds one entry. -/
structure WellFormed (disk : Disk) : Prop where
  cwd : ∀ n ∈ disk.cwd, Path.IsName n
  nodup : (disk.entries.map Prod.fst).Nodup
  names {place : Location} {entry : Entry} :
    (place, entry) ∈ disk.entries → place ≠ [] ∧ ∀ n ∈ place, Path.IsName n

theorem WellFormed.of_entries (hcwd : ∀ n ∈ disk.cwd, Path.IsName n)
    (hnodup : (disk.entries.map Prod.fst).Nodup)
    (hnames : ∀ e ∈ disk.entries, e.1 ≠ [] ∧ ∀ n ∈ e.1, Path.IsName n) : disk.WellFormed :=
  ⟨hcwd, hnodup, fun {place entry} he => hnames (place, entry) he⟩

theorem nodup_filter (h : (disk.entries.map Prod.fst).Nodup) (f : Location × Entry → Bool) :
    ((disk.entries.filter f).map Prod.fst).Nodup :=
  h.sublist (List.filter_sublist.map _)

theorem nodup_put (h : (disk.entries.map Prod.fst).Nodup) (place : Location) (entry : Entry) :
    ((disk.put place entry).entries.map Prod.fst).Nodup := by
  show (place :: (disk.entries.filter (·.1 != place)).map Prod.fst).Nodup
  refine List.nodup_cons.2 ⟨fun hm => ?_, nodup_filter h _⟩
  obtain ⟨e, he, rfl⟩ := List.mem_map.1 hm
  simpa using (List.mem_filter.1 he).2

/-- The entries that are neither at nor below a location. -/
def entriesBeyond (disk : Disk) (base : Location) : List (Location × Entry) :=
  disk.entries.filter fun e => !base.isPrefixOf e.1

/-- A disk that differs from `before` only at and below a location, where it has all directories
that were there and no links. -/
structure Settled (before : Disk) (base : Location) (disk : Disk) : Prop where
  cwd : disk.cwd = before.cwd
  now : disk.now = before.now
  beyond : disk.entriesBeyond base = before.entriesBeyond base
  directories {place : Location} : before.at? place = some .directory →
    disk.at? place = some .directory
  noLinks : disk.HasNoLinks base

theorem Settled.refl (h : disk.HasNoLinks base) : Settled disk base disk :=
  ⟨rfl, rfl, rfl, id, h⟩

theorem isPrefixOf_iff : base.isPrefixOf place = true ↔ base <+: place :=
  List.isPrefixOf_iff_prefix

theorem lookup_entriesBeyond (disk : Disk) (h : ¬ base <+: place) :
    (disk.entriesBeyond base).lookup place = disk.entries.lookup place := by
  unfold entriesBeyond
  induction disk.entries with
  | nil => rfl
  | cons e rest ih =>
    obtain ⟨l, v⟩ := e
    by_cases hl : base <+: l
    · have hne : (place == l) = false := by
        simpa using fun he : place = l => h (he ▸ hl)
      rw [List.filter_cons_of_neg (by simp [isPrefixOf_iff.2 hl]), List.lookup_cons, hne, ih]
    · have hf : base.isPrefixOf l = false := by
        rw [← Bool.not_eq_true, isPrefixOf_iff]
        exact hl
      rw [List.filter_cons_of_pos (by simp [hf]), List.lookup_cons,
        List.lookup_cons, ih]

/-- Two disks with the same entries neither at nor below a location. -/
structure SameBeyond (base : Location) (before disk : Disk) : Prop where
  cwd : disk.cwd = before.cwd
  beyond : disk.entriesBeyond base = before.entriesBeyond base

theorem Settled.sameBeyond (h : Settled before base disk) : SameBeyond base before disk :=
  ⟨h.cwd, h.beyond⟩

theorem SameBeyond.at?_eq (h : SameBeyond base before disk) (hp : ¬ base <+: place) :
    disk.at? place = before.at? place := by
  unfold at?
  rw [← lookup_entriesBeyond disk hp, ← lookup_entriesBeyond before hp, h.beyond]

theorem Settled.at?_eq (h : Settled before base disk) (hp : ¬ base <+: place) :
    disk.at? place = before.at? place :=
  h.sameBeyond.at?_eq hp

theorem Settled.persists (h : Settled before base disk) (hl : before.HasNoLinks base) :
    Persists before disk := by
  refine fun place => ⟨h.directories, fun target ht => ?_⟩
  by_cases hp : base <+: place
  · exact absurd ht (hl place hp target)
  · rw [h.at?_eq hp, ht]

theorem Settled.reaches (h : Settled before base disk) (hl : before.HasNoLinks base)
    {l : Location} (hr : Reaches before p l) : Reaches disk p l :=
  hr.mono h.cwd (h.persists hl)

theorem entriesBeyond_put (h : base <+: place) (disk : Disk) (entry : Entry) :
    (disk.put place entry).entriesBeyond base = disk.entriesBeyond base := by
  unfold entriesBeyond put
  rw [List.filter_cons_of_neg (by simp [isPrefixOf_iff.2 h]), List.filter_filter]
  refine List.filter_congr fun e _ => ?_
  by_cases he : base <+: e.1
  · simp [isPrefixOf_iff.2 he]
  · have : e.1 ≠ place := fun hp => he (hp ▸ h)
    simp [this]

/-- A directory is made where nothing was, a file where no directory was. -/
theorem Settled.put (h : Settled before base disk) (hp : IsInside base place) {entry : Entry}
    (hlink : ∀ target, entry ≠ .link target)
    (hdir : disk.at? place = some .directory → entry = .directory) :
    Settled before base (disk.put place entry) := by
  have hne : place ≠ [] := fun he => hp.2 (by
    have := hp.1
    rw [he] at this ⊢
    exact (List.prefix_nil.1 this).symm)
  refine ⟨h.cwd, h.now, by rw [entriesBeyond_put hp.1, h.beyond],
    fun {l} hl => ?_, fun l hl t => ?_⟩
  · by_cases he : l = place
    · subst he
      rw [at?_put disk hne, hdir (h.directories hl)]
    · rw [at?_put_of_ne disk he]
      exact h.directories hl
  · by_cases he : l = place
    · subst he
      rw [at?_put disk hne]
      exact fun hs => hlink t (Option.some.inj hs)
    · rw [at?_put_of_ne disk he]
      exact h.noLinks l hl t

/-! ## Writing -/

theorem Twins.self (hr : Reaches disk root base) (hl : disk.HasNoLinks base) :
    Twins root base disk disk :=
  ⟨hr, hr, hl, fun _ _ => rfl⟩

/-- A path on which a root lies, or which continues it. -/
def IsOnLine (root p : Path) : Prop :=
  p.IsAbove root ∨ ∃ left, Continues root p left

theorem IsOnLine.cases (h : IsOnLine root p) :
    p.IsAbove root ∨ p.steps ≠ root.steps ∧ ∃ left, Continues root p left := by
  rcases h with h | ⟨left, h⟩
  · exact .inl h
  · by_cases he : p.steps = root.steps
    · exact .inl ⟨he ▸ List.prefix_rfl, h.1⟩
    · exact .inr ⟨he, left, h⟩

theorem makeDirectory_eq_ok (h : disk.makeDirectory p = .ok disk') :
    ∃ place slash, disk.nameOf p = .ok (some place, slash) ∧ disk.at? place = none ∧
      disk' = disk.put place .directory := by
  obtain ⟨⟨found, slash⟩, hn, h⟩ := Except.bind_eq_ok_iff.1 h
  cases found with
  | none => cases h
  | some place =>
    dsimp only at h
    split at h
    · cases h
    · rename_i hs
      cases h
      exact ⟨place, slash, hn, by simpa using hs, rfl⟩

theorem removeFile_eq_ok (h : disk.removeFile p = .ok disk') :
    ∃ place, disk.nameOf p = .ok (some place, false) ∧ disk.at? place ≠ some .directory ∧
      disk' = disk.remove place := by
  obtain ⟨⟨_ | place, slash⟩, hn, h⟩ := Except.bind_eq_ok_iff.1 h
  · cases h
  · dsimp only at h
    split at h
    · cases h
    · cases h
    · rename_i hdirectory hat
      cases slash with
      | true => cases h
      | false =>
        cases h
        exact ⟨place, hn, fun hd => hdirectory (Option.some.inj (hat.symm.trans hd)), rfl⟩

theorem makeLink_eq_ok {target : String} (h : disk.makeLink p target = .ok disk') :
    ∃ place, disk.nameOf p = .ok (some place, false) ∧ disk.at? place = none ∧
      disk' = disk.put place (.link target) := by
  obtain ⟨⟨_ | place, slash⟩, hn, h⟩ := Except.bind_eq_ok_iff.1 h
  · cases h
  · dsimp only at h
    split at h
    · cases h
    · rename_i hfree
      cases slash with
      | true => cases h
      | false =>
        cases h
        exact ⟨place, hn, by simpa using hfree, rfl⟩

theorem writeBytes_eq_ok_iff {bytes : ByteArray} : disk.writeBytes p bytes = .ok disk' ↔
    ∃ place, disk.writable p = .ok place ∧ disk' = disk.put place (.file bytes disk.now) := by
  unfold writeBytes
  rw [Except.bind_eq_ok_iff]
  constructor
  · rintro ⟨place, hw, ⟨⟩⟩
    exact ⟨place, hw, rfl⟩
  · rintro ⟨place, hw, rfl⟩
    exact ⟨place, hw, rfl⟩

theorem copyBytes_eq_ok_iff {source : Path} : disk.copyBytes source p = .ok disk' ↔
    ∃ origin bytes modified place,
      disk.resolve true source = .ok (.held origin (.file bytes modified)) ∧
      disk.writable p = .ok place ∧
      disk' = disk.put place
        (if place = origin then .file .empty disk.now else .file bytes modified) := by
  unfold copyBytes
  rw [Except.bind_eq_ok_iff]
  constructor
  · rintro ⟨⟨origin, _ | ⟨bytes, modified⟩ | _⟩ | _, hr, h⟩
    · cases h
    · obtain ⟨place, hw, h⟩ := Except.bind_eq_ok_iff.1 h
      refine ⟨origin, bytes, modified, place, hr, hw, ?_⟩
      split at h <;> rename_i hp
      · cases h
        rw [if_pos hp]
      · cases h
        rw [if_neg hp]
    · cases h
    · cases h
  · rintro ⟨origin, bytes, modified, place, hr, hw, rfl⟩
    refine ⟨_, hr, Except.bind_eq_ok_iff.2 ⟨place, hw, ?_⟩⟩
    split
    · rfl
    · rfl

/-- Copying bytes writes a file where its destination may be written. -/
theorem writes_of_copyBytes {source : Path} (h : disk.copyBytes source p = .ok disk') :
    ∃ place bytes modified,
      disk.writable p = .ok place ∧ disk' = disk.put place (.file bytes modified) := by
  obtain ⟨_, _, _, place, -, hw, rfl⟩ := copyBytes_eq_ok_iff.1 h
  split
  · exact ⟨place, _, _, hw, rfl⟩
  · exact ⟨place, _, _, hw, rfl⟩

/-- What is written to lies where the names say, inside the directory, and is no directory. -/
theorem writable_below {left : List String} (hr : Reaches disk root base)
    (hl : disk.HasNoLinks base) (hp : Continues root p left) (hw : disk.writable p = .ok place) :
    place = base ++ left ∧ left ≠ [] ∧ disk.at? place ≠ some .directory := by
  by_cases hne : p.steps = root.steps
  · rw [writable_above hr ⟨hne ▸ List.prefix_rfl, hp.1⟩] at hw
    cases hw
  · obtain ⟨⟨found, slash⟩, hn, hw⟩ := Except.bind_eq_ok_iff.1 hw
    obtain ⟨-, hland⟩ := resolve_below (.self hr hl) hp
    cases found with
    | none => cases hw
    | some named =>
      cases slash with
      | true => cases hw
      | false =>
        obtain ⟨-, hleft⟩ := (nameOf_below (.self hr hl) hp hne).2 named false hn
        obtain ⟨target, ht, hw⟩ := Except.bind_eq_ok_iff.1 hw
        rw [ht] at hland
        have hthere := isThere_of_resolve ht
        cases target with
        | free l =>
          cases hw
          exact ⟨hland, hleft, fun he => by rw [hthere] at he; cases he⟩
        | held l entry =>
          cases entry with
          | directory => cases hw
          | file bytes modified =>
            cases hw
            exact ⟨hland, hleft, fun he => by rw [hthere] at he; cases he⟩
          | link target =>
            cases hw
            exact ⟨hland, hleft, fun he => by rw [hthere] at he; cases he⟩

end StaticSite.Disk
