import StaticSite.Proofs.Disk.Settled
import StaticSite.Proofs.Sorting

/-!
# Sources

What a build reads does not depend on what it writes. A path is readable beyond a location if it
leads to the same place whatever is at and below that location (`IsReadable`). It is a source if,
besides, there are no links in what it leads to and the location is not in there either
(`IsSource`). Listing a source gives names and no links, and what is listed is readable
(`IsSource.mem_listed`).
-/

namespace StaticSite.Disk

variable {disk disk' : Disk} {outer place : Location} {p : Path}

/-- Two disks that hold the same except at and below a location. -/
def AgreeBeyond (outer : Location) (disk disk' : Disk) : Prop :=
  disk'.cwd = disk.cwd ∧ ∀ place, ¬ outer <+: place → disk'.at? place = disk.at? place

theorem AgreeBeyond.refl (outer : Location) (disk : Disk) : AgreeBeyond outer disk disk :=
  ⟨rfl, fun _ _ => rfl⟩

theorem SameBeyond.agreeBeyond (h : SameBeyond outer disk disk') : AgreeBeyond outer disk disk' :=
  ⟨h.cwd, fun _ hp => h.at?_eq hp⟩

theorem Settled.agreeBeyond (h : Settled disk outer disk') : AgreeBeyond outer disk disk' :=
  h.sameBeyond.agreeBeyond

/-- A path leads to the same place, beyond a location, whatever is at and below that location. -/
structure IsReadable (disk : Disk) (outer : Location) (p : Path) : Prop where
  same {disk' : Disk} : AgreeBeyond outer disk disk' → disk'.resolve true p = disk.resolve true p
  apart {place : Location} {entry : Entry} :
    disk.resolve true p = .ok (.held place entry) → ¬ outer <+: place

/-- A readable path that is no link and leads to nothing with links or with the location in it. -/
structure IsSource (disk : Disk) (outer : Location) (p : Path) : Prop extends
    IsReadable disk outer p where
  noLink {disk' : Disk} : AgreeBeyond outer disk disk' → disk'.resolve false p = disk.resolve true p
  above {place : Location} {entry : Entry} :
    disk.resolve true p = .ok (.held place entry) → ¬ place <+: outer
  noLinks {place : Location} {entry : Entry} :
    disk.resolve true p = .ok (.held place entry) → disk.HasNoLinks place

theorem entry_congr (h : disk'.resolve true p = disk.resolve true p) :
    disk'.entry p = disk.entry p := by
  unfold entry
  rw [h]

theorem isDirectory_congr (h : disk'.resolve true p = disk.resolve true p) :
    disk'.isDirectory p = disk.isDirectory p := by
  unfold isDirectory
  rw [entry_congr h]

theorem isFile_congr (h : disk'.resolve true p = disk.resolve true p) :
    disk'.isFile p = disk.isFile p := by
  unfold isFile
  rw [entry_congr h]

theorem readText_congr (h : disk'.resolve true p = disk.resolve true p) :
    disk'.readText p = disk.readText p := by
  unfold readText
  rw [entry_congr h]

/-! ## Listing -/

theorem relativeTo?_eq_some_iff {base place relative : Location} :
    relativeTo? base place = some relative ↔ place = base ++ relative := by
  induction base generalizing place with
  | nil => exact ⟨fun h => Option.some.inj h, fun h => congrArg some h⟩
  | cons a base ih =>
    cases place with
    | nil => simp [relativeTo?]
    | cons b place =>
      rw [relativeTo?, List.cons_append, List.cons.injEq]
      by_cases hab : a = b
      · rw [if_pos hab, ih]
        exact ⟨fun h => ⟨hab.symm, h⟩, fun h => h.2⟩
      · rw [if_neg hab]
        simp [Ne.symm hab]

/-- What is below a location apart from another one lies beyond the other one. -/
theorem not_prefix_append (ho : ¬ outer <+: place) (hp : ¬ place <+: outer) (relative : Location) :
    ¬ outer <+: place ++ relative := by
  intro h
  rcases List.prefix_or_prefix_of_prefix h (List.prefix_append place relative) with h | h
  · exact ho h
  · exact hp h

theorem entryBelow?_eq_some_iff {base relative : Location} {e : Location × Entry} {entry : Entry} :
    entryBelow? base e = some (relative, entry) ↔
    e = (base ++ relative, entry) ∧ relative ≠ [] := by
  obtain ⟨l, v⟩ := e
  rw [entryBelow?, Prod.mk.injEq, ← relativeTo?_eq_some_iff]
  rcases relativeTo? base l with _ | _ | ⟨n, rest⟩
  · simp
  · simp only [Option.some.injEq]
    constructor
    · intro h
      cases h
    · rintro ⟨⟨rfl, -⟩, hne⟩
      exact absurd rfl hne
  · simp only [Option.some.injEq, Prod.mk.injEq]
    constructor
    · rintro ⟨rfl, rfl⟩
      exact ⟨⟨rfl, rfl⟩, by simp⟩
    · exact fun h => h.1

theorem SameBeyond.below_eq (h : SameBeyond outer disk disk') (ho : ¬ outer <+: place)
    (hp : ¬ place <+: outer) : disk'.below place = disk.below place := by
  have key (d : Disk) : (d.entriesBeyond outer).filterMap (entryBelow? place) =
      d.entries.filterMap (entryBelow? place) := by
    unfold entriesBeyond
    rw [List.filterMap_filter]
    refine List.filterMap_congr fun e _ => ?_
    split
    · rfl
    · rename_i hbeyond
      have hin : outer <+: e.1 := by simpa [isPrefixOf_iff] using hbeyond
      cases he : entryBelow? place e with
      | none => rfl
      | some found =>
        obtain ⟨rfl, -⟩ := entryBelow?_eq_some_iff.1 he
        exact absurd hin (not_prefix_append ho hp _)
  unfold below
  rw [← key disk', ← key disk, h.beyond]

theorem mem_below {relative : Location} {entry : Entry} (h : (relative, entry) ∈ disk.below place) :
    (place ++ relative, entry) ∈ disk.entries := by
  unfold below at h
  obtain ⟨e, he, hr⟩ := List.mem_filterMap.1 (mem_sortBy.1 h)
  obtain ⟨rfl, -⟩ := entryBelow?_eq_some_iff.1 hr
  exact he

theorem lookup_of_nodup {α β : Type} [BEq α] [LawfulBEq α] {entries : List (α × β)}
    (h : (entries.map Prod.fst).Nodup) {key : α} {value : β} (he : (key, value) ∈ entries) :
    entries.lookup key = some value := by
  induction entries with
  | nil => cases he
  | cons e rest ih =>
    obtain ⟨l, v⟩ := e
    rw [List.map_cons, List.nodup_cons] at h
    rw [List.lookup_cons]
    rcases List.mem_cons.1 he with he | he
    · cases he
      simp
    · have hne : (key == l) = false := by
        refine beq_eq_false_iff_ne.2 fun hl => h.1 ?_
        exact hl ▸ List.mem_map.2 ⟨(key, value), he, rfl⟩
      rw [hne]
      exact ih h.2 he

theorem mem_of_at? {entry : Entry} (h : disk.at? place = some entry) (hne : place ≠ []) :
    (place, entry) ∈ disk.entries := by
  rw [at?, if_neg hne] at h
  obtain ⟨first, last, hs, -⟩ := List.lookup_eq_some_iff.1 h
  exact hs ▸ by simp

theorem WellFormed.at?_eq (h : disk.WellFormed) {entry : Entry}
    (he : (place, entry) ∈ disk.entries) :
    disk.at? place = some entry := by
  rw [at?, if_neg (h.names he).1, lookup_of_nodup h.nodup he]

theorem IsSource.listed_eq (hs : IsSource disk outer p) (h : SameBeyond outer disk disk') :
    disk'.listed p = disk.listed p := by
  unfold listed
  rw [hs.noLink h.agreeBeyond, hs.noLink (.refl outer disk), hs.same h.agreeBeyond]
  cases hr : disk.resolve true p with
  | error cause => rfl
  | ok found =>
    cases found with
    | free => rfl
    | held l entry =>
      have hb := h.below_eq (hs.apart hr) (hs.above hr)
      cases entry with
      | file => rfl
      | directory =>
        show Except.ok _ = Except.ok _
        rw [hb]
      | link =>
        show Except.ok _ = Except.ok _
        rfl

theorem reaches_of_resolve {follow : Bool}
    (h : disk.resolve follow p = .ok (.held place .directory)) :
    Reaches disk p place := by
  rw [resolve_of_noFault (noFault_of_resolve h)] at h
  exact leads_of_walkFrom h

theorem isAbsolute_pathBelow (p : Path) {names : List String} (h : ∀ n ∈ names, Path.IsName n) :
    (pathBelow p names).isAbsolute = p.isAbsolute := by
  induction names generalizing p with
  | nil => rfl
  | cons n rest ih =>
    exact (ih (p.join n) fun m hm => h m (List.mem_cons_of_mem n hm)).trans
      (Path.isAbsolute_join p (h n List.mem_cons_self).isStep.isRelative)

theorem steps_pathBelow (p : Path) {names : List String} (h : ∀ n ∈ names, Path.IsName n) :
    (pathBelow p names).steps = p.steps ++ names := by
  induction names generalizing p with
  | nil => exact (List.append_nil _).symm
  | cons n rest ih =>
    have hn := (h n List.mem_cons_self).isStep
    have hs := ih (p.join n) fun m hm => h m (List.mem_cons_of_mem n hm)
    rwa [Path.steps_join p hn.isRelative, hn.steps, List.append_assoc] at hs

theorem continues_pathBelow (p : Path) {names : List String} (h : ∀ n ∈ names, Path.IsName n) :
    Continues p (pathBelow p names) names :=
  ⟨isAbsolute_pathBelow p h, names, steps_pathBelow p h,
    Path.descend_of_noClimb [] (fun n hn => (h n hn).isStep) fun hup => (h ".." hup).2.2.1 rfl⟩

theorem IsSource.twins (hs : IsSource disk outer p)
    (hr : disk.resolve true p = .ok (.held place .directory)) (hd : AgreeBeyond outer disk disk') :
    Twins p place disk disk' := by
  refine ⟨reaches_of_resolve hr, reaches_of_resolve ((hs.same hd).trans hr), hs.noLinks hr, ?_⟩
  rintro l ⟨rest, rfl⟩
  exact (hd.2 _ (not_prefix_append (hs.apart hr) (hs.above hr) rest)).symm

/-- What is below a source lies where the names say. -/
theorem IsSource.location_below (hs : IsSource disk outer p)
    (hr : disk.resolve true p = .ok (.held place .directory)) {names : List String}
    (h : ∀ n ∈ names, Path.IsName n) {found : Place}
    (hf : disk.resolve true (pathBelow p names) = .ok found) : found.location = place ++ names := by
  have hland := (resolve_below (hs.twins hr (.refl outer disk)) (continues_pathBelow p h)).2
  rwa [hf] at hland

/-- What is below a source is readable. -/
theorem IsSource.isReadable_below (hs : IsSource disk outer p)
    (hr : disk.resolve true p = .ok (.held place .directory)) {names : List String}
    (h : ∀ n ∈ names, Path.IsName n) : IsReadable disk outer (pathBelow p names) where
  same hd := (resolve_below (hs.twins hr hd) (continues_pathBelow p h)).1.symm
  apart {l _} hl := by
    obtain rfl : l = place ++ names := hs.location_below hr h hl
    exact not_prefix_append (hs.apart hr) (hs.above hr) names

/-- What is listed below a source has names, is no link and is readable. -/
theorem IsSource.mem_listed (hs : IsSource disk outer p) (hw : disk.WellFormed)
    {entries : List (Location × Entry)} {relative : Location} {entry : Entry}
    (hl : disk.listed p = .ok entries) (he : (relative, entry) ∈ entries) :
    (∀ n ∈ relative, Path.IsName n) ∧ (∀ target, entry ≠ .link target) ∧
      IsReadable disk outer (pathBelow p relative) := by
  have nothing : (∀ n ∈ ([] : Location), Path.IsName n) := fun _ hn => by cases hn
  unfold listed at hl
  rw [hs.noLink (.refl outer disk)] at hl
  obtain ⟨found, hr, hl⟩ := Except.bind_eq_ok_iff.1 hl
  cases found with
  | free => cases hl
  | held place entry =>
    cases entry with
    | file bytes modified =>
      cases hl
      cases List.mem_singleton.1 he
      exact ⟨nothing, by simp, hs.toIsReadable⟩
    | link target =>
      have hthere : disk.at? place = some (.link target) := isThere_of_resolve hr
      exact absurd hthere (hs.noLinks hr place List.prefix_rfl target)
    | directory =>
      cases hl
      rcases List.mem_cons.1 he with he | he
      · cases he
        exact ⟨nothing, by simp, hs.toIsReadable⟩
      · have hmem := mem_below he
        have hnames : ∀ n ∈ relative, Path.IsName n :=
          fun n hn => (hw.names hmem).2 n (List.mem_append_right place hn)
        refine ⟨hnames, ?_, hs.isReadable_below hr hnames⟩
        rintro target rfl
        exact hs.noLinks hr _ (List.prefix_append place relative) target (hw.at?_eq hmem)

/-! ## Paths without climbs and links -/

/-- Segments that do not climb lead, past no links, where they say, and depend only on what is on
the way. -/
theorem walkFrom_plain {segments : List String} (here : Location) (follow follow' : Bool)
    (n n' : Nat) (hup : ".." ∉ segments) (h : ∀ way, way <+: segments.filter (!Path.isIdle ·) →
      disk'.at? (here ++ way) = disk.at? (here ++ way) ∧
        ∀ target, disk.at? (here ++ way) ≠ some (.link target)) :
    walkFrom disk' follow' n' here segments = walkFrom disk follow n here segments ∧
      LandsAt (here ++ segments.filter (!Path.isIdle ·))
        (walkFrom disk follow n here segments) := by
  rw [← Path.landing_eq_append here hup]
  refine walkFrom_passing fun way hw => ?_
  rw [Path.landing_eq_append here fun hm => hup (hw.subset hm)]
  exact h _ (hw.filter _)

/-- Whether there are no links on a disk. -/
def isLinkFree (disk : Disk) : Bool :=
  disk.entries.all fun e => match e.2 with
    | .link _ => false
    | _ => true

theorem not_link_of_isLinkFree (h : disk.isLinkFree = true) (place : Location) (target : String) :
    disk.at? place ≠ some (.link target) := by
  intro hl
  have hne : place ≠ [] := by
    rintro rfl
    cases hl
  cases List.all_eq_true.1 h _ (mem_of_at? hl hne)

/-- A path is a way to a location if its steps do not climb and meet no link. -/
structure IsWay (disk : Disk) (p : Path) (place : Location) : Prop where
  noClimb : ".." ∉ p.segments
  place_eq : startOf disk.cwd p ++ p.steps = place
  noLinks (way : Location) (target : String) : way <+: place → disk.at? way ≠ some (.link target)

theorem IsWay.resolve (h : IsWay disk p place) (ho : ¬ outer <+: place) {disk' : Disk}
    (hd : AgreeBeyond outer disk disk') (follow follow' : Bool) :
    disk'.resolve follow' p = disk.resolve follow p ∧ LandsAt place (disk.resolve follow p) := by
  cases hf : faultOf p with
  | some cause =>
    rw [resolve_of_fault hf, resolve_of_fault hf]
    exact ⟨rfl, trivial⟩
  | none =>
    rw [resolve_of_noFault hf, resolve_of_noFault hf, hd.1, ← h.place_eq]
    refine walkFrom_plain _ _ _ _ _ h.noClimb fun way hw => ?_
    have hway : startOf disk.cwd p ++ way <+: place := by
      rw [← h.place_eq]
      exact (List.prefix_append_right_inj _).2 hw
    exact ⟨hd.2 _ fun hp => ho (hp.trans hway), fun target => h.noLinks _ target hway⟩

theorem IsWay.place_eq_of_held (h : IsWay disk p place) (ho : ¬ outer <+: place) {found : Location}
    {entry : Entry} (hr : disk.resolve true p = .ok (.held found entry)) : found = place := by
  have hlands := (h.resolve ho (.refl outer disk) true true).2
  rwa [hr] at hlands

theorem IsWay.isReadable (h : IsWay disk p place) (ho : ¬ outer <+: place) :
    IsReadable disk outer p where
  same hd := (h.resolve ho hd true true).1
  apart hr := h.place_eq_of_held ho hr ▸ ho

end StaticSite.Disk
