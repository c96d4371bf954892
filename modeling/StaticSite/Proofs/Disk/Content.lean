import Mathlib.Data.List.Nodup
import StaticSite.Proofs.Disk.Simulation
import StaticSite.Proofs.Disk.Source

/-!
# Disks with the same content

Disks that hold the same at each location are the same to every task, however their entries are
kept: paths lead to the same places, directories are listed alike, and calls leave disks with the
same content (`SameContent.simulation`).
-/

namespace StaticSite.Disk

variable {d d' : Disk} {place : Location} {p : Path}

/-! ## Listing -/

theorem precedes_antisymm {x y : Location} (hx : precedes x y = true) (hy : precedes y x = true) :
    x = y := by
  induction x generalizing y with
  | nil =>
    cases y with
    | nil => rfl
    | cons => cases hy
  | cons a x ih =>
    cases y with
    | nil => cases hx
    | cons b y =>
      rw [precedes] at hx hy
      by_cases hab : a = b
      · rw [if_pos hab] at hx
        rw [if_pos hab.symm] at hy
        rw [hab, ih hx hy]
      · rw [if_neg hab, decide_eq_true_eq] at hx
        rw [if_neg (Ne.symm hab), decide_eq_true_eq] at hy
        exact absurd hy (String.lt_asymm hx)

theorem precedes_of_above {x y : Location} (h : x <+: y) : precedes x y = true := by
  induction x generalizing y with
  | nil => rfl
  | cons a x ih =>
    obtain ⟨rest, rfl⟩ := h
    rw [List.cons_append, precedes, if_pos rfl]
    exact ih (List.prefix_append x rest)

theorem precedes_trans {x y z : Location} (hxy : precedes x y = true) (hyz : precedes y z = true) :
    precedes x z = true := by
  induction x generalizing y z with
  | nil => cases z <;> rfl
  | cons a x ih =>
    cases y with
    | nil => cases hxy
    | cons b y =>
      cases z with
      | nil => cases hyz
      | cons c z =>
        rw [precedes] at hxy hyz ⊢
        by_cases hab : a = b
        · subst hab
          rw [if_pos rfl] at hxy
          by_cases hac : a = c
          · rw [if_pos hac] at hyz ⊢
            exact ih hxy hyz
          · rwa [if_neg hac] at hyz ⊢
        · rw [if_neg hab, decide_eq_true_eq] at hxy
          by_cases hbc : b = c
          · subst hbc
            rwa [if_neg hab, decide_eq_true_eq]
          · rw [if_neg hbc, decide_eq_true_eq] at hyz
            have hac := String.lt_trans hxy hyz
            have hne : a ≠ c := fun he => String.lt_irrefl c (he ▸ hac)
            rwa [if_neg hne, decide_eq_true_eq]

theorem precedes_total (x y : Location) : (precedes x y || precedes y x) = true := by
  induction x generalizing y with
  | nil => cases y <;> rfl
  | cons a x ih =>
    cases y with
    | nil => rfl
    | cons b y =>
      rw [precedes, precedes]
      by_cases hab : a = b
      · rw [if_pos hab, if_pos hab.symm]
        exact ih y
      · rw [if_neg hab, if_neg (Ne.symm hab), Bool.or_eq_true, decide_eq_true_eq, decide_eq_true_eq]
        by_contra hlt
        rw [not_or] at hlt
        exact hab (String.le_antisymm (String.not_lt.1 hlt.2) (String.not_lt.1 hlt.1))

/-- The locations of the entries, of which each has one and none is the root. -/
structure Keyed (d : Disk) : Prop where
  nodup : (d.entries.map Prod.fst).Nodup
  notRoot : [] ∉ d.entries.map Prod.fst

theorem WellFormed.keyed (h : d.WellFormed) : d.Keyed where
  nodup := h.nodup
  notRoot hm := by
    obtain ⟨⟨_, entry⟩, he, rfl⟩ := List.mem_map.1 hm
    exact (h.names he).1 rfl

theorem Keyed.at?_eq (h : d.Keyed) {entry : Entry} (he : (place, entry) ∈ d.entries) :
    d.at? place = some entry := by
  have hne : place ≠ [] := fun hp => h.notRoot (List.mem_map.2 ⟨_, he, hp⟩)
  rw [at?, if_neg hne, lookup_of_nodup h.nodup he]

theorem Keyed.mem_below_iff {base names : Location} {entry : Entry} (h : d.Keyed) :
    (names, entry) ∈ d.below base ↔ names ≠ [] ∧ d.at? (base ++ names) = some entry := by
  constructor
  · intro hm
    refine ⟨?_, h.at?_eq (mem_below hm)⟩
    unfold below at hm
    obtain ⟨e, -, hr⟩ := List.mem_filterMap.1 (mem_sortBy.1 hm)
    exact (entryBelow?_eq_some_iff.1 hr).2
  · rintro ⟨hne, hat⟩
    unfold below
    refine mem_sortBy.2
      (List.mem_filterMap.2 ⟨_, mem_of_at? hat ?_, entryBelow?_eq_some_iff.2 ⟨rfl, hne⟩⟩)
    exact fun he => hne (List.append_eq_nil_iff.1 he).2

theorem mem_below_iff {base names : Location} {entry : Entry} (hw : d.WellFormed) :
    (names, entry) ∈ d.below base ↔ names ≠ [] ∧ d.at? (base ++ names) = some entry :=
  hw.keyed.mem_below_iff

theorem sorted_below (d : Disk) (base : Location) :
    (d.below base).Pairwise fun a b => precedes a.1 b.1 = true :=
  @pairwise_sortBy (Location × Entry) (fun a b => precedes a.1 b.1) precedes_trans
    (fun a b => precedes_total a.1 b.1) _

/-- What is below a directory is listed in order, each location once. -/
theorem Keyed.pairwise_below (h : d.Keyed) (base : Location) :
    (d.below base).Pairwise fun a b => precedes a.1 b.1 = true ∧ a.1 ≠ b.1 := by
  have once : (d.entries.filterMap (entryBelow? base)).Pairwise fun a b => a.1 ≠ b.1 := by
    refine List.Pairwise.filterMap _ (fun a b hab x hx y hy he => hab ?_)
      (List.pairwise_map.1 h.nodup)
    obtain ⟨rfl, -⟩ := entryBelow?_eq_some_iff.1 hx
    obtain ⟨rfl, -⟩ := entryBelow?_eq_some_iff.1 hy
    rw [he]
  exact (sorted_below d base).and (((perm_sortBy _ _).pairwise_iff Ne.symm).2 once)

theorem pairwise_below (hw : d.WellFormed) (base : Location) :
    (d.below base).Pairwise fun a b => precedes a.1 b.1 = true ∧ a.1 ≠ b.1 :=
  hw.keyed.pairwise_below base

/-- What is listed depends on what is at each location, not on how it is kept. -/
theorem below_congr (h : d.Keyed) (h' : d'.Keyed) {base : Location}
    (hat : ∀ names, d.at? (base ++ names) = d'.at? (base ++ names)) :
    d.below base = d'.below base := by
  have once {e : Disk} (he : e.Keyed) : (e.below base).Nodup :=
    (he.pairwise_below base).imp fun hab heq => hab.2 (congrArg Prod.fst heq)
  have hmem (e : Location × Entry) : e ∈ d.below base ↔ e ∈ d'.below base := by
    obtain ⟨names, entry⟩ := e
    rw [h.mem_below_iff, h'.mem_below_iff, hat]
  refine List.Perm.eq_of_pairwise (fun a b ha hb hle hle' => ?_) (sorted_below d base)
    (sorted_below d' base)
    ((List.perm_ext_iff_of_nodup (once h) (once h')).2 hmem)
  -- one relative location is listed once, with what is there
  obtain ⟨names, entry⟩ := a
  obtain ⟨names', entry'⟩ := b
  obtain rfl : names = names' := precedes_antisymm hle hle'
  rw [Option.some.inj ((h.mem_below_iff.1 ha).2.symm.trans (h.mem_below_iff.1 ((hmem _).2 hb)).2)]

/-! ## Places that are put and removed -/

theorem mem_keys_of_filter {f : Location × Entry → Bool}
    (h : place ∈ (d.entries.filter f).map Prod.fst) : place ∈ d.entries.map Prod.fst := by
  obtain ⟨e, he, hp⟩ := List.mem_map.1 h
  exact List.mem_map.2 ⟨e, (List.mem_filter.1 he).1, hp⟩

theorem Keyed.put (h : d.Keyed) (hne : place ≠ []) (entry : Entry) : (d.put place entry).Keyed where
  nodup := nodup_put h.nodup place entry
  notRoot hm := by
    rcases List.mem_cons.1 hm with hm | hm
    · exact hne hm.symm
    · exact h.notRoot (mem_keys_of_filter hm)

theorem Keyed.remove (h : d.Keyed) (place : Location) : (d.remove place).Keyed where
  nodup := nodup_filter h.nodup _
  notRoot hm := h.notRoot (mem_keys_of_filter hm)

/-! ## Places that are written -/

theorem ne_root_of_at? (h : d.at? place ≠ some .directory) : place ≠ [] :=
  fun he => h (by rw [he, at?_root])

/-- A file is written where nothing is or a file. -/
theorem at?_of_writable (hw : d.writable p = .ok place) :
    d.at? place = none ∨ ∃ bytes modified, d.at? place = some (.file bytes modified) := by
  obtain ⟨⟨_ | named, _ | _⟩, -, hw⟩ := Except.bind_eq_ok_iff.1 hw
  · cases hw
  · cases hw
  · obtain ⟨found, hr, hw⟩ := Except.bind_eq_ok_iff.1 hw
    have hthere := isThere_of_resolve hr
    cases found with
    | free l =>
      cases hw
      exact .inl hthere
    | held l entry =>
      cases entry with
      | directory => cases hw
      | file bytes modified =>
        cases hw
        exact .inr ⟨bytes, modified, hthere⟩
      | link target =>
        rw [resolve_of_noFault (noFault_of_resolve hr)] at hr
        exact absurd rfl (ne_link_of_walkFrom hr)
  · cases hw

theorem ne_root_of_writable (hw : d.writable p = .ok place) : place ≠ [] := by
  refine ne_root_of_at? (d := d) ?_
  rcases at?_of_writable hw with hat | ⟨_, _, hat⟩
  · simp [hat]
  · simp [hat]

/-! ## The same content -/

/-- Two disks that hold the same at each location. -/
structure SameContent (d d' : Disk) : Prop where
  at?_eq (place : Location) : d.at? place = d'.at? place
  cwd : d.cwd = d'.cwd
  now : d.now = d'.now
  keyed : d.Keyed
  keyed' : d'.Keyed

theorem walkNames_congr (h : ∀ place, d.at? place = d'.at? place) {follow : Bool}
    {jump jump' : Location → List String → Except IoError Place}
    (hj : ∀ here segments, jump here segments = jump' here segments) (here : Location)
    (segments : List String) :
    walkNames d follow jump here segments = walkNames d' follow jump' here segments := by
  induction segments generalizing here with
  | nil => rfl
  | cons s rest ih => simp only [walkNames, h, ih, hj]

theorem walkFrom_congr (h : ∀ place, d.at? place = d'.at? place) (follow : Bool) (n : Nat)
    (here : Location) (segments : List String) :
    walkFrom d follow n here segments = walkFrom d' follow n here segments := by
  induction n generalizing here segments with
  | zero => exact walkNames_congr h (fun _ _ => rfl) here segments
  | succ n ih => exact walkNames_congr h ih here segments

namespace SameContent

theorem resolve_eq (h : SameContent d d') (follow : Bool) (p : Path) :
    d.resolve follow p = d'.resolve follow p := by
  unfold resolve
  rw [h.cwd, walkFrom_congr h.at?_eq]

theorem nameOf_eq (h : SameContent d d') (p : Path) : d.nameOf p = d'.nameOf p := by
  unfold nameOf
  rw [h.cwd]
  simp only [walkFrom_congr h.at?_eq]

theorem writable_eq (h : SameContent d d') (p : Path) : d.writable p = d'.writable p := by
  unfold writable
  rw [h.nameOf_eq, h.resolve_eq]

/-! ### Entries -/

theorem trans {e : Disk} (h : SameContent d d') (h' : SameContent d' e) : SameContent d e :=
  ⟨fun place => (h.at?_eq place).trans (h'.at?_eq place), h.cwd.trans h'.cwd, h.now.trans h'.now,
    h.keyed, h'.keyed'⟩

theorem below_eq (h : SameContent d d') (base : Location) : d.below base = d'.below base :=
  below_congr h.keyed h.keyed' fun _ => h.at?_eq _

theorem listed_eq (h : SameContent d d') (p : Path) : d.listed p = d'.listed p := by
  unfold listed
  simp only [h.resolve_eq, h.below_eq]

/-! ### Calls -/

theorem put (h : SameContent d d') (hne : place ≠ []) (entry : Entry) :
    SameContent (d.put place entry) (d'.put place entry) where
  at?_eq l := by
    by_cases hl : l = place
    · rw [hl, at?_put d hne, at?_put d' hne]
    · rw [at?_put_of_ne d hl, at?_put_of_ne d' hl, h.at?_eq]
  cwd := h.cwd
  now := h.now
  keyed := h.keyed.put hne entry
  keyed' := h.keyed'.put hne entry

theorem remove (h : SameContent d d') (hne : place ≠ []) :
    SameContent (d.remove place) (d'.remove place) where
  at?_eq l := by
    by_cases hl : l = place
    · rw [hl, at?_remove d hne, at?_remove d' hne]
    · rw [at?_remove_of_ne d hl, at?_remove_of_ne d' hl, h.at?_eq]
  cwd := h.cwd
  now := h.now
  keyed := h.keyed.remove place
  keyed' := h.keyed'.remove place

theorem makeDirectory (h : SameContent d d') (p : Path) :
    Matches SameContent (d.makeDirectory p) (d'.makeDirectory p) := by
  unfold Disk.makeDirectory
  rw [← h.nameOf_eq]
  cases d.nameOf p with
  | error cause => exact rfl
  | ok found =>
    obtain ⟨_ | place, slash⟩ := found
    · exact rfl
    · dsimp only [Bind.bind, Except.bind]
      rw [← h.at?_eq]
      split
      · exact rfl
      · rename_i hfree
        exact h.put (ne_root_of_at? fun hd => hfree (by rw [hd]; rfl)) _

theorem writeBytes (h : SameContent d d') (p : Path) (bytes : ByteArray) :
    Matches SameContent (d.writeBytes p bytes) (d'.writeBytes p bytes) := by
  unfold Disk.writeBytes
  rw [← h.writable_eq, ← h.now]
  cases hw : d.writable p with
  | error cause => exact rfl
  | ok place => exact h.put (ne_root_of_writable hw) _

theorem copyBytes (h : SameContent d d') (source p : Path) :
    Matches SameContent (d.copyBytes source p) (d'.copyBytes source p) := by
  unfold Disk.copyBytes
  rw [← h.resolve_eq, ← h.writable_eq, ← h.now]
  cases d.resolve true source with
  | error cause => exact rfl
  | ok found =>
    cases found with
    | free => exact rfl
    | held origin entry =>
      cases entry with
      | directory => exact rfl
      | link => exact rfl
      | file bytes modified =>
        cases hw : d.writable p with
        | error cause => exact rfl
        | ok place =>
          dsimp only [Bind.bind, Except.bind]
          split
          · exact h.put (ne_root_of_writable hw) _
          · exact h.put (ne_root_of_writable hw) _

theorem removeFile (h : SameContent d d') (p : Path) :
    Matches SameContent (d.removeFile p) (d'.removeFile p) := by
  unfold Disk.removeFile
  rw [← h.nameOf_eq]
  cases d.nameOf p with
  | error cause => exact rfl
  | ok found =>
    obtain ⟨_ | place, slash⟩ := found
    · exact rfl
    · dsimp only [Bind.bind, Except.bind]
      rw [← h.at?_eq]
      cases hat : d.at? place with
      | none => exact rfl
      | some entry =>
        cases entry with
        | directory => exact rfl
        | file | link =>
          dsimp only
          split
          · exact rfl
          · exact h.remove (ne_root_of_at? (d := d) (by simp [hat]))

theorem makeLink (h : SameContent d d') (p : Path) (target : String) :
    Matches SameContent (d.makeLink p target) (d'.makeLink p target) := by
  unfold Disk.makeLink
  rw [← h.nameOf_eq]
  cases d.nameOf p with
  | error cause => exact rfl
  | ok found =>
    obtain ⟨_ | place, slash⟩ := found
    · exact rfl
    · dsimp only [Bind.bind, Except.bind]
      rw [← h.at?_eq]
      split
      · exact rfl
      · rename_i hfree
        split
        · exact rfl
        · exact h.put (ne_root_of_at? fun hd => hfree (by rw [hd]; rfl)) _

/-! ### Tasks -/

/-- Tasks that copy no directories. -/
def filesOnly : Simulation where
  rel := SameContent
  files _ := True
  origins _ := False
  targets _ := True
  line _ := True
  links := False
  files_of_origin _ := trivial
  line_of_target _ _ := trivial
  line_of_parent _ _ _ := trivial
  isFile h _ := isFile_congr (h.resolve_eq true _)
  readText h _ := readText_congr (h.resolve_eq true _)
  isDirectory h _ := isDirectory_congr (h.resolve_eq true _)
  listed h _ := h.listed_eq _
  makeDirectory h _ := h.makeDirectory _
  writeBytes bytes h _ := h.writeBytes _ bytes
  copyBytes h _ _ := h.copyBytes _ _
  copyLink _ h := h.elim
  listing _ h := h.elim

theorem copyLink_respects (target : String) (p : Path) :
    StaticSite.Task.Respects SameContent (copyLink target p) := by
  have link : filesOnly.Respects (Task.call id (·.makeLink p target) : Disk.Task IoError Unit) :=
    Disk.Task.respects_call (fun _ _ h => h.makeLink p target) id
  refine .get fun d d' h => ⟨?same, .ite ((Disk.Task.respects_call
    (fun _ _ h => h.removeFile p) id).bind fun _ => ?removed) ?absent⟩
  case same =>
    have hlink : d'.linkEntry p = d.linkEntry p := by
      unfold linkEntry
      rw [h.resolve_eq]
    rw [hlink]
  all_goals
    dsimp only
    split
    · exact (Simulation.ensureDirectory_respects fun _ _ => trivial).bind fun _ => link
    · exact link

/-- All tasks. -/
def simulation : Simulation :=
  { filesOnly with
    origins := fun _ => True
    links := True
    files_of_origin := fun _ => trivial
    isDirectory := fun h _ => isDirectory_congr (h.resolve_eq true _)
    listed := fun h _ => h.listed_eq _
    copyLink := fun target _ _ => copyLink_respects target _
    listing := fun _ _ _ _ => ⟨fun _ => trivial, fun _ => trivial, fun _ => trivial⟩ }

end SameContent

end StaticSite.Disk
