import Mathlib.Logic.Relation
import StaticSite.Proofs.Disk.Lasting
import StaticSite.Proofs.Disk.Linkless
import StaticSite.Proofs.Disk.Open
import StaticSite.Proofs.Disk.Zone

/-!
# Traces of copying

What a task does to a disk is a chain of calls. Copying to a destination calls only on paths at and
below the destination, and on those above it to make directories (`traces_copyFile`,
`traces_copyDirectory`), through whatever links these paths lead. Where no links are copied, it
makes directories and writes files only, and where the destination leads to no links, what it
changes lies there (`confined_copyFile`, `Confined.of_writes`). Tasks that are confined to some
destinations, one after the other, are confined to all of them (`Confined.trans`).
-/

namespace StaticSite

open Relation

/-- Tasks that take some steps. -/
def Task.Logic.tracing {σ : Type} (step : σ → σ → Prop) : Task.Logic σ where
  same := Eq
  holds x := ∀ s, ReflTransGen step s (x.run.run s).2
  pure _ _ := .refl
  throw _ _ := .refl
  bind {_ _ _ x _} hx hf s := by
    have hfirst := hx s
    rw [Task.run_bind]
    generalize x.run.run s = run at hfirst ⊢
    obtain ⟨cause | a, s'⟩ := run
    · exact hfirst
    · exact hfirst.trans (hf a s')
  adapt _ hx s := hx s
  get hf s := (hf s s rfl).2 s

namespace Disk

variable {disk mid disk' : Disk} {source dest p : Path} {base place : Location} {left : List String}

/-! ## Calls -/

/-- A directory is made on the line of a path, or a file is written at or below it. -/
inductive WritesOn (dest : Path) (disk : Disk) : Disk → Prop
  | makeDirectory {p : Path} {disk' : Disk} (hp : IsOnLine dest p)
      (h : disk.makeDirectory p = .ok disk') :
      WritesOn dest disk disk'
  | writeFile {p : Path} {left : List String} {place : Location} (hp : Continues dest p left)
      (h : disk.writable p = .ok place) (bytes : ByteArray) (modified : Nat) :
      WritesOn dest disk (disk.put place (.file bytes modified))

/-- Something is written on the line of a path, or what is at or below it is removed or made a
link. -/
inductive CallsOn (dest : Path) (disk disk' : Disk) : Prop
  | write (h : WritesOn dest disk disk')
  | remove {p : Path} {left : List String} (hp : Continues dest p left)
      (h : disk.removeFile p = .ok disk')
  | link {p : Path} {left : List String} {target : String} (hp : Continues dest p left)
      (h : disk.makeLink p target = .ok disk')

/-- The calls on a path, with links or without. -/
def Scope.on (dest : Path) (links : Prop) : Scope where
  files _ := True
  origins _ := False
  targets p := ∃ left, Continues dest p left
  line := IsOnLine dest
  links
  files_of_origin _ := trivial
  line_of_target := fun ⟨_, hc⟩ hq => hc.isOnLine (Path.isAbove_of_mem_withAncestors hq)
  line_of_parent := fun ⟨_, hc⟩ hp hq =>
    hc.isOnLine ((Path.isAbove_of_mem_withAncestors hq).trans (Path.isAbove_of_parent hp))

section Logic

variable {step : Disk → Disk → Prop} {links : Prop}

/-- A task that takes some steps wherever it starts. -/
def Traces {ε α : Type} (step : Disk → Disk → Prop) (x : Task ε α) : Prop :=
  (StaticSite.Task.Logic.tracing step).holds x

theorem Traces.bind {ε α β : Type} {x : Task ε α} {f : α → Task ε β} (hx : Traces step x)
    (hf : ∀ a, Traces step (f a)) : Traces step (x >>= f) :=
  (StaticSite.Task.Logic.tracing step).bind hx hf

theorem traces_call {ε : Type} {failure : IoError → ε} {change : Disk → Except IoError Disk}
    (h : ∀ d d', change d = .ok d' → step d d') : Traces step (Task.call failure change) := by
  intro d
  rw [Task.run_call]
  cases hd : change d with
  | error cause => exact .refl
  | ok d' => exact .single (h d d' hd)

theorem traces_ensureDirectory (hw : ∀ d d', WritesOn dest d d' → step d d')
    (hp : ∀ q ∈ p.withAncestors, IsOnLine dest q) : Traces step (ensureDirectory p) := fun d =>
  ensureAll_preserves (P := ReflTransGen step d)
    (fun q hq e e' hd hm => hd.tail (hw e e' (.makeDirectory (hp q hq) hm))) .refl

theorem traces_copyLink (hl : ∀ d d', CallsOn dest d d' → step d d') (target : String)
    (hp : Continues dest p left) : Traces step (copyLink target p) := by
  have hlink : Traces step (Task.call id (·.makeLink p target) : Task IoError Unit) :=
    traces_call fun d d' h => hl d d' (.link hp h)
  have hclear : Traces step (Task.call id (·.removeFile p) : Task IoError Unit) :=
    traces_call fun d d' h => hl d d' (.remove hp h)
  have hput {task : Task IoError Unit} (h : Traces step task) : Traces step (do
      if ((← get).linkEntry p).isOk then Task.call id (·.removeFile p)
      task) := by
    refine (StaticSite.Task.Logic.tracing step).get fun d d' hd => ?_
    subst hd
    refine ⟨rfl, ?_⟩
    dsimp only
    split
    · exact hclear.bind fun _ => h
    · exact h
  unfold copyLink
  cases hparent : p.parent? with
  | some parent =>
    refine hput (.bind (traces_ensureDirectory (fun d d' h => hl d d' (.write h)) fun q hq => ?_)
      fun _ => hlink)
    exact (Scope.on dest True).line_of_parent ⟨left, hp⟩ hparent hq
  | none => exact hput hlink

/-- Tasks of calls on one path, which link only if links may be copied. -/
def Logic.tracing (hw : ∀ d d', WritesOn dest d d' → step d d')
    (hl : links → ∀ d d', CallsOn dest d d' → step d d') : Logic (Scope.on dest links) where
  toLogic := .tracing step
  isFile := by
    rintro d _ p rfl -
    rfl
  readText := by
    rintro d _ p rfl -
    rfl
  isDirectory _ hp := hp.elim
  listed _ hp := hp.elim
  listing _ hp := hp.elim
  ensureDirectory hp := traces_ensureDirectory hw hp
  writeText text failure := by
    rintro ⟨left, hp⟩
    refine traces_call fun d d' h => ?_
    obtain ⟨place, hplace, rfl⟩ := writeBytes_eq_ok_iff.1 h
    exact hw _ _ (.writeFile hp hplace _ _)
  copyBytes _ := by
    rintro ⟨left, hp⟩
    refine traces_call fun d d' h => ?_
    obtain ⟨place, bytes, modified, hplace, rfl⟩ := writes_of_copyBytes h
    exact hw _ _ (.writeFile hp hplace bytes modified)
  copyLink target hlinks := fun ⟨_, hp⟩ => traces_copyLink (hl hlinks) target hp

/-- Tasks of calls on a path. -/
def Logic.calling (dest : Path) : Logic (Scope.on dest True) :=
  .tracing (fun _ _ => .write) fun _ _ _ => id

/-- Tasks that write on a path. -/
def Logic.writing (dest : Path) : Logic (Scope.on dest False) :=
  .tracing (fun _ _ => id) False.elim

end Logic

/-! ## Names -/

theorem isName_of_writable (hc : ∀ n ∈ disk.cwd, Path.IsName n) (h : disk.writable p = .ok place) :
    ∀ n ∈ place, Path.IsName n := by
  obtain ⟨-, found, hr, rfl, -⟩ := resolve_of_writable h
  rw [resolve_of_noFault (noFault_of_resolve hr)] at hr
  exact isName_of_walkFrom (fun n hn => isName_of_mem_startOf hc hn)
    (fun s hs => Path.noSlash_of_mem_segments hs) hr

theorem WritesOn.wellFormed (h : WritesOn dest disk disk') (hw : disk.WellFormed) :
    disk'.WellFormed := by
  cases h with
  | makeDirectory hp h =>
    obtain ⟨place, hne, -, rfl, -, hn⟩ := reaches_of_makeDirectory h
    exact hw.put hne (hn hw) _
  | writeFile hp h => exact hw.put (ne_root_of_writable h) (isName_of_writable hw.cwd h) _

theorem CallsOn.wellFormed (h : CallsOn dest disk disk') (hw : disk.WellFormed) :
    disk'.WellFormed := by
  cases h with
  | write h => exact h.wellFormed hw
  | remove hp h =>
    obtain ⟨place, -, -, rfl⟩ := removeFile_eq_ok h
    exact ⟨hw.cwd, nodup_filter hw.nodup _, fun he => hw.names (List.mem_filter.1 he).1⟩
  | link hp h =>
    obtain ⟨place, hn, hfree, rfl⟩ := makeLink_eq_ok h
    exact hw.put (ne_root_of_at? (d := disk) fun hd => by cases hd.symm.trans hfree)
      (isName_of_nameOf hw.cwd hn) _

/-- What each call keeps is kept by all of them. -/
theorem kept_by_calls {P : Disk → Prop} (h : ReflTransGen (CallsOn dest) disk disk')
    (hstep : ∀ {d d' : Disk}, CallsOn dest d d' → P d → P d') (hd : P disk) : P disk' := by
  induction h with
  | refl => exact hd
  | tail _ hcall ih => exact hstep hcall ih

theorem wellFormed_of_calls (h : ReflTransGen (CallsOn dest) disk disk') (hw : disk.WellFormed) :
    disk'.WellFormed :=
  kept_by_calls h CallsOn.wellFormed hw

/-! ## Trees -/

/-- What is put into a directory, where no directory is, keeps a disk a tree. -/
theorem IsTree.put (ht : disk.IsTree) (hp : disk.at? place.dropLast = some .directory)
    (hne : disk.at? place ≠ some .directory) (entry : Entry) : (disk.put place entry).IsTree := by
  have kept {l : Location} (hl : disk.at? l = some .directory) :
      (disk.put place entry).at? l = some .directory := by
    rwa [at?_put_of_ne disk fun he : l = place => hne (he ▸ hl)]
  rintro ⟨l, e⟩ he
  rcases List.mem_cons.1 he with heq | he
  · cases heq
    exact kept hp
  · exact kept (ht _ (List.mem_filter.1 he).1)

/-- Removing what is no directory keeps a disk a tree. -/
theorem IsTree.remove (ht : disk.IsTree) (hne : disk.at? place ≠ some .directory) :
    (disk.remove place).IsTree := by
  rintro ⟨l, e⟩ he
  have hl : disk.at? l.dropLast = some .directory := ht _ (List.mem_filter.1 he).1
  exact (at?_remove_of_ne disk fun heq : l.dropLast = place => hne (heq ▸ hl)).trans hl

theorem at?_startOf {here : Location} (hd : disk.at? here = some .directory) (p : Path) :
    disk.at? (startOf here p) = some .directory := by
  unfold startOf
  split
  · exact at?_root disk
  · exact hd

/-- Where a walk from a directory of a tree ends, there is a directory above it, and one itself if
it ends at a directory. -/
theorem IsTree.directory_of_walks (ht : disk.IsTree) {follow : Bool} {n : Nat} {here : Location}
    {segments : List String} {found : Place} (h : Walks disk follow n here segments found)
    (hd : disk.at? here = some .directory) :
    disk.at? found.location.dropLast = some .directory ∧
      ∀ l, found = .held l .directory → disk.at? l = some .directory := by
  have above {here : Location} (s : String) (hd : disk.at? here = some .directory) :
      disk.at? (here ++ [s]).dropLast = some .directory := by
    rwa [List.dropLast_concat]
  induction h with
  | done => exact ⟨ht.above hd, fun l hl => (Place.held.inj hl).1 ▸ hd⟩
  | idle h tail ih => exact ih hd
  | up tail ih => exact ih (ht.above hd)
  | enter h found tail ih => exact ih found
  | free h found => exact ⟨above _ hd, nofun⟩
  | file h found => exact ⟨above _ hd, nofun⟩
  | link h found stays => exact ⟨above _ hd, nofun⟩
  | jump h found goes tail ih => exact ih (at?_startOf hd _)

theorem IsTree.directory_of_nameOf (ht : disk.IsTree) (hc : disk.at? disk.cwd = some .directory)
    {slash : Bool} (h : disk.nameOf p = .ok (some place, slash)) :
    disk.at? place.dropLast = some .directory := by
  obtain ⟨here, last, m, rfl, -, -, hm, -⟩ := nameOf_eq_ok h
  rw [List.dropLast_concat]
  exact (ht.directory_of_walks (walks_of_walkFrom hm.walk_eq) (at?_startOf hc p)).2 here rfl

theorem IsTree.directory_of_writable (ht : disk.IsTree) (hc : disk.at? disk.cwd = some .directory)
    (h : disk.writable p = .ok place) : disk.at? place.dropLast = some .directory := by
  obtain ⟨-, found, hr, rfl, -⟩ := resolve_of_writable h
  rw [resolve_of_noFault (noFault_of_resolve hr)] at hr
  exact (ht.directory_of_walks (walks_of_walkFrom hr) (at?_startOf hc p)).1

/-- A disk on which each entry lies in a directory, and relative paths start in one. -/
structure IsRooted (disk : Disk) : Prop where
  tree : disk.IsTree
  cwd : disk.at? disk.cwd = some .directory

theorem IsRooted.put (h : disk.IsRooted) (hp : disk.at? place.dropLast = some .directory)
    (hne : disk.at? place ≠ some .directory) (entry : Entry) : (disk.put place entry).IsRooted :=
  ⟨h.tree.put hp hne entry,
    (at?_put_of_ne disk (fun he : disk.cwd = place => hne (he ▸ h.cwd)) entry).trans h.cwd⟩

theorem IsRooted.remove (h : disk.IsRooted) (hne : disk.at? place ≠ some .directory) :
    (disk.remove place).IsRooted :=
  ⟨h.tree.remove hne,
    (at?_remove_of_ne disk fun he : disk.cwd = place => hne (he ▸ h.cwd)).trans h.cwd⟩

theorem WritesOn.isRooted (h : WritesOn dest disk disk') (hd : disk.IsRooted) : disk'.IsRooted := by
  cases h with
  | makeDirectory hp h =>
    obtain ⟨place, slash, hn, hfree, rfl⟩ := makeDirectory_eq_ok h
    exact hd.put (hd.tree.directory_of_nameOf hd.cwd hn) (by simp [hfree]) _
  | writeFile hp h =>
    refine hd.put (hd.tree.directory_of_writable hd.cwd h) (fun hdir => ?_) _
    rcases at?_of_writable h with hat | ⟨_, _, hat⟩
    · cases hdir.symm.trans hat
    · cases hdir.symm.trans hat

theorem CallsOn.isRooted (h : CallsOn dest disk disk') (hd : disk.IsRooted) : disk'.IsRooted := by
  cases h with
  | write h => exact h.isRooted hd
  | remove hp h =>
    obtain ⟨place, -, hne, rfl⟩ := removeFile_eq_ok h
    exact hd.remove hne
  | link hp h =>
    obtain ⟨place, hn, hfree, rfl⟩ := makeLink_eq_ok h
    exact hd.put (hd.tree.directory_of_nameOf hd.cwd hn) (by simp [hfree]) _

theorem isRooted_of_calls (h : ReflTransGen (CallsOn dest) disk disk') (hd : disk.IsRooted) :
    disk'.IsRooted :=
  kept_by_calls h CallsOn.isRooted hd

/-! ## What is listed -/

theorem isName_of_mem_listed (hw : disk.WellFormed) {entries : List (Location × Entry)}
    (hl : disk.listed p = .ok entries) {e : Location × Entry} (he : e ∈ entries) :
    ∀ n ∈ e.1, Path.IsName n := by
  have below {place : Location} (he : e ∈ disk.below place) :
      ∀ n ∈ e.1, Path.IsName n := fun n hn =>
    (hw.names (mem_below he)).2 n (List.mem_append_right _ hn)
  have first {entry : Entry} (he : e = ([], entry)) : ∀ n ∈ e.1, Path.IsName n := by
    subst he
    simp
  unfold listed at hl
  obtain ⟨found, hr, hl⟩ := Except.bind_eq_ok_iff.1 hl
  rcases found with ⟨place, _ | _ | goal⟩ | place
  · cases hl
    exact (List.mem_cons.1 he).elim first below
  · cases hl
    exact first (List.mem_singleton.1 he)
  · dsimp only at hl
    obtain ⟨found, hr, hl⟩ := Except.bind_eq_ok_iff.1 hl
    rcases found with ⟨place, _ | _ | _⟩ | place
    · cases hl
      exact (List.mem_cons.1 he).elim first below
    · cases hl
      exact first (List.mem_singleton.1 he)
    · cases hl
      exact first (List.mem_singleton.1 he)
    · cases hl
  · cases hl

/-! ## Copying -/

theorem allowsEntry {e : Location × Entry} {links : Prop} (hn : ∀ n ∈ e.1, Path.IsName n)
    (hl : ∀ target, e.2 = .link target → links) : (Scope.on dest links).AllowsEntry source e where
  file _ := trivial
  link := by
    rintro ⟨target, h⟩
    exact hl target h
  target := by
    rintro dest ⟨left, hc⟩
    exact ⟨_, hc.join_names hn⟩

theorem traces_copyFile (source dest : Path) : Traces (CallsOn dest) (copyFile source dest) :=
  (Logic.calling dest).copyFile trivial ⟨[], .refl dest⟩

theorem traces_copyDirectory (hw : disk.WellFormed) (source dest : Path) :
    ReflTransGen (CallsOn dest) disk ((copyDirectory source dest).run.run disk).2 := by
  rw [copyDirectory, Simulation.run_get_bind]
  cases hl : disk.listed source with
  | error cause => exact .refl
  | ok entries =>
    exact (Logic.calling dest).copyEntries ⟨[], .refl dest⟩
      (fun e he => allowsEntry (isName_of_mem_listed hw hl he) fun _ _ => trivial) disk

/-- Copying what is no link makes directories and writes files. -/
theorem traces_copyEntries {entries : List (Location × Entry)}
    (h : ∀ e ∈ entries, (∀ n ∈ e.1, Path.IsName n) ∧ ∀ target, e.2 ≠ .link target)
    (source dest : Path) :
    Traces (WritesOn dest) (copyEntries source dest entries) :=
  (Logic.writing dest).copyEntries ⟨[], .refl dest⟩
    fun e he => allowsEntry (h e he).1 fun target hlink => (h e he).2 target hlink

/-! ## What is touched -/

/-- A place at or below a directory that a destination leads to, the file that it leads to, or a
directory that was made above it where nothing was. -/
inductive Touches (disk disk' : Disk) (dest : Path) (place : Location) : Prop
  | below {base : Location} (hr : Reaches disk' dest base) (hp : base <+: place)
  | file {bytes : ByteArray} {modified : Nat}
      (hr : disk'.resolve true dest = .ok (.held place (.file bytes modified)))
  | above {p : Path} (hp : p.IsAbove dest) (hr : Reaches disk' p place)
      (hfree : disk.at? place = none) (hmade : disk'.at? place = some .directory)

/-- A disk that came from another one by changes at some destinations, which removed nothing and
made no links. -/
structure Confined (dests : List Path) (disk disk' : Disk) : Prop where
  lasts : Lasts disk disk'
  keepsLinks : KeepsLinks disk disk'
  touches {place : Location} :
    disk'.at? place ≠ disk.at? place → ∃ dest ∈ dests, Touches disk disk' dest place

/-- A path that leads to a file leads to the file that is there later. -/
theorem Lasts.resolve_file (h : Lasts disk disk') {bytes bytes' : ByteArray}
    {modified modified' : Nat} (hr : disk.resolve true p = .ok (.held place (.file bytes modified)))
    (hv : disk'.at? place = some (.file bytes' modified')) :
    disk'.resolve true p = .ok (.held place (.file bytes' modified')) := by
  have hf := noFault_of_resolve hr
  rw [resolve_of_noFault hf] at hr ⊢
  have hne (l : Location) : Place.held place (.file bytes modified) ≠ .held l .directory := by simp
  rw [h.cwd]
  exact walk_of_file h.persists hne hv hr

/-- A path that leads to a file keeps leading to a file there. -/
theorem Lasts.exists_file (h : Lasts disk disk') {bytes : ByteArray} {modified : Nat}
    (hr : disk.resolve true p = .ok (.held place (.file bytes modified))) :
    ∃ bytes' modified', disk'.resolve true p = .ok (.held place (.file bytes' modified')) := by
  have hthere : disk.at? place = some (.file bytes modified) := isThere_of_resolve hr
  obtain ⟨bytes', modified', hv⟩ :=
    shape_eq_file_iff.1 (h.shape (shape_eq_file_iff.2 ⟨bytes, modified, hthere⟩))
  exact ⟨bytes', modified', h.resolve_file hr hv⟩

theorem Touches.mono {before after : Disk} (h : Touches disk disk' dest place)
    (hb : Lasts before disk) (ha : Lasts disk' after) : Touches before after dest place := by
  cases h with
  | below hr hp => exact .below (hr.mono ha.cwd ha.persists) hp
  | file hr =>
    obtain ⟨_, _, hafter⟩ := ha.exists_file hr
    exact .file hafter
  | above hp hr hfree hmade =>
    refine .above hp (hr.mono ha.cwd ha.persists) ?_ ((ha.persists place).1 hmade)
    rw [Option.eq_none_iff_forall_ne_some]
    intro entry hat
    have hshape : disk.shape place = some entry.blank :=
      hb.shape (by rw [shape, hat, Option.map_some])
    rw [shape, hfree] at hshape
    cases hshape

namespace Confined

theorem refl (h : disk.Keyed) : Confined [] disk disk :=
  ⟨.refl disk, .refl h, fun hne => absurd rfl hne⟩

theorem mono {first second : List Path} (h : Confined first disk disk') (hs : first ⊆ second) :
    Confined second disk disk' :=
  ⟨h.lasts, h.keepsLinks, fun hne => (h.touches hne).imp fun _ hd => ⟨hs hd.1, hd.2⟩⟩

theorem trans {first second : List Path} (h : Confined first disk mid)
    (h' : Confined second mid disk') :
    Confined (first ++ second) disk disk' where
  lasts := h.lasts.trans h'.lasts
  keepsLinks := h.keepsLinks.trans h'.keepsLinks
  touches {place} hne := by
    by_cases hmid : mid.at? place = disk.at? place
    · obtain ⟨dest, hd, ht⟩ := h'.touches (hmid ▸ hne)
      exact ⟨dest, List.mem_append_right _ hd, ht.mono h.lasts (.refl disk')⟩
    · obtain ⟨dest, hd, ht⟩ := h.touches hmid
      exact ⟨dest, List.mem_append_left _ hd, ht.mono (.refl disk) h'.lasts⟩

end Confined

/-- Directories that were made above a path are confined to it. -/
theorem confined_ensureDirectory (hw : disk.WellFormed)
    (hp : ∀ q ∈ p.withAncestors, q.IsAbove dest) :
    Confined [dest] disk ((ensureDirectory p).run.run disk).2 where
  lasts := (ensureDirectory_raises disk p).lasts
  keepsLinks := ensureAll_preserves (P := KeepsLinks disk)
    (fun _ _ _ _ hd hm => hd.makeDirectory hm)
    (.refl hw.keyed)
  touches hne := by
    obtain ⟨hfree, hmade, q, hq, hr⟩ := ((ensureDirectory_grows hw p).made _).resolve_left hne
    exact ⟨dest, List.mem_singleton_self dest, .above (hp q hq) hr hfree hmade⟩

theorem WritesOn.lasts (h : WritesOn dest disk disk') : Lasts disk disk' := by
  cases h with
  | makeDirectory hp h =>
    obtain ⟨place, hne, hfree, rfl, -⟩ := reaches_of_makeDirectory h
    exact .put hne (.inl hfree)
  | writeFile hp h =>
    exact .put (ne_root_of_writable h) ((at?_of_writable h).imp_right shape_eq_file_iff.2)

theorem WritesOn.keepsLinks (h : WritesOn dest disk disk') (hk : disk.Keyed) :
    KeepsLinks disk disk' := by
  cases h with
  | makeDirectory hp h => exact (KeepsLinks.refl hk).makeDirectory h
  | writeFile hp h => exact (KeepsLinks.refl hk).write h _ _

/-- What is written on a path that leads to a directory without links is at or below the
directory. -/
theorem WritesOn.below (h : WritesOn dest disk disk') (hr : Reaches disk dest base)
    (hl : disk.HasNoLinks base) (hne : disk'.at? place ≠ disk.at? place) : base <+: place := by
  have hput {left : List String} {entry : Entry} (he : disk' = disk.put (base ++ left) entry) :
      base <+: place := by
    by_contra hp
    refine hne (he ▸ at?_put_of_ne disk ?_ entry)
    rintro rfl
    exact hp (List.prefix_append _ _)
  cases h with
  | makeDirectory hp h =>
    rcases (Twins.self hr hl).makeDirectory hp with ⟨cause, he, -⟩ | ⟨l, hinside, he, -⟩
    · rw [he] at h
      cases h
    · obtain ⟨left, rfl⟩ := hinside.1
      rw [he] at h
      exact hput (Except.ok.inj h).symm
  | writeFile hp h bytes modified =>
    obtain ⟨rfl, -⟩ := writable_below hr hl hp h
    exact hput rfl

theorem WritesOn.confined (h : WritesOn dest disk disk') (hk : disk.Keyed)
    (hr : Reaches disk dest base) (hl : disk.HasNoLinks base) : Confined [dest] disk disk' where
  lasts := h.lasts
  keepsLinks := h.keepsLinks hk
  touches hne :=
    ⟨dest, List.mem_singleton_self dest, .below ((h.keepsLinks hk).reaches hr) (h.below hr hl hne)⟩

/-- Writing on a path that leads to a directory without links is confined to the path. -/
theorem Confined.of_writes (h : ReflTransGen (WritesOn dest) disk disk') (hk : disk.Keyed)
    (hr : Reaches disk dest base) (hl : disk.HasNoLinks base) : Confined [dest] disk disk' := by
  induction h with
  | refl => exact (Confined.refl hk).mono (List.nil_subset _)
  | tail _ hwrite ih =>
    have hlast := hwrite.confined ih.keepsLinks.keyed (ih.keepsLinks.reaches hr)
      (ih.keepsLinks.hasNoLinks hl)
    exact (ih.trans hlast).mono (by simp)

theorem confined_writeFile (hk : disk.Keyed) (h : disk.writable dest = .ok place)
    (bytes : ByteArray) (modified : Nat) :
    Confined [dest] disk (disk.put place (.file bytes modified)) := by
  have hwrite := WritesOn.writeFile (.refl dest) h bytes modified
  refine ⟨hwrite.lasts, hwrite.keepsLinks hk, fun {l} hne => ?_⟩
  by_cases hl : l = place
  · subst hl
    have hput := at?_put disk (ne_root_of_writable h) (.file bytes modified)
    exact ⟨dest, List.mem_singleton_self dest, .file (resolve_of_lasts h hwrite.lasts hput)⟩
  · exact absurd (at?_put_of_ne disk hl _) hne

/-- Copying a file makes what is missing above its copy, and then makes the copy like the file. -/
theorem run_copyFile_eq_ok (hw : disk.WellFormed)
    (hrun : (copyFile source dest).run.run disk = (.ok (), disk')) :
    ∃ made, Grown ((dest.parent?.map Path.withAncestors).getD []) disk made ∧
      Confined [dest] disk made ∧ made.copyBytes source dest = .ok disk' := by
  unfold copyFile at hrun
  cases hparent : dest.parent? with
  | some parent =>
    rw [hparent] at hrun
    obtain ⟨⟨⟩, made, hmade, hcopy⟩ := StaticSite.Task.run_bind_eq_ok.1 hrun
    obtain rfl : ((ensureDirectory parent).run.run disk).2 = made := congrArg Prod.snd hmade
    refine ⟨_, ensureDirectory_grows hw parent, ?_, Task.run_call_eq_ok.1 hcopy⟩
    exact confined_ensureDirectory hw fun q hq =>
      (Path.isAbove_of_mem_withAncestors hq).trans (Path.isAbove_of_parent hparent)
  | none =>
    rw [hparent] at hrun
    exact ⟨disk, .refl _ hw, (Confined.refl hw.keyed).mono (List.nil_subset _),
      Task.run_call_eq_ok.1 hrun⟩

/-- Copying a file is confined to its destination, wherever this leads. -/
theorem confined_copyFile (hw : disk.WellFormed)
    (hrun : (copyFile source dest).run.run disk = (.ok (), disk')) :
    Confined [dest] disk disk' := by
  obtain ⟨made, -, hmade, hcopy⟩ := run_copyFile_eq_ok hw hrun
  obtain ⟨place, bytes, modified, hplace, rfl⟩ := writes_of_copyBytes hcopy
  have hwrite := confined_writeFile hmade.keepsLinks.keyed hplace bytes modified
  exact (hmade.trans hwrite).mono (by simp)

/-- A file that was copied stands where the destination leads; a file that was copied to itself is
empty. -/
theorem resolve_of_copyFile (hw : disk.WellFormed) {bytes : ByteArray} {modified : Nat}
    (hr : disk.resolve true source = .ok (.held place (.file bytes modified)))
    (hrun : (copyFile source dest).run.run disk = (.ok (), disk')) :
    ∃ copy, disk'.resolve true dest = .ok (.held copy
      (if copy = place then .file .empty disk.now else .file bytes modified)) := by
  obtain ⟨made, hgrown, hmade, hcopy⟩ := run_copyFile_eq_ok hw hrun
  have hthere : made.at? place = some (.file bytes modified) := by
    have hat : disk.at? place = some (.file bytes modified) := isThere_of_resolve hr
    rcases hgrown.made place with hsame | ⟨hnone, -⟩
    · exact hsame.trans hat
    · cases hnone.symm.trans hat
  have hsource := hmade.lasts.resolve_file hr hthere
  obtain ⟨origin, _, _, copy, horigin, hcopied, rfl⟩ := copyBytes_eq_ok_iff.1 hcopy
  cases hsource.symm.trans horigin
  have hlasts (written : ByteArray) (time : Nat) :
      Lasts made (made.put copy (.file written time)) :=
    (WritesOn.writeFile (.refl dest) hcopied written time).lasts
  have hput (entry : Entry) := at?_put made (ne_root_of_writable hcopied) entry
  rw [hgrown.now]
  refine ⟨copy, ?_⟩
  split
  · exact resolve_of_lasts hcopied (hlasts _ _) (hput _)
  · exact resolve_of_lasts hcopied (hlasts _ _) (hput _)

/-! ## Paths that lead to no links -/

/-- Wherever a path leads when directories were made and files were written, there are no links in
the directory. A link at the end of the path is followed. -/
def HoldsNoLinks (disk : Disk) (p : Path) : Prop :=
  ∀ d base, KeepsLinks disk d → Reaches d p base → disk.HasNoLinks base

theorem HoldsNoLinks.hasNoLinks (h : disk.HoldsNoLinks p) (hd : KeepsLinks disk disk')
    (hr : Reaches disk' p base) : disk'.HasNoLinks base :=
  hd.hasNoLinks (h disk' base hd hr)

theorem HoldsNoLinks.mono (h : disk.HoldsNoLinks p) (hd : KeepsLinks disk disk') :
    disk'.HoldsNoLinks p :=
  fun d base hk hr => hd.hasNoLinks (h d base (hd.trans hk) hr)

theorem holdsNoLinks_of_reaches (hr : Reaches disk p base) (hl : disk.HasNoLinks base) :
    disk.HoldsNoLinks p := by
  intro d l hd hreach
  cases (reaches_iff.1 (hd.reaches hr)).symm.trans (reaches_iff.1 hreach)
  exact hl

/-- What a text that does not climb leads to in a directory without links has none. -/
theorem HoldsNoLinks.join {t : String} (h : disk.HoldsNoLinks p) (ht : Path.IsRelative t)
    (hs : Path.stays ⟨t⟩ = true) : disk.HoldsNoLinks (p.join t) := by
  intro d l hd hreach
  rw [Path.stays_iff_steps] at hs
  obtain ⟨names, hnames⟩ := Option.isSome_iff_exists.1 hs
  obtain ⟨m, _, mid, hm, -⟩ := hreach.above (p := p) (p.isAbsolute_join ht).symm
    (p.steps_join ht).symm
  have hl := h d mid hd ⟨m, hm⟩
  have twins := Twins.self ⟨m, hm⟩ (hd.hasNoLinks hl)
  have hland := (twins.walk (p.isAbsolute_join ht) (p.steps_join ht) hnames).2
  rw [reaches_iff.1 hreach] at hland
  obtain rfl : l = mid ++ names := hland
  exact hl.below (List.prefix_append _ _)

end Disk

end StaticSite
