import StaticSite.Disk.Copy
import StaticSite.Proofs.Task

/-!
# Logics of disks

A `Disk.Scope` says which paths tasks may read, copy and write, and a `Disk.Logic` is a property of
tasks that the calls in its scope have, and with them all that is made of calls. What is shown here
for every logic is that copying files and copying directories with all that is below them have the
property.
-/

namespace StaticSite.Disk

/-- The paths that tasks may read, copy and write. -/
structure Scope where
  /-- The files that may be read or copied. -/
  files : Path → Prop
  /-- What may be copied with all that is below it. -/
  origins : Path → Prop
  /-- The paths that may be written. -/
  targets : Path → Prop
  /-- The paths that may be made directories. -/
  line : Path → Prop
  /-- Whether links may be copied. -/
  links : Prop
  files_of_origin {p : Path} : origins p → files p
  line_of_target {p q : Path} : targets p → q ∈ p.withAncestors → line q
  line_of_parent {p parent q : Path} :
    targets p → p.parent? = some parent → q ∈ parent.withAncestors → line q

/-- What copying one of the entries below `source` needs, wherever all of them may be copied to. -/
structure Scope.AllowsEntry (scope : Scope) (source : Path) (e : Location × Entry) : Prop where
  file : (∃ bytes modified, e.2 = .file bytes modified) → scope.files (pathBelow source e.1)
  link : (∃ target, e.2 = .link target) → scope.links
  target {dest : Path} : scope.targets dest → scope.targets (dest.join ("/".intercalate e.1))

/-- A property of tasks that the calls in a scope have. Disks are the same if the files and origins
of the scope are the same on them. -/
structure Logic (scope : Scope) extends StaticSite.Task.Logic Disk where
  isFile {d d' : Disk} {p : Path} : same d d' → scope.files p → d.isFile p = d'.isFile p
  readText {d d' : Disk} {p : Path} : same d d' → scope.files p → d.readText p = d'.readText p
  isDirectory {d d' : Disk} {p : Path} :
    same d d' → scope.origins p → d.isDirectory p = d'.isDirectory p
  listed {d d' : Disk} {p : Path} : same d d' → scope.origins p → d.listed p = d'.listed p
  listing {d d' : Disk} {source : Path} {entries : List (Location × Entry)} {e : Location × Entry} :
    same d d' → scope.origins source → d.listed source = .ok entries → e ∈ entries →
      scope.AllowsEntry source e
  ensureDirectory {p : Path} :
    (∀ q ∈ p.withAncestors, scope.line q) → holds (Disk.ensureDirectory p)
  writeText {ε : Type} {p : Path} (text : String) (failure : IoError → ε) :
    scope.targets p → holds (Disk.Task.call failure (·.writeText p text))
  copyBytes {source p : Path} : scope.files source → scope.targets p →
    holds (Disk.Task.call id (·.copyBytes source p) : Disk.Task IoError Unit)
  copyLink {p : Path} (target : String) :
    scope.links → scope.targets p → holds (Disk.copyLink target p)

namespace Logic

variable {scope : Scope} (L : Logic scope) {source dest : Path}

theorem ensureTarget {p : Path} (h : scope.targets p) : L.holds (Disk.ensureDirectory p) :=
  L.ensureDirectory fun _ hq => scope.line_of_target h hq

theorem copyFile (hs : scope.files source) (hd : scope.targets dest) :
    L.holds (Disk.copyFile source dest) := by
  unfold Disk.copyFile
  split
  · rename_i parent hp
    exact L.bind (L.ensureDirectory fun _ hq => scope.line_of_parent hd hp hq) fun _ =>
      L.copyBytes hs hd
  · exact L.copyBytes hs hd

theorem copyEntry {e : Location × Entry} (h : scope.AllowsEntry source e)
    (hd : scope.targets dest) :
    L.holds (Disk.copyEntry source dest e) := by
  obtain ⟨relative, entry⟩ := e
  have ht := h.target hd
  cases entry with
  | link target => exact L.bind (L.copyLink target (h.link ⟨_, rfl⟩) ht) fun _ => L.pure _
  | directory => exact L.bind (L.ensureTarget ht) fun _ => L.pure _
  | file bytes modified => exact L.bind (L.copyFile (h.file ⟨_, _, rfl⟩) ht) fun _ => L.pure _

theorem copyEntries (hd : scope.targets dest) : ∀ {entries : List (Location × Entry)},
    (∀ e ∈ entries, scope.AllowsEntry source e) → L.holds (Disk.copyEntries source dest entries)
  | [], _ => L.pure _
  | e :: _, h =>
    L.bind (L.copyEntry (h e List.mem_cons_self) hd) fun _ =>
      L.bind (copyEntries hd fun x hx => h x (List.mem_cons_of_mem e hx)) fun _ => L.pure _

theorem copyDirectory (hs : scope.origins source) (hd : scope.targets dest) :
    L.holds (Disk.copyDirectory source dest) := by
  refine L.get fun d d' h => ⟨by rw [L.listed h hs], ?_⟩
  cases hlist : d.listed source with
  | error cause => exact L.throw _
  | ok entries => exact L.adapt _ (L.copyEntries hd fun e he => L.listing h hs hlist he)

end Logic

end StaticSite.Disk
