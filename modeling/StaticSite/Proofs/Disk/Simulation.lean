import StaticSite.Proofs.Disk.Logic

/-!
# Simulations between disks

A `Disk.Simulation` is a relation between disks that the calls in a scope preserve: calls on related
disks have one outcome and leave related disks. Respecting such a relation is a logic of disks
(`Simulation.logic`), so the same follows for the tasks that are made of calls.
-/

namespace StaticSite

namespace Disk

/-- A relation between disks that calls on certain paths preserve. -/
structure Simulation extends Scope where
  rel : Disk → Disk → Prop
  isFile {d d' : Disk} {p : Path} : rel d d' → files p → d.isFile p = d'.isFile p
  readText {d d' : Disk} {p : Path} : rel d d' → files p → d.readText p = d'.readText p
  isDirectory {d d' : Disk} {p : Path} :
    rel d d' → line p ∨ origins p → d.isDirectory p = d'.isDirectory p
  listed {d d' : Disk} {p : Path} : rel d d' → origins p → d.listed p = d'.listed p
  makeDirectory {d d' : Disk} {p : Path} :
    rel d d' → line p → Matches rel (d.makeDirectory p) (d'.makeDirectory p)
  writeBytes {d d' : Disk} {p : Path} (bytes : ByteArray) :
    rel d d' → targets p → Matches rel (d.writeBytes p bytes) (d'.writeBytes p bytes)
  copyBytes {d d' : Disk} {source p : Path} :
    rel d d' → files source → targets p → Matches rel (d.copyBytes source p) (d'.copyBytes source p)
  copyLink {p : Path} (target : String) :
    links → targets p → StaticSite.Task.Respects rel (Disk.copyLink target p)
  /-- What is listed below what may be copied may be copied to where all of it may be copied. -/
  listing {d d' : Disk} {source : Path} {entries : List (Location × Entry)} {e : Location × Entry} :
    rel d d' → origins source → d.listed source = .ok entries → e ∈ entries →
      toScope.AllowsEntry source e

namespace Simulation

variable (S : Simulation) {ε : Type}

/-- A task that has one outcome on related disks and leaves related disks. -/
def Respects {α : Type} (x : Disk.Task ε α) : Prop :=
  StaticSite.Task.Respects S.rel x

/-! ## Making directories -/

/-- Makes a directory unless it is there. -/
def settle (p : Path) (disk : Disk) : Except IoError Unit × Disk :=
  match disk.makeDirectory p with
  | .ok disk' => (.ok (), disk')
  | .error cause => if disk.isDirectory p then (.ok (), disk) else (.error cause, disk)

theorem run_get_bind {α : Type} (f : Disk → Disk.Task ε α) (disk : Disk) :
    (get >>= f).run.run disk = (f disk).run.run disk := rfl

theorem run_orElse_isDirectory (p : Path) (cause : IoError) (disk : Disk) :
    (do if (← get).isDirectory p then return () else throw cause :
      Disk.Task IoError Unit).run.run disk =
      if disk.isDirectory p then (.ok (), disk) else (.error cause, disk) := by
  rw [run_get_bind]
  split <;> rfl

theorem run_settle (p : Path) (disk : Disk) :
    (do match (← get).makeDirectory p with
        | .ok disk => set disk
        | .error cause => if (← get).isDirectory p then return () else throw cause :
      Disk.Task IoError Unit).run.run disk = settle p disk := by
  rw [run_get_bind, settle]
  split
  · rfl
  · exact run_orElse_isDirectory p _ disk

theorem run_ensureAll_of_missing {p : Path} {disk : Disk} (above : List Path)
    (h : disk.makeDirectory p = .error .missing) :
    (ensureAll (p :: above)).run.run disk =
      match (ensureAll above).run.run disk with
      | (.ok (), disk') => settle p disk'
      | (.error cause, disk') => (.error cause, disk') := by
  rw [ensureAll, run_get_bind, h]
  dsimp only
  rw [StaticSite.Task.run_bind]
  rcases (ensureAll above).run.run disk with ⟨cause | ⟨⟩, d⟩
  · rfl
  · exact run_settle p d

theorem run_ensureAll_of_ne {p : Path} {disk : Disk} (above : List Path)
    (h : disk.makeDirectory p ≠ .error .missing) :
    (ensureAll (p :: above)).run.run disk = settle p disk := by
  rw [ensureAll, run_get_bind, settle]
  cases hm : disk.makeDirectory p with
  | ok d => rfl
  | error cause =>
    cases cause with
    | missing => exact absurd hm h
    | _ => exact run_orElse_isDirectory p _ disk

variable {S}

theorem settle_respects {p : Path} {d d' : Disk} (h : S.rel d d') (hp : S.line p) :
    (settle p d).1 = (settle p d').1 ∧ S.rel (settle p d).2 (settle p d').2 := by
  have hm := S.makeDirectory h hp
  have hi := S.isDirectory h (.inl hp)
  unfold settle
  generalize d.makeDirectory p = outcome at hm ⊢
  generalize d'.makeDirectory p = outcome' at hm ⊢
  rcases outcome with cause | e <;> rcases outcome' with cause' | e'
  · obtain rfl : cause = cause' := hm
    dsimp only
    rw [← hi]
    split
    · exact ⟨rfl, h⟩
    · exact ⟨rfl, h⟩
  · exact hm.elim
  · exact hm.elim
  · exact ⟨rfl, hm⟩

theorem ensureAll_respects :
    ∀ {paths : List Path}, (∀ p ∈ paths, S.line p) → S.Respects (ensureAll paths)
  | [], _ => .pure _
  | p :: above, hl => by
    have hp := hl p List.mem_cons_self
    have ih := ensureAll_respects fun q hq => hl q (List.mem_cons_of_mem p hq)
    intro d d' h
    have hiff : d.makeDirectory p = .error .missing ↔ d'.makeDirectory p = .error .missing :=
      (S.makeDirectory h hp).error_iff
    by_cases hm : d.makeDirectory p = .error .missing
    · rw [run_ensureAll_of_missing above hm, run_ensureAll_of_missing above (hiff.1 hm)]
      obtain ⟨ho, hd⟩ := ih d d' h
      generalize (ensureAll above).run.run d = run at ho hd ⊢
      generalize (ensureAll above).run.run d' = run' at ho hd ⊢
      obtain ⟨outcome, e⟩ := run
      obtain ⟨outcome', e'⟩ := run'
      obtain rfl : outcome = outcome' := ho
      cases outcome with
      | error cause => exact ⟨rfl, hd⟩
      | ok => exact settle_respects hd hp
    · rw [run_ensureAll_of_ne above hm, run_ensureAll_of_ne above (mt hiff.2 hm)]
      exact settle_respects h hp

theorem ensureDirectory_respects {p : Path} (h : ∀ q ∈ p.withAncestors, S.line q) :
    S.Respects (ensureDirectory p) :=
  ensureAll_respects h

/-- Tasks that respect a simulation. -/
def logic (S : Simulation) : Logic S.toScope where
  toLogic := .respecting S.rel
  isFile := S.isFile
  readText := S.readText
  isDirectory h hp := S.isDirectory h (.inr hp)
  listed := S.listed
  listing := S.listing
  ensureDirectory := ensureDirectory_respects
  writeText _ failure h := Disk.Task.respects_call (fun _ _ hd => S.writeBytes _ hd h) failure
  copyBytes hs hd := Disk.Task.respects_call (fun _ _ h => S.copyBytes h hs hd) id
  copyLink := S.copyLink

end Simulation

end Disk

end StaticSite
