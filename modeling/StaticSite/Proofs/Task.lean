import StaticSite.Site.Session

/-!
# Tasks that keep what they did

The tasks on a disk and on a world, and the runs of templates, are computations that may fail and
keep their state when they do. This file says how such computations run one after the other, what a
change of the failure means, and what a task of a build does to the two parts of the world.
-/

namespace StaticSite

section Sequences

variable {ε δ σ α β : Type}

theorem Task.run_bind (x : ExceptT ε (StateM σ) α) (f : α → ExceptT ε (StateM σ) β) (s : σ) :
    (x >>= f).run.run s =
      match x.run.run s with
      | (.ok a, s') => (f a).run.run s'
      | (.error cause, s') => (.error cause, s') := by
  rw [ExceptT.run_bind, StateT.run_bind]
  show (match x.run.run s with | (r, s') => _) = _
  rcases x.run.run s with ⟨_ | a, s'⟩ <;> rfl

theorem Task.run_bind_eq_ok {x : ExceptT ε (StateM σ) α} {f : α → ExceptT ε (StateM σ) β} {s s' : σ}
    {b : β} : (x >>= f).run.run s = (.ok b, s') ↔
      ∃ a t, x.run.run s = (.ok a, t) ∧ (f a).run.run t = (.ok b, s') := by
  rw [Task.run_bind]
  rcases x.run.run s with ⟨cause | a, t⟩
  · constructor
    · intro h
      cases h
    · rintro ⟨_, _, h, _⟩
      cases h
  · constructor
    · exact fun h => ⟨a, t, rfl, h⟩
    · rintro ⟨_, _, h, h'⟩
      cases h
      exact h'

theorem Task.run_adapt (f : δ → ε) (x : ExceptT δ (StateM σ) α) (s : σ) :
    (ExceptT.adapt f x).run.run s = ((x.run.run s).1.mapError f, (x.run.run s).2) := rfl

theorem Task.run_adapt_eq_ok {f : δ → ε} {x : ExceptT δ (StateM σ) α} {s s' : σ} {a : α} :
    (ExceptT.adapt f x).run.run s = (.ok a, s') ↔ x.run.run s = (.ok a, s') := by
  rw [Task.run_adapt]
  rcases x.run.run s with ⟨cause | b, t⟩
  · constructor
    · intro h
      cases h
    · intro h
      cases h
  · constructor
    · intro h
      cases h
      rfl
    · intro h
      cases h
      rfl

end Sequences

/-! ## Two runs -/

section Runs

variable {ε δ σ α β : Type} {rel : σ → σ → Prop}

/-- Two outcomes are one failure, or successes that are related. -/
def Matches (rel : α → α → Prop) : Except ε α → Except ε α → Prop
  | .ok a, .ok b => rel a b
  | .error cause, .error cause' => cause = cause'
  | _, _ => False

theorem Matches.error_iff {rel : α → α → Prop} {x y : Except ε α} (h : Matches rel x y)
    {cause : ε} :
    x = .error cause ↔ y = .error cause := by
  cases x <;> cases y
  · obtain rfl : _ = _ := h
    exact Iff.rfl
  · exact h.elim
  · exact h.elim
  · simp

/-- Runs of a task from related states have one outcome and end in related states. -/
def Task.Respects (rel : σ → σ → Prop) (x : ExceptT ε (StateM σ) α) : Prop :=
  ∀ s s', rel s s' → (x.run.run s).1 = (x.run.run s').1 ∧ rel (x.run.run s).2 (x.run.run s').2

theorem Task.Respects.run_eq_ok {x : ExceptT ε (StateM σ) α} (h : Task.Respects rel x) {s t : σ}
    {a : α} (hrun : x.run.run s = (.ok a, t)) (s' : σ) (hs : rel s s') :
    ∃ t', x.run.run s' = (.ok a, t') ∧ rel t t' := by
  obtain ⟨ho, ht⟩ := h s s' hs
  rw [hrun] at ho ht
  exact ⟨(x.run.run s').2, Prod.ext ho.symm rfl, ht⟩

theorem Task.Respects.pure (a : α) : Task.Respects rel (Pure.pure a : ExceptT ε (StateM σ) α) :=
  fun _ _ h => ⟨rfl, h⟩

theorem Task.Respects.throw (cause : ε) :
    Task.Respects rel (MonadExcept.throw cause : ExceptT ε (StateM σ) α) :=
  fun _ _ h => ⟨rfl, h⟩

theorem Task.Respects.bind {x : ExceptT ε (StateM σ) α} {f : α → ExceptT ε (StateM σ) β}
    (hx : Task.Respects rel x) (hf : ∀ a, Task.Respects rel (f a)) :
    Task.Respects rel (x >>= f) := by
  intro s s' h
  obtain ⟨hr, ht⟩ := hx s s' h
  rw [Task.run_bind, Task.run_bind]
  generalize x.run.run s = run at hr ht ⊢
  generalize x.run.run s' = run' at hr ht ⊢
  obtain ⟨outcome, t⟩ := run
  obtain ⟨outcome', t'⟩ := run'
  obtain rfl : outcome = outcome' := hr
  cases outcome with
  | error cause => exact ⟨rfl, ht⟩
  | ok a => exact hf a t t' ht

theorem Task.Respects.ite {c : Prop} [Decidable c] {x y : ExceptT ε (StateM σ) α}
    (hx : Task.Respects rel x) (hy : Task.Respects rel y) :
    Task.Respects rel (if c then x else y) := by
  split
  · exact hx
  · exact hy

theorem Task.Respects.adapt {x : ExceptT δ (StateM σ) α} (failure : δ → ε)
    (hx : Task.Respects rel x) : Task.Respects rel (ExceptT.adapt failure x) := by
  intro s s' h
  rw [Task.run_adapt, Task.run_adapt]
  exact ⟨congrArg (Except.mapError failure) (hx s s' h).1, (hx s s' h).2⟩

/-- Going on with the state, of which only what related states share matters. -/
theorem Task.Respects.get {f : σ → ExceptT ε (StateM σ) β}
    (hf : ∀ s s', rel s s' → f s' = f s ∧ Task.Respects rel (f s)) :
    Task.Respects rel (MonadState.get >>= f) := by
  intro s s' h
  obtain ⟨he, hr⟩ := hf s s' h
  show ((f s).run.run s).1 = ((f s').run.run s').1 ∧ rel ((f s).run.run s).2 ((f s').run.run s').2
  rw [he]
  exact hr s s' h

/-! ## Logics -/

/-- A property of tasks that a sequence of tasks has when its parts have it. A task that goes on by
the state it reads has to go on the same way in all states that count as the same. -/
structure Task.Logic (σ : Type) where
  same : σ → σ → Prop
  holds {ε α : Type} : ExceptT ε (StateM σ) α → Prop
  pure {ε α : Type} (a : α) : holds (Pure.pure a : ExceptT ε (StateM σ) α)
  throw {ε α : Type} (cause : ε) : holds (MonadExcept.throw cause : ExceptT ε (StateM σ) α)
  bind {ε α β : Type} {x : ExceptT ε (StateM σ) α} {f : α → ExceptT ε (StateM σ) β} :
    holds x → (∀ a, holds (f a)) → holds (x >>= f)
  adapt {δ ε α : Type} {x : ExceptT δ (StateM σ) α} (failure : δ → ε) :
    holds x → holds (ExceptT.adapt failure x)
  get {ε α : Type} {f : σ → ExceptT ε (StateM σ) α} :
    (∀ s s', same s s' → f s' = f s ∧ holds (f s)) → holds (MonadState.get >>= f)

theorem Task.Logic.ite (L : Task.Logic σ) {c : Prop} [Decidable c] {x y : ExceptT ε (StateM σ) α}
    (hx : L.holds x) (hy : L.holds y) : L.holds (if c then x else y) := by
  split
  · exact hx
  · exact hy

/-- Tasks that respect a relation. -/
def Task.Logic.respecting (rel : σ → σ → Prop) : Task.Logic σ where
  same := rel
  holds := Task.Respects rel
  pure := .pure
  throw := .throw
  bind := .bind
  adapt := .adapt
  get := .get

end Runs

namespace Disk.Task

variable {ε : Type}

theorem run_call (failure : IoError → ε) (step : Disk → Except IoError Disk) (disk : Disk) :
    (Task.call failure step).run.run disk =
      match step disk with
      | .ok disk' => (.ok (), disk')
      | .error cause => (.error (failure cause), disk) := by
  unfold Task.call
  show (match step disk with | .ok d => _ | .error cause => _ : Task ε Unit).run.run disk = _
  split <;> rfl

theorem run_call_eq_ok {failure : IoError → ε} {step : Disk → Except IoError Disk}
    {disk disk' : Disk}
    {u : Unit} : (Task.call failure step).run.run disk = (.ok u, disk') ↔
    step disk = .ok disk' := by
  rw [run_call]
  cases step disk with
  | error cause =>
    constructor
    · intro h
      cases h
    · intro h
      cases h
  | ok made =>
    constructor
    · intro h
      cases h
      rfl
    · intro h
      cases h
      rfl

theorem respects_call {rel : Disk → Disk → Prop} {step : Disk → Except IoError Disk}
    (h : ∀ disk disk', rel disk disk' → Matches rel (step disk) (step disk'))
    (failure : IoError → ε) :
    StaticSite.Task.Respects rel (Task.call failure step) := by
  intro disk disk' hd
  have hs := h disk disk' hd
  rw [run_call, run_call]
  generalize step disk = outcome at hs ⊢
  generalize step disk' = outcome' at hs ⊢
  rcases outcome with cause | d <;> rcases outcome' with cause' | d'
  · obtain rfl : cause = cause' := hs
    exact ⟨rfl, hd⟩
  · exact hs.elim
  · exact hs.elim
  · exact ⟨rfl, hs⟩

end Disk.Task

namespace SiteTask

variable {ε δ α : Type}

theorem run_onDisk (failure : δ → ε) (task : Disk.Task δ α) (world : World) :
    (onDisk failure task).run.run world =
      ((task.run.run world.disk).1.mapError failure,
        { world with disk := (task.run.run world.disk).2 }) := by
  unfold onDisk
  rw [Task.run_bind, show (get : SiteTask ε World).run.run world = (.ok world, world) from rfl]
  dsimp only
  rcases task.run.run world.disk with ⟨cause | a, disk⟩ <;> rfl

theorem run_onDisk_eq_ok {failure : δ → ε} {task : Disk.Task δ α} {world world' : World} {a : α} :
    (onDisk failure task).run.run world = (.ok a, world') ↔
      ∃ disk, task.run.run world.disk = (.ok a, disk) ∧ world' = { world with disk } := by
  rw [run_onDisk]
  rcases task.run.run world.disk with ⟨cause | a', disk⟩
  · constructor
    · intro h
      cases h
    · rintro ⟨_, h, -⟩
      cases h
  · constructor
    · intro h
      cases h
      exact ⟨disk, rfl, rfl⟩
    · rintro ⟨_, h, rfl⟩
      cases h
      rfl

theorem run_onSession (change : Session → Session) (world : World) :
    (onSession change : SiteTask ε Unit).run.run world =
      (.ok (), { world with session := change world.session }) := rfl

end SiteTask

end StaticSite
