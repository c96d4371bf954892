import StaticSite.Proofs.Disk.Content
import StaticSite.Proofs.Disk.Lasting
import StaticSite.Proofs.Disk.Zone

/-!
# Repeated runs

A run succeeded, more was done behind it, and then the task runs again on what all of this left. A
task repeats itself (`Task.Rerun.Repeats`) if it then succeeds with the same outcome. Sequences of
tasks that repeat themselves do so too (`Task.Rerun.logic`), and so do the calls in a zone
(`Zone.repeating`), because nothing that they left is removed, only files are written again, and
none of what they read is in the zone.
-/

namespace StaticSite

/-! ## Runs and their repetitions -/

/-- How the states of a run, of its end and of its repetition belong together. -/
structure Task.Rerun (σ φ : Type) where
  /-- The states of a run that can be repeated. -/
  fit : σ → Prop
  /-- What there is in a state is there in the end. -/
  lasts : σ → φ → Prop
  /-- The states of the repetition when the run is in a state, given how the run ends. -/
  echoes : φ → σ → σ → Prop
  same : σ → σ → Prop
  same_self {s : σ} : fit s → same s s
  same_of_echoes {fin : φ} {s v : σ} : fit s → echoes fin s v → same s v

namespace Task.Rerun

variable {σ φ ε δ α β : Type} (R : Task.Rerun σ φ)

/-- What a task does once it does again. -/
def Repeats (x : ExceptT ε (StateM σ) α) : Prop :=
  ∀ ⦃s a t⦄, R.fit s → x.run.run s = (.ok a, t) →
    R.fit t ∧ ∀ fin, R.lasts t fin → R.lasts s fin ∧
      ∀ v, R.echoes fin s v → ∃ v', x.run.run v = (.ok a, v') ∧ R.echoes fin t v'

variable {R}

theorem Repeats.pure (a : α) : R.Repeats (Pure.pure a : ExceptT ε (StateM σ) α) := by
  intro s b t hs h
  cases h
  exact ⟨hs, fun fin hfin => ⟨hfin, fun v hv => ⟨v, rfl, hv⟩⟩⟩

theorem Repeats.throw (cause : ε) :
    R.Repeats (MonadExcept.throw cause : ExceptT ε (StateM σ) α) := by
  intro s a t _ h
  cases h

theorem Repeats.bind {x : ExceptT ε (StateM σ) α} {f : α → ExceptT ε (StateM σ) β}
    (hx : R.Repeats x) (hf : ∀ a, R.Repeats (f a)) : R.Repeats (x >>= f) := by
  intro s b t hs h
  obtain ⟨a, m, hm, ht⟩ := Task.run_bind_eq_ok.1 h
  obtain ⟨hfit, hfirst⟩ := hx hs hm
  obtain ⟨hfit', hsecond⟩ := hf a hfit ht
  refine ⟨hfit', fun fin hfin => ?_⟩
  obtain ⟨hmid, hagain'⟩ := hsecond fin hfin
  obtain ⟨hstart, hagain⟩ := hfirst fin hmid
  refine ⟨hstart, fun v hv => ?_⟩
  obtain ⟨v', hrun, hv'⟩ := hagain v hv
  obtain ⟨v'', hrun', hv''⟩ := hagain' v' hv'
  exact ⟨v'', Task.run_bind_eq_ok.2 ⟨a, v', hrun, hrun'⟩, hv''⟩

theorem Repeats.adapt {x : ExceptT δ (StateM σ) α} (failure : δ → ε) (hx : R.Repeats x) :
    R.Repeats (ExceptT.adapt failure x) := by
  intro s a t hs h
  obtain ⟨hfit, hagain⟩ := hx hs (Task.run_adapt_eq_ok.1 h)
  refine ⟨hfit, fun fin hfin => ⟨(hagain fin hfin).1, fun v hv => ?_⟩⟩
  obtain ⟨v', hrun, hv'⟩ := (hagain fin hfin).2 v hv
  exact ⟨v', Task.run_adapt_eq_ok.2 hrun, hv'⟩

/-- What is done with a state is the same in the repetition. -/
theorem Repeats.get {f : σ → ExceptT ε (StateM σ) α}
    (hf : ∀ s s', R.same s s' → f s' = f s ∧ R.Repeats (f s)) :
    R.Repeats (MonadState.get >>= f) := by
  intro s a t hs h
  obtain ⟨hfit, hagain⟩ := (hf s s (R.same_self hs)).2 hs h
  refine ⟨hfit, fun fin hfin => ⟨(hagain fin hfin).1, fun v hv => ?_⟩⟩
  obtain ⟨v', hrun, hv'⟩ := (hagain fin hfin).2 v hv
  refine ⟨v', ?_, hv'⟩
  rw [← (hf s v (R.same_of_echoes hs hv)).1] at hrun
  exact hrun

/-- Tasks that repeat themselves. -/
def logic (R : Task.Rerun σ φ) : Task.Logic σ where
  same := R.same
  holds := R.Repeats
  pure := .pure
  throw := .throw
  bind := .bind
  adapt := .adapt
  get := .get

end Task.Rerun

/-! ## Zones -/

namespace Disk

variable {d t v fin disk : Disk} {place : Location} {p source : Path} {left : List String}

namespace Zone

variable {z : Zone}

/-- The disks of a repetition, given how the run ended: what is read is as it was, all that the run
left is there, and each place holds what it holds in the run or what it will hold in the end. -/
structure Echoes (z : Zone) (fin d v : Disk) : Prop where
  beyond : SameBeyond z.outer z.made v
  shape (place : Location) : v.shape place = fin.shape place
  content (place : Location) : v.content place = d.content place ∨
    v.content place = fin.content place

namespace Echoes

theorem lasts (h : z.Echoes fin d v) (hd : z.Rel d d) (hfin : Lasts d fin) : Lasts d v :=
  ⟨h.beyond.cwd.trans hd.beyond.cwd.symm, fun hs => (h.shape _).trans (hfin.shape hs)⟩

/-- Nothing is done again where directories were made. -/
theorem raised (h : z.Echoes fin d v) (ht : Raised d t) (hfin : Lasts t fin) :
    z.Echoes fin t v := by
  refine ⟨h.beyond, h.shape, fun l => ?_⟩
  rcases ht.made l with hl | ⟨-, hl⟩
  · have hsame : t.content l = d.content l := congrArg (Option.map Entry.timeless) hl
    rw [hsame]
    exact h.content l
  · have hv :=
      shape_eq_directory_iff.1 ((h.shape l).trans (hfin.shape (shape_eq_directory_iff.2 hl)))
    exact .inl (by rw [Disk.content, Disk.content, hv, hl])

/-- A file is written again. -/
theorem put (h : z.Echoes fin d v) (hp : IsInside z.base place) {bytes : ByteArray} {modified : Nat}
    (hfin : Lasts (d.put place (.file bytes modified)) fin) (modified' : Nat) :
    z.Echoes fin (d.put place (.file bytes modified)) (v.put place (.file bytes modified')) := by
  have hne : place ≠ [] := by
    rintro rfl
    exact hp.2 (List.prefix_nil.1 hp.1).symm
  refine ⟨⟨h.beyond.cwd, ?_⟩, fun l => ?_, fun l => ?_⟩
  · rw [entriesBeyond_put (z.inside.trans hp.1), h.beyond.beyond]
  · by_cases hl : l = place
    · subst hl
      rw [shape_put v hne]
      exact (hfin.shape (shape_put d hne _)).symm
    · rw [shape_put_of_ne v hl]
      exact h.shape l
  · by_cases hl : l = place
    · subst hl
      exact .inl (by rw [content_put v hne, content_put d hne]; rfl)
    · rw [content_put_of_ne v hl, content_put_of_ne d hl]
      exact h.content l

end Echoes

/-- A run in a zone, and its repetition on a disk that is the same beyond it. -/
def rerun (z : Zone) : StaticSite.Task.Rerun Disk Disk where
  fit d := z.Rel d d
  lasts := Lasts
  echoes := z.Echoes
  same d v := z.Rel d d ∧ SameBeyond z.outer z.made v
  same_self h := ⟨h, h.beyond.sameBeyond⟩
  same_of_echoes h he := ⟨h, he.beyond⟩

theorem resolve_again (hd : z.Rel d d) (hv : SameBeyond z.outer z.made v)
    (hp : IsReadable z.made z.outer p) : d.resolve true p = v.resolve true p :=
  (hp.same hd.beyond.agreeBeyond).trans (hp.same hv.agreeBeyond).symm

theorem repeats_ensureDirectory (h : ∀ q ∈ p.withAncestors, IsOnLine z.root q) :
    z.rerun.Repeats (Disk.ensureDirectory p) := by
  intro d _ t hd hrun
  have hraised := ensureDirectory_raises d p
  have hfit := (Simulation.ensureDirectory_respects (S := z.simulation) h d d hd).2
  rw [hrun] at hraised hfit
  refine ⟨hfit, fun fin hfin => ⟨hraised.lasts.trans hfin, fun v hv => ?_⟩⟩
  have hagain := hv.raised hraised hfin
  exact ⟨v, ensureDirectory_of_lasts hrun (hagain.lasts hfit hfin), hagain⟩

/-- A call that writes a file, which does not depend on what is in the zone. -/
theorem repeats_write {ε : Type} (hc : Continues z.root p left) {step : Disk → Except IoError Disk}
    (hrel : ∀ d, z.Rel d d → Matches z.Rel (step d) (step d))
    (hstep : ∀ d t, z.Rel d d → step d = .ok t → ∃ place bytes modified, d.writable p = .ok place ∧
      t = d.put place (.file bytes modified) ∧
      ∀ v, SameBeyond z.outer z.made v → v.writable p = .ok place →
        ∃ modified', step v = .ok (v.put place (.file bytes modified'))) (failure : IoError → ε) :
    z.rerun.Repeats (Disk.Task.call failure step) := by
  intro d _ t hd hrun
  have hs := Disk.Task.run_call_eq_ok.1 hrun
  obtain ⟨place, bytes, modified, hw, rfl, hagain⟩ := hstep d t hd hs
  have hfit := hrel d hd
  rw [hs] at hfit
  obtain ⟨rfl, hleft, -⟩ := writable_below hd.twins.reaches hd.settled.noLinks hc hw
  have hp := isInside_append z.base hleft
  have hfree : d.at? (z.base ++ left) = none ∨ d.shape (z.base ++ left) = some (.file .empty 0) :=
    (at?_of_writable hw).imp_right shape_eq_file_iff.2
  have hne : z.base ++ left ≠ [] := ne_root_of_writable hw
  have hlasts : Lasts d (d.put (z.base ++ left) (.file bytes modified)) := .put hne hfree
  refine ⟨hfit, fun fin hfin => ⟨hlasts.trans hfin, fun v hv => ?_⟩⟩
  have hshape := (hv.shape (z.base ++ left)).trans (hfin.shape (shape_put d hne _))
  obtain ⟨modified', hagain⟩ := hagain v hv.beyond
    (writable_of_lasts hw (hv.lasts hd (hlasts.trans hfin)) hshape)
  exact ⟨_, by rw [Disk.Task.run_call, hagain], hv.put hp hfin modified'⟩

theorem repeats_writeText {ε : Type} (hc : Continues z.root p left) (text : String)
    (failure : IoError → ε) : z.rerun.Repeats (Disk.Task.call failure (·.writeText p text)) := by
  refine repeats_write hc (fun d hd => hd.writeBytes hc _) (fun d t _ h => ?_) failure
  obtain ⟨place, hw, rfl⟩ := writeBytes_eq_ok_iff.1 h
  exact ⟨place, _, _, hw, rfl, fun v _ hw' => ⟨v.now, writeBytes_eq_ok_iff.2 ⟨place, hw', rfl⟩⟩⟩

theorem repeats_copyBytes (hs : IsReadable z.made z.outer source) (hc : Continues z.root p left) :
    z.rerun.Repeats (Disk.Task.call id (·.copyBytes source p) : Disk.Task IoError Unit) := by
  refine repeats_write hc (fun d hd => hd.copyBytes hs hc) (fun d t hd h => ?_) id
  obtain ⟨origin, bytes, modified, place, hr, hw, rfl⟩ := copyBytes_eq_ok_iff.1 h
  have again (v : Disk) (hv : SameBeyond z.outer z.made v) (hw' : v.writable p = .ok place) :=
    copyBytes_eq_ok_iff.2 ⟨origin, bytes, modified, place, (resolve_again hd hv hs).symm.trans hr,
      hw', rfl⟩
  by_cases hp : place = origin
  · simp only [if_pos hp] at again ⊢
    exact ⟨place, _, _, hw, rfl, fun v hv hw' => ⟨v.now, again v hv hw'⟩⟩
  · simp only [if_neg hp] at again ⊢
    exact ⟨place, _, _, hw, rfl, fun v hv hw' => ⟨modified, again v hv hw'⟩⟩

/-- Tasks in a zone that repeat themselves. -/
def repeating (z : Zone) : Logic z.simulation.toScope where
  toLogic := z.rerun.logic
  isFile h hp := isFile_congr (resolve_again h.1 h.2 hp)
  readText h hp := readText_congr (resolve_again h.1 h.2 hp)
  isDirectory h hp := isDirectory_congr (resolve_again h.1 h.2 hp.toIsReadable)
  listed h hp := (hp.listed_eq h.1.beyond.sameBeyond).trans (hp.listed_eq h.2).symm
  listing h := z.simulation.listing h.1
  ensureDirectory := repeats_ensureDirectory
  writeText text failure := fun ⟨_, hc⟩ => repeats_writeText hc text failure
  copyBytes hs := fun ⟨_, hc⟩ => repeats_copyBytes hs hc
  copyLink _ h := h.elim

end Zone

end Disk

end StaticSite
