import StaticSite.Proofs.Content.Pages
import StaticSite.Proofs.Disk.Chain
import StaticSite.Proofs.Site.Alike
import StaticSite.Proofs.Site.Sources

/-!
# What one page writes

A page of the content makes the directories on its way and writes in the last of them only. So it is
made alike on every disk that agrees with another one in that directory and has nothing but
directories on the way (`renderPage_transfer`), and pages of which none is above the other one can
be made in both orders (`renderPage_swap`).
-/

namespace StaticSite

open Disk Renderer

/-- Reading files of two disks. -/
def Disk.Simulation.reading (d d' : Disk) (files : Path → Prop)
    (same : ∀ p, files p → d.resolve true p = d'.resolve true p) : Disk.Simulation where
  rel e e' := e = d ∧ e' = d'
  files
  origins _ := False
  targets _ := False
  line _ := False
  links := False
  files_of_origin h := h.elim
  line_of_target h := h.elim
  line_of_parent h := h.elim
  isFile h hf := by
    rw [h.1, h.2]
    exact isFile_congr (same _ hf)
  readText h hf := by
    rw [h.1, h.2]
    exact readText_congr (same _ hf)
  isDirectory _ h := (or_self_iff.1 h).elim
  listed _ h := h.elim
  makeDirectory _ h := h.elim
  writeBytes _ _ h := h.elim
  copyBytes _ _ h := h.elim
  copyLink _ h := h.elim
  listing _ h := h.elim

/-- The names of the directories below the output that a page makes: none if the theme does not have
its template. -/
def ContentPage.way (page : ContentPage) (theme : ThemeSpec) : List String :=
  if (theme.templatePath? (page.spec.template.getD PageTarget.content.fallback)).isSome then
    page.chain
  else []

theorem ContentPage.isPrefix_way (page : ContentPage) (theme : ThemeSpec) :
    page.way theme <+: page.chain := by
  unfold way
  split
  · exact List.prefix_rfl
  · exact List.nil_prefix

namespace Renderer

variable {r : Renderer} {output : Path} {page : ContentPage} {path : Path}

theorem renderPage_of_none
    (h : r.theme.templatePath? (page.spec.template.getD PageTarget.content.fallback) = none) :
    r.renderPage output page = (do
      SiteTask.report (.unknownTemplate
        (if page.url = "" then PageTarget.content.stem else page.url)
        (page.spec.template.getD PageTarget.content.fallback))
      return none) := by
  unfold renderPage render
  dsimp only
  rw [h]

theorem renderPage_of_some
    (h : r.theme.templatePath? (page.spec.template.getD PageTarget.content.fallback) = some path) :
    r.renderPage output page = (do
      let text ← r.makePage page.spec (page.spec.template.getD PageTarget.content.fallback) path
        (if page.url = "" then PageTarget.content.stem else page.url)
        (r.websiteDirectory.join page.source) page.url
      SiteTask.onDisk (RenderError.asset ∘ Disk.CopyError.io)
        (Disk.ensureDirectory (output.join page.url))
      publishInto page.spec (r.websiteDirectory.join page.source) (output.join page.url)
        PageTarget.content.stem text
      return some (Url.absolute r.baseUrl page.url)) := by
  unfold renderPage render
  dsimp only
  rw [h]
  unfold renderWith
  simp only [bind_assoc, publish_eq]

theorem run_renderPage_of_some {w v : World} {address : Option String}
    (h : r.theme.templatePath? (page.spec.template.getD PageTarget.content.fallback) = some path) :
    (r.renderPage output page).run.run w = (.ok address, v) ↔ ∃ text m d,
      (r.makePage page.spec (page.spec.template.getD PageTarget.content.fallback) path
        (if page.url = "" then PageTarget.content.stem else page.url)
        (r.websiteDirectory.join page.source) page.url).run.run w = (.ok text, m) ∧
      (Disk.ensureDirectory (output.join page.url)).run.run m.disk = (.ok (), d) ∧
      (publishInto page.spec (r.websiteDirectory.join page.source) (output.join page.url)
        PageTarget.content.stem text).run.run ⟨d, m.session⟩ = (.ok (), v) ∧
      address = some (Url.absolute r.baseUrl page.url) := by
  rw [renderPage_of_some h]
  constructor
  · intro hrun
    obtain ⟨text, m, hmake, hbehind⟩ := Task.run_bind_eq_ok.1 hrun
    obtain ⟨_, _, hdir, hbehind⟩ := Task.run_bind_eq_ok.1 hbehind
    obtain ⟨d, hd, rfl⟩ := SiteTask.run_onDisk_eq_ok.1 hdir
    obtain ⟨_, _, hwrite, hreturn⟩ := Task.run_bind_eq_ok.1 hbehind
    cases hreturn
    exact ⟨text, m, d, hmake, hd, hwrite, rfl⟩
  · rintro ⟨text, m, d, hmake, hd, hwrite, rfl⟩
    exact Task.run_bind_eq_ok.2 ⟨text, m, hmake, Task.run_bind_eq_ok.2
      ⟨(), _, SiteTask.run_onDisk_eq_ok.2 ⟨d, hd, rfl⟩, Task.run_bind_eq_ok.2 ⟨(), v, hwrite, rfl⟩⟩⟩

end Renderer

namespace Builder

/-- An output directory in which the pages of a build can be made in any order. -/
structure IsReady (b : Builder) (plan : BuildPlan) (made : Disk) (base : Location) : Prop where
  wellFormed : made.WellFormed
  reaches : Reaches made b.output base
  noLinks : made.HasNoLinks base
  apart : b.IsApart plan made base
  stay : ∀ page ∈ plan.tree.pages plan.website.contents, Stay page.spec.resources.texts
  plain : ∀ page ∈ plan.tree.pages plan.website.contents, page.IsPlain

/-- A world in which a build makes its pages. -/
structure Underway (plan : BuildPlan) (made : Disk) (base : Location) (w : World) : Prop where
  settled : Settled made base w.disk
  knows : w.session.Knows (templates plan made)
  keyed : w.disk.Keyed

/-- The file of a page. -/
def pageFile (b : Builder) (page : ContentPage) : Path :=
  (b.output.join page.url).join "index.html"

/-- Sessions that came from two sessions by the same changes of one page. -/
def PageChanges (b : Builder) (plan : BuildPlan) (made : Disk) (page : ContentPage)
    (left right s s' : Session) : Prop :=
  SameChanges (templates plan made) (· = b.pageFile page)
    (fun name css => name = markdownStylesheet ∧ css = b.markdownCss) left right s s'

/-- Two runs of one page: the way is made where nothing was, the changes are in the page's
directory, where they are the same, and the sessions change alike. -/
structure PageRuns (b : Builder) (plan : BuildPlan) (made : Disk) (base : Location)
    (page : ContentPage) (w w' v v' : World) : Prop where
  clear : IsClear w.disk base (page.way plan.theme)
  clear' : IsClear w'.disk base (page.way plan.theme)
  settled : Settled (w.disk.raise base (page.way plan.theme)) (base ++ page.chain) v.disk
  settled' : Settled (w'.disk.raise base (page.way plan.theme)) (base ++ page.chain) v'.disk
  agree : AgreeBelow (base ++ page.chain) v.disk v'.disk
  changes : b.PageChanges plan made page w.session w'.session v.session v'.session

variable {b : Builder} {plan : BuildPlan} {made : Disk} {base : Location} {page : ContentPage}
  {w w' v : World} {left right s s' : Session} {name node : String} {path : Path}

theorem IsReady.extends (h : b.IsReady plan made base)
    (hp : page ∈ plan.tree.pages plan.website.contents) :
    Extends b.output (b.output.join page.url) page.chain := by
  have := extends_join b.output (h.plain page hp).names (h.plain page hp).ne_nil
  rwa [← chainUrl, ← (h.plain page hp).url] at this

/-- The text of a page is the same on all disks on which pages are made. -/
theorem makePage_same (h : b.IsReady plan made base)
    (hp : page ∈ plan.tree.pages plan.website.contents)
    (hw : Underway plan made base w) (hw' : Underway plan made base w')
    (hpath : plan.theme.templatePath? name = some path) {text : String} {m : World}
    (hrun : ((b.renderer plan).makePage page.spec name path node
      ((b.renderer plan).websiteDirectory.join page.source) page.url).run.run w = (.ok text, m)) :
    ∃ m', ((b.renderer plan).makePage page.spec name path node
      ((b.renderer plan).websiteDirectory.join page.source) page.url).run.run w' = (.ok text, m') ∧
      m.disk = w.disk ∧ m'.disk = w'.disk ∧
      b.PageChanges plan made page w.session w'.session m.session m'.session := by
  have same (p : Path) (hr : IsReadable made base p) :
      w.disk.resolve true p = w'.disk.resolve true p :=
    (hr.same hw.settled.agreeBeyond).trans (hr.same hw'.settled.agreeBeyond).symm
  have read (d d' : Disk) (p : Path) (hd : d = w.disk ∧ d' = w'.disk)
      (hr : IsReadable made base p) :
      d.readText p = made.readText p := by
    rw [hd.1]
    exact readText_congr (hr.same hw.settled.agreeBeyond)
  let S := World.Simulation.ofChanges (.reading w.disk w'.disk (IsReadable made base) same)
    (templates plan made) (· = b.pageFile page)
    (fun name css => name = markdownStylesheet ∧ css = b.markdownCss) hw.knows hw'.knows
  have allows :
      S.scope.AllowsMaking (b.renderer plan) page.spec name path (b.website.join page.source) :=
    allowsMaking h.apart hw.knows hw'.knows (fun _ hr => hr) read ⟨rfl, rfl⟩
      (mem_items_of_page hp) hpath
  obtain ⟨m', hrun', ⟨hd, hd'⟩, hs⟩ :=
    Task.Respects.run_eq_ok (S.logic.makePage allows) hrun w' ⟨⟨rfl, rfl⟩, .refl⟩
  exact ⟨m', hrun', hd, hd', hs⟩

/-- The directory of a page on two disks on which nothing but directories stands in its way. -/
def pageZone (h : b.IsReady plan made base) (hp : page ∈ plan.tree.pages plan.website.contents)
    (hw : Underway plan made base w) (hw' : Underway plan made base w')
    (hn : ∀ n ∈ page.chain, IsProper n) (hc : IsClear w.disk base page.chain)
    (hc' : IsClear w'.disk base page.chain) : Zone where
  made
  outer := base
  root := b.output.join page.url
  base := base ++ page.chain
  start := w.disk.raise base page.chain
  start' := w'.disk.raise base page.chain
  wellFormed := h.wellFormed
  inside := List.prefix_append _ _
  settled := hw.settled.raise page.chain
  settled' := hw'.settled.raise page.chain
  reaches := (h.extends hp).reaches_raise (hw.settled.reaches h.noLinks h.reaches) hn hc
  reaches' := (h.extends hp).reaches_raise (hw'.settled.reaches h.noLinks h.reaches) hn hc'

/-- What a page writes behind its way is the same where its directory is. -/
theorem publishInto_same (h : b.IsReady plan made base)
    (hp : page ∈ plan.tree.pages plan.website.contents) (hw : Underway plan made base w)
    (hw' : Underway plan made base w') (hn : ∀ n ∈ page.chain, IsProper n)
    (hc : IsClear w.disk base page.chain) (hc' : IsClear w'.disk base page.chain)
    (hagree : AgreeBelow (base ++ page.chain) w.disk w'.disk)
    (hs : b.PageChanges plan made page w.session w'.session s s') {text : String}
    (hrun : (publishInto page.spec ((b.renderer plan).websiteDirectory.join page.source)
      (b.output.join page.url) PageTarget.content.stem text).run.run
        ⟨w.disk.raise base page.chain, s⟩ = (.ok (), v)) :
    ∃ v', (publishInto page.spec ((b.renderer plan).websiteDirectory.join page.source)
      (b.output.join page.url) PageTarget.content.stem text).run.run
        ⟨w'.disk.raise base page.chain, s'⟩ = (.ok (), v') ∧
      Settled (w.disk.raise base page.chain) (base ++ page.chain) v.disk ∧
      Settled (w'.disk.raise base page.chain) (base ++ page.chain) v'.disk ∧
      AgreeBelow (base ++ page.chain) v.disk v'.disk ∧
      b.PageChanges plan made page w.session w'.session v.session v'.session := by
  let z : Zone := pageZone h hp hw hw' hn hc hc'
  have hrel : z.Rel (w.disk.raise base page.chain) (w'.disk.raise base page.chain) :=
    ⟨.refl (z.settled.noLinks.below z.inside), .refl (z.settled'.noLinks.below z.inside),
      hagree.raise hc hc'⟩
  let S := World.Simulation.ofChanges z.simulation (templates plan made) (· = b.pageFile page)
    (fun name css => name = markdownStylesheet ∧ css = b.markdownCss) hw.knows hw'.knows
  have allows :
      S.scope.AllowsWriting page.spec (b.website.join page.source) (b.output.join page.url)
      PageTarget.content.stem :=
    allowsWriting z h.apart hw.knows hw'.knows .content (mem_items_of_page hp) (.refl _)
      (h.stay page hp)
      (by simp [PageTarget.stem, Path.IsName]) rfl
  obtain ⟨v', hrun', hd, hchanges⟩ :=
    Task.Respects.run_eq_ok (S.logic.publishInto allows) hrun ⟨_, s'⟩ ⟨hrel, hs⟩
  exact ⟨v', hrun', hd.settled, hd.settled', hd.agree, hchanges⟩

/-- A page that is made in one world is made in every world with the same in its directory and
nothing but directories on its way. -/
theorem renderPage_transfer (h : b.IsReady plan made base)
    (hp : page ∈ plan.tree.pages plan.website.contents) (hw : Underway plan made base w)
    (hw' : Underway plan made base w') {address : Option String}
    (hrun : ((b.renderer plan).renderPage b.output page).run.run w = (.ok address, v))
    (hc' : IsClear w.disk base (page.way plan.theme) → IsClear w'.disk base (page.way plan.theme))
    (hagree : AgreeBelow (base ++ page.chain) w.disk w'.disk) :
    ∃ v', ((b.renderer plan).renderPage b.output page).run.run w' = (.ok address, v') ∧
      b.PageRuns plan made base page w w' v v' := by
  cases hpath : plan.theme.templatePath? (page.spec.template.getD PageTarget.content.fallback) with
  | none =>
    have hway : page.way plan.theme = [] := by rw [ContentPage.way, hpath]; rfl
    have hclear (d : Disk) : IsClear d base (page.way plan.theme) := by
      rw [hway]
      exact fun way hne hw => absurd (List.prefix_nil.1 hw) hne
    have hl {w : World} (hw : Underway plan made base w) : w.disk.HasNoLinks (base ++ page.chain) :=
      hw.settled.noLinks.below (List.prefix_append _ _)
    have report := @Renderer.renderPage_of_none (b.renderer plan) b.output page hpath
    rw [report] at hrun ⊢
    cases hrun
    refine ⟨_, rfl, hclear _, hclear _, ?_, ?_, hagree, SameChanges.refl.apply (.report _) trivial⟩
    · rw [hway]
      exact .refl (hl hw)
    · rw [hway]
      exact .refl (hl hw')
  | some path =>
    have hway : page.way plan.theme = page.chain := by rw [ContentPage.way, hpath]; rfl
    have hne := (h.plain page hp).ne_nil
    have hext := h.extends hp
    have run (w v : World) := @Renderer.run_renderPage_of_some
      (b.renderer plan) b.output page path w v
      address hpath
    obtain ⟨text, m, d, hmake, hdir, hwrite, rfl⟩ := (run w v).1 hrun
    obtain ⟨m', hmake', hd, hd', hs⟩ := makePage_same h hp hw hw' hpath hmake
    rw [hd] at hdir
    have hr := hw.settled.reaches h.noLinks h.reaches
    have hr' := hw'.settled.reaches h.noLinks h.reaches
    obtain ⟨hf, hn, hc⟩ := isClear_of_ensureDirectory hext hne hr
      (hw.settled.noLinks.isLinkless _) (by rw [hdir])
    have hcw : IsClear w.disk base (page.way plan.theme) := by rwa [hway]
    have hcw' : IsClear w'.disk base page.chain := by
      rw [← hway]
      exact hc' hcw
    have hmade := ensureDirectory_of_isClear hext hne hf hr hn hc
    have hmade' := ensureDirectory_of_isClear hext hne hf hr' hn hcw'
    rw [hmade] at hdir
    cases hdir
    obtain ⟨v', hwrite', hset, hset', hagree', hchanges⟩ :=
      publishInto_same h hp hw hw' hn hc hcw' hagree hs hwrite
    rw [← hd'] at hmade' hwrite'
    have hraise (d : Disk) : d.raise base (page.way plan.theme) = d.raise base page.chain := by
      rw [hway]
    rw [← hraise] at hset hset'
    exact ⟨v', (run w' v').2 ⟨text, m', _, hmake', hmade', hwrite', rfl⟩,
      hcw, hc' hcw, hset, hset', hagree', hchanges⟩

/-! ## What a page leaves -/

variable {other : ContentPage} {v' : World} {place : Location} {names : List String}

theorem prefix_of_isOn (h : IsOn base (page.way plan.theme) place) : place <+: base ++ page.chain :=
  h.2.trans ((List.prefix_append_right_inj base).2 (page.isPrefix_way plan.theme))

namespace PageRuns

variable (h : b.PageRuns plan made base page w w' v v')

include h

theorem symm : b.PageRuns plan made base page w' w v' v where
  clear := h.clear'
  clear' := h.clear
  settled := h.settled'
  settled' := h.settled
  agree place hp := (h.agree place hp).symm
  changes := h.changes.symm

open Classical in
/-- Beyond its directory a page makes its way and changes nothing. -/
theorem beyond (hp : ¬ base ++ page.chain <+: place) : v.disk.at? place =
    if IsOn base (page.way plan.theme) place then some .directory else w.disk.at? place := by
  rw [h.settled.at?_eq hp, at?_raise h.clear]

/-- A page changes nothing in a directory that is neither above nor below its own one. -/
theorem apart (hp : ¬ page.chain <+: names) (hn : ¬ names <+: page.chain) :
    AgreeBelow (base ++ names) v.disk w.disk := by
  intro place hplace
  rw [h.beyond, if_neg]
  · intro hon
    exact hn ((List.prefix_append_right_inj base).1 (hplace.trans (prefix_of_isOn hon)))
  · intro hbelow
    rcases List.prefix_or_prefix_of_prefix hbelow hplace with hc | hc
    · exact hp ((List.prefix_append_right_inj base).1 hc)
    · exact hn ((List.prefix_append_right_inj base).1 hc)

/-- A page leaves a way clear that does not lead into its directory. -/
theorem isClear_iff (hp : ¬ page.chain <+: names) :
    IsClear v.disk base names ↔ IsClear w.disk base names := by
  have hbeyond {way : List String} (hw : way <+: names) : ¬ base ++ page.chain <+: base ++ way :=
    fun hc => hp (((List.prefix_append_right_inj base).1 hc).trans hw)
  constructor
  · intro hc way hne hw
    have hv := hc way hne hw
    rw [h.beyond (hbeyond hw)] at hv
    split at hv
    · rename_i hon
      obtain ⟨_, hne', hway, he⟩ := isOn_iff.1 hon
      exact h.clear way hne (List.append_cancel_left he ▸ hway)
    · exact hv
  · intro hc way hne hw
    rw [h.beyond (hbeyond hw)]
    split
    · exact .inr rfl
    · exact hc way hne hw

end PageRuns

theorem renderPage_alike (b : Builder) (plan : BuildPlan) (page : ContentPage) :
    alikeWorlds.Respects ((b.renderer plan).renderPage b.output page) :=
  alikeWorlds.logic.render fun _ _ => alikeWorlds_allowsPage _ _ _ _ _

theorem Underway.alike (hw : Underway plan made base w) : alikeWorlds.rel w w :=
  ⟨⟨fun _ => rfl, rfl, rfl, hw.keyed, hw.keyed⟩, .refl _⟩

theorem Underway.sameContent {v' : World} (hv : Underway plan made base v)
    (hv' : Underway plan made base v') (h : ∀ place, v.disk.at? place = v'.disk.at? place) :
    SameContent v.disk v'.disk :=
  ⟨h, hv.settled.cwd.trans hv'.settled.cwd.symm, hv.settled.now.trans hv'.settled.now.symm,
    hv.keyed, hv'.keyed⟩

theorem renderPage_underway (h : b.IsReady plan made base)
    (hp : page ∈ plan.tree.pages plan.website.contents) (hw : Underway plan made base w)
    {address : Option String}
    (hrun : ((b.renderer plan).renderPage b.output page).run.run w = (.ok address, v)) :
    Underway plan made base v := by
  obtain ⟨v', hv, hruns⟩ := renderPage_transfer h hp hw hw hrun id fun _ _ => rfl
  cases hrun.symm.trans hv
  refine ⟨(hw.settled.raise _).trans hruns.settled (List.prefix_append _ _), ?_, ?_⟩
  · obtain ⟨changes, hall, hs, -⟩ := hruns.changes
    rw [hs]
    exact hw.knows.applyAll hall
  · obtain ⟨_, hv', hrel, -⟩ := (renderPage_alike b plan page).run_eq_ok hrun w hw.alike
    exact hrel.keyed

theorem pageFile_components_ne (h : b.IsReady plan made base)
    (hp : page ∈ plan.tree.pages plan.website.contents)
    (ho : other ∈ plan.tree.pages plan.website.contents) (hne : page.chain ≠ other.chain) :
    (b.pageFile page).components ≠ (b.pageFile other).components := by
  have steps {page : ContentPage} (hp : page ∈ plan.tree.pages plan.website.contents) :
      (b.pageFile page).steps = b.output.steps ++ page.chain ++ ["index.html"] := by
    rw [pageFile, Path.steps_join _ (by simp [Path.IsRelative]), (h.extends hp).steps]
    rfl
  intro he
  have hnil : (b.pageFile page).components ≠ [] := by simp [Path.components_eq, steps hp]
  have hsteps := (Path.lead_steps_of_components_append hnil ((List.append_nil _).trans he).symm).2
  rw [List.append_nil, steps hp, steps ho] at hsteps
  exact hne (List.append_cancel_left (List.append_cancel_right hsteps)).symm

end Builder

end StaticSite
