import StaticSite.Proofs.Disk.Linkless
import StaticSite.Proofs.Site.Alike
import StaticSite.Proofs.Site.Containment
import StaticSite.Proofs.Spec.Themes

/-!
# The stylesheets that a build registers

A build starts with the website's own stylesheets (`stylesheets_openSession`), and each page that
has markdown files and a template registers the one of markdown (`Renderer.carries_render`). So
behind the last page, whatever the order of the pages was, the build has its own stylesheets and, if
one of the pages asked for it, that of markdown (`run_publishPages_stylesheets`).
-/

namespace StaticSite

open Disk

/-! ## The website's own stylesheets -/

namespace WebsiteSpec

variable {fields : Fields Json} {site : WebsiteSpec} {disk : Disk} {directory : Path}

theorem isOrdered_stylesheets (hf : (Json.object fields).IsOrdered)
    (h : ofFields fields = .ok site) :
    site.stylesheets.IsOrdered := by
  have hread {name : String} {sheets : Fields String}
      (h : fields.read? name (Json.fieldsOf? Json.text?) = .ok (some sheets)) :
      sheets.IsOrdered := by
    obtain ⟨j, hj, hs⟩ := Fields.read?_eq_ok_some.1 h
    have hordered := hf.of_get? hj
    have hwritten : Json.object (sheets.mapValues Json.string) = j :=
      Json.eq_of_fieldsOf? (fun _ _ => Json.eq_of_text?) hs
    rw [← hwritten] at hordered
    have hnames : (sheets.mapValues Json.string).names = sheets.names := by
      simp [Fields.mapValues, Fields.names]
    exact Fields.isOrdered_iff.2 (hnames ▸
      Fields.isOrdered_iff.1 (Json.isOrdered_object_iff.1 hordered).1)
  unfold ofFields at h
  simp only [Except.bind_eq_ok_iff] at h
  obtain ⟨_, -, _, -, _, -, _, -, sheets, hsheets, _, -, _, -, _, -, _, -, _, -, _, -, _, -, _, -,
    h⟩ := h
  cases h
  obtain ⟨first, hfirst, hsheets⟩ := Except.bind_eq_ok_iff.1 hsheets
  obtain ⟨second, hsecond, hsheets⟩ := Except.bind_eq_ok_iff.1 hsheets
  rcases first with _ | first <;> rcases second with _ | second <;> cases hsheets
  · exact .nil
  · exact hread hsecond
  · exact hread hfirst

theorem isOrdered_of_loadFrom (h : loadFrom disk directory = .ok site) :
    site.stylesheets.IsOrdered := by
  obtain ⟨document, hd, h⟩ := Except.bind_eq_ok_iff.1 h
  have hordered := Config.isOrdered_of_readDocument hd
  split at h
  · split at h
    · cases h
    · split at h
      · rename_i hfields
        cases h
        exact isOrdered_stylesheets hordered hfields
      · cases h
  · cases h

end WebsiteSpec

namespace Builder

variable {b : Builder} {plan : BuildPlan} {disk : Disk}

/-- Each stylesheet is read from its file. -/
theorem readStylesheets_eq_ok {website : Path} {files sheets : Fields String}
    (h : readStylesheets website disk files = .ok sheets) :
    List.Forall₂ (fun file sheet => sheet.1 = file.1 ∧
      disk.readText (website.join file.2) = .ok sheet.2)
      files sheets := by
  induction files generalizing sheets with
  | nil =>
    cases h
    exact .nil
  | cons file rest ih =>
    unfold readStylesheets at h
    dsimp only at h
    split at h
    · cases h
    · rename_i css hcss
      obtain ⟨others, ho, rfl⟩ := Except.map_eq_ok_iff.1 h
      exact .cons ⟨rfl, hcss⟩ (ih ho)

theorem stylesheets_of_plan (hplan : b.plan disk = .ok plan) :
    List.Forall₂ (fun file sheet => sheet.1 = file.1 ∧
      disk.readText (b.website.join file.2) = .ok sheet.2)
      plan.website.stylesheets plan.stylesheets :=
  readStylesheets_eq_ok (plan_eq_ok_iff.1 hplan).2.2.1

/-- What the website names was read. -/
theorem exists_stylesheet {name file : String} (hplan : b.plan disk = .ok plan)
    (hm : (name, file) ∈ plan.website.stylesheets) :
    ∃ sheet ∈ plan.stylesheets, sheet.1 = name ∧
      disk.readText (b.website.join file) = .ok sheet.2 := by
  obtain ⟨hlength, hall⟩ := List.forall₂_iff_get.1 (stylesheets_of_plan hplan)
  obtain ⟨i, hi, hfile⟩ := List.mem_iff_getElem.1 hm
  have hi' : i < plan.stylesheets.length := hlength ▸ hi
  obtain ⟨hname, hcss⟩ := hall i hi hi'
  rw [List.get_eq_getElem, List.get_eq_getElem, hfile] at hname hcss
  exact ⟨plan.stylesheets[i], List.getElem_mem hi', hname, hcss⟩

theorem names_stylesheets (hplan : b.plan disk = .ok plan) :
    plan.stylesheets.names = plan.website.stylesheets.names := by
  have hall := stylesheets_of_plan hplan
  revert hall
  generalize plan.website.stylesheets = files
  generalize plan.stylesheets = sheets
  intro hall
  induction hall with
  | nil => rfl
  | cons h _ ih => exact congrArg₂ List.cons h.1 ih

theorem isOrdered_stylesheets (hplan : b.plan disk = .ok plan) : plan.stylesheets.IsOrdered := by
  rw [Fields.isOrdered_iff, names_stylesheets hplan, ← Fields.isOrdered_iff]
  exact WebsiteSpec.isOrdered_of_loadFrom (plan_eq_ok_iff.1 hplan).1

theorem stylesheets_registerAll {sheets : Fields String} (hs : sheets.names.Nodup)
    (session : Session) (hnew : ∀ n ∈ sheets.names, Fields.get? session.stylesheets n = none) :
    (registerAll session sheets).stylesheets = session.stylesheets.overlay sheets := by
  induction sheets generalizing session with
  | nil => rfl
  | cons sheet rest ih =>
    obtain ⟨hfirst, hrest⟩ := List.nodup_cons.1 hs
    have hregister : (session.register sheet.1 sheet.2).stylesheets =
        session.stylesheets.insert sheet.1 sheet.2 := by
      rw [Session.register, if_neg]
      simp [Session.hasStylesheet, Fields.has, hnew sheet.1 List.mem_cons_self]
    have hothers : ∀ n ∈ Fields.names rest,
        Fields.get? (session.register sheet.1 sheet.2).stylesheets n = none := by
      intro n hn
      have hne : n ≠ sheet.1 := fun he => hfirst (he ▸ hn)
      rw [hregister, Fields.get?_insert, if_neg hne]
      exact hnew n (List.mem_cons_of_mem _ hn)
    exact (ih hrest _ hothers).trans (congrArg (Fields.overlay · rest) hregister)

theorem stylesheets_openSession (hplan : b.plan disk = .ok plan) :
    (openSession plan).stylesheets = plan.stylesheets := by
  have hordered := isOrdered_stylesheets hplan
  exact (stylesheets_registerAll hordered.nodup {} fun _ _ => rfl).trans hordered.ofList_self

end Builder

/-! ## Worlds with given stylesheets -/

/-- Stylesheets and, if it is used, that of markdown, unless there is one of its name. -/
def withMarkdown (css : String) (used : Bool) (sheets : Fields String) : Fields String :=
  if used && !Fields.has sheets markdownStylesheet then sheets.insert markdownStylesheet css
  else sheets

theorem withMarkdown_withMarkdown (css : String) (used again : Bool) (sheets : Fields String) :
    withMarkdown css again (withMarkdown css used sheets) =
      withMarkdown css (used || again) sheets := by
  have hinsert : Fields.has (sheets.insert markdownStylesheet css) markdownStylesheet = true := by
    rw [Fields.has_insert, beq_self_eq_true, Bool.true_or]
  cases hs : Fields.has sheets markdownStylesheet <;> cases used <;> cases again <;>
    simp [withMarkdown, hs, hinsert]

theorem get?_withMarkdown (css : String) (used : Bool) (sheets : Fields String) (name : String) :
    Fields.get? (withMarkdown css used sheets) name = (Fields.get? sheets name).or
      (if used = true ∧ name = markdownStylesheet then some css else none) := by
  unfold withMarkdown Fields.has
  cases used with
  | false => simp
  | true =>
    by_cases hn : name = markdownStylesheet
    · subst hn
      cases hs : Fields.get? sheets markdownStylesheet <;> simp [hs, Fields.get?_insert]
    · split <;> simp [hn, Fields.get?_insert]

theorem mem_names_withMarkdown {css : String} {used : Bool} {sheets : Fields String}
    {name : String} :
    name ∈ (withMarkdown css used sheets).names ↔
      name ∈ sheets.names ∨ used = true ∧ name = markdownStylesheet := by
  rw [← not_iff_not, ← Fields.get?_eq_none_iff, not_or, ← Fields.get?_eq_none_iff,
    get?_withMarkdown, Option.or_eq_none_iff]
  simp

theorem isOrdered_withMarkdown {sheets : Fields String} (h : sheets.IsOrdered) (css : String)
    (used : Bool) :
    (withMarkdown css used sheets).IsOrdered := by
  unfold withMarkdown
  split
  · exact h.insert _ _
  · exact h

namespace Session

theorem stylesheets_register (s : Session) (css : String) :
    (s.register markdownStylesheet css).stylesheets = withMarkdown css true s.stylesheets := by
  rw [register, hasStylesheet, withMarkdown]
  cases Fields.has s.stylesheets markdownStylesheet <;> rfl

theorem stylesheets_template {s s' : Session} {disk : Disk} {name : String} {path : Path}
    {t : Template.Compiled} (h : s.template disk name path = .ok (t, s')) :
    s'.stylesheets = s.stylesheets := by
  unfold template at h
  split at h
  · cases h
    rfl
  · obtain ⟨text, -, h⟩ := Except.bind_eq_ok_iff.1 h
    cases h
    rfl

end Session

/-- A world whose disk has the links of another one and whose session has the given stylesheets. -/
structure World.Carries (made : Disk) (sheets : Fields String) (w : World) : Prop where
  disk : made.KeepsLinks w.disk
  stylesheets : w.session.stylesheets = sheets

/-- One run of what copies no links and registers only what is registered. -/
def World.Simulation.carrying (made : Disk) (sheets : Fields String) : World.Simulation where
  disks := .linkless made
  sessions s s' := s = s' ∧ s.stylesheets = sheets
  templates _ _ := True
  claims _ := True
  sheets name _ := Fields.has sheets name = true
  report _ h := ⟨by rw [h.1], h.2⟩
  claim {s s' file} h _ := ⟨by rw [h.1], (Session.stylesheets_apply s (.claim file)).trans h.2⟩
  register {s s' name css} h hs := by
    refine ⟨by rw [h.1], (Session.stylesheets_apply s (.register name css)).trans ?_⟩
    rw [Change.sheets, h.2, if_pos hs]
  template {d d' s s' name path} hd h _ := by
    obtain ⟨rfl, -⟩ := hd
    obtain ⟨rfl, hs⟩ := h
    cases ht : s.template d name path with
    | error cause => exact rfl
    | ok found => exact ⟨rfl, rfl, (Session.stylesheets_template ht).trans hs⟩

namespace World.Carries

variable {made : Disk} {sheets : Fields String} {w v : World} {ε α : Type}

theorem run (h : Carries made sheets w) {x : SiteTask ε α}
    (hx : (World.Simulation.carrying made sheets).logic.holds x) {outcome : Except ε α}
    (hrun : x.run.run w = (outcome, v)) : Carries made sheets v := by
  have hrel := (hx w w ⟨⟨rfl, h.disk⟩, rfl, h.stylesheets⟩).2
  rw [hrun] at hrel
  exact ⟨hrel.1.2, hrel.2.2⟩

end World.Carries

/-! ## Pages -/

/-- Whether the page of a specification is made and has markdown files. -/
def ItemSpec.showsMarkdown (theme : ThemeSpec) (target : PageTarget) (spec : ItemSpec) : Bool :=
  (theme.templatePath? (spec.template.getD target.fallback)).isSome && !spec.markdowns.isEmpty

/-- No link is among the resources of a directory, or below them. -/
def Resources.HaveNoLinks (disk : Disk) (source : Path) (resources : Resources) : Prop :=
  ∀ name target, (name, target) ∈ resources → unusable? name target = none →
    disk.LeadsToNoLinks (source.join name)

theorem Resources.HaveNoLinks.allows {made : Disk} {source : Path} {resources : Resources}
    (h : Resources.HaveNoLinks made source resources) (sheets : Fields String) (output : Path) :
    (World.Simulation.carrying made sheets).scope.AllowsResources source output resources :=
  fun name target hm hu => ⟨h name target hm hu, trivial, fun _ => trivial⟩

namespace Renderer

variable {r : Renderer} {spec : ItemSpec} {template node url page : String}
  {templatePath source output : Path} {values : Fields Json} {made : Disk} {sheets : Fields String}
  {w v : World}

/-- A page with markdown links the stylesheet of markdown once, unless it names it more often. -/
theorem count_linkedStylesheets (h : spec.markdowns ≠ []) :
    (linkedStylesheets spec).count markdownStylesheet =
      max 1 (spec.stylesheets.count markdownStylesheet) := by
  have hsome : spec.markdowns.isEmpty = false := by simpa using h
  rw [linkedStylesheets, hsome, Bool.false_or]
  split
  · rename_i hc
    have hpos : 0 < spec.stylesheets.count markdownStylesheet :=
      List.count_pos_iff.2 (List.contains_iff_mem.1 hc)
    omega
  · rename_i hc
    have hzero : spec.stylesheets.count markdownStylesheet = 0 :=
      List.count_eq_zero.2 fun hm => hc (List.contains_iff_mem.2 hm)
    rw [List.count_append, List.count_singleton_self, hzero]
    rfl

/-- What a page is finished with. -/
theorem finish_of_fillPage
    (h : (r.fillPage spec template templatePath node source url values).run.run w = (.ok page, v)) :
    ∃ html inlineStyle, Page.finish html { stylesheets := linkedStylesheets spec, inlineStyle } =
      .ok page := by
  obtain ⟨html, _, -, h⟩ := Task.run_bind_eq_ok.1 h
  obtain ⟨inlineStyle, _, -, h⟩ := Task.run_bind_eq_ok.1 h
  refine ⟨html, inlineStyle, ?_⟩
  split at h
  · cases h
  · rename_i hfinish
    cases h
    exact hfinish

theorem run_makePage
    (h : (r.makePage spec template templatePath node source url).run.run w = (.ok page, v)) :
    ∃ values m, (addMarkdowns node source spec.markdowns spec.values).run.run w = (.ok values, m) ∧
      (r.fillPage spec template templatePath node source url values).run.run
        (if spec.markdowns.isEmpty then m
          else { m with session := m.session.register markdownStylesheet r.markdownCss }) =
          (.ok page, v) := by
  rw [makePage_eq] at h
  obtain ⟨values, m, hvalues, h⟩ := Task.run_bind_eq_ok.1 h
  refine ⟨values, m, hvalues, ?_⟩
  cases hm : spec.markdowns.isEmpty
  · simp only [hm] at h
    obtain ⟨_, _, hregister, h⟩ := Task.run_bind_eq_ok.1 h
    cases hregister
    exact h
  · simp only [hm] at h
    exact h

theorem carries_makePage (hw : w.Carries made sheets)
    (h : (r.makePage spec template templatePath node source url).run.run w = (.ok page, v)) :
    v.Carries made (withMarkdown r.markdownCss (!spec.markdowns.isEmpty) sheets) := by
  obtain ⟨values, m, hvalues, hfill⟩ := run_makePage h
  have hm :=
    hw.run ((World.Simulation.carrying made sheets).logic.addMarkdowns (fun _ _ _ => trivial) _)
      hvalues
  refine World.Carries.run ?_ (World.Logic.fillPage _ trivial fun _ _ => trivial) hfill
  cases spec.markdowns.isEmpty
  · exact ⟨hm.disk, (m.session.stylesheets_register _).trans (by rw [hm.stylesheets]; rfl)⟩
  · exact hm

theorem carries_render {source : String} {target : PageTarget} {address : Option String}
    (hres : Resources.HaveNoLinks made (r.websiteDirectory.join source) spec.resources)
    (hw : w.Carries made sheets)
    (h : (r.render (some spec) source output url target).run.run w = (.ok address, v)) :
    v.Carries made (withMarkdown r.markdownCss (spec.showsMarkdown r.theme target) sheets) := by
  unfold render at h
  dsimp only at h
  unfold ItemSpec.showsMarkdown
  split at h
  · rename_i hnone
    rw [hnone]
    let L := (World.Simulation.carrying made sheets).logic
    exact hw.run (L.bind (L.report _) fun _ => L.pure _) h
  · rename_i path hsome
    rw [hsome, Option.isSome_some, Bool.true_and]
    obtain ⟨⟨⟩, _, hwith, hreturn⟩ := Task.run_bind_eq_ok.1 h
    cases hreturn
    obtain ⟨page, m, hmake, hpublish⟩ := Task.run_bind_eq_ok.1 hwith
    let L := (World.Simulation.carrying made
      (withMarkdown r.markdownCss (!spec.markdowns.isEmpty) sheets)).logic
    rw [publish_eq] at hpublish
    exact (carries_makePage hw hmake).run (L.bind (L.ensureTarget trivial _) fun _ =>
      L.publishInto ⟨trivial, trivial, hres.allows _ _⟩) hpublish

/-- Behind pages, the stylesheet of markdown is registered if one of them asked for it. -/
theorem carries_renderAt {pages : List ContentPage} {positions : List Nat}
    {addresses : List (Nat × String)}
    (hres : ∀ page ∈ pages,
      Resources.HaveNoLinks made (r.websiteDirectory.join page.source) page.spec.resources)
    (hw : w.Carries made sheets)
    (h : (r.renderAt output pages positions).run.run w = (.ok addresses, v)) :
    v.Carries made (withMarkdown r.markdownCss
      ((positions.filterMap (pages[·]?)).any fun page => page.spec.showsMarkdown r.theme .content)
      sheets) := by
  induction positions generalizing w sheets addresses with
  | nil =>
    cases h
    exact hw
  | cons position rest ih =>
    unfold renderAt at h
    cases hp : pages[position]? with
    | none =>
      rw [hp] at h
      obtain ⟨_, _, hnone, h⟩ := Task.run_bind_eq_ok.1 h
      cases hnone
      obtain ⟨_, _, hrest, hreturn⟩ := Task.run_bind_eq_ok.1 h
      cases hreturn
      rw [List.filterMap_cons_none hp]
      exact ih hw hrest
    | some page =>
      rw [hp] at h
      obtain ⟨_, m, hpage, h⟩ := Task.run_bind_eq_ok.1 h
      obtain ⟨_, _, hrest, hreturn⟩ := Task.run_bind_eq_ok.1 h
      cases hreturn
      rw [List.filterMap_cons_some hp, List.any_cons, ← withMarkdown_withMarkdown]
      exact ih (carries_render (hres page (List.mem_of_getElem? hp)) hw hpage) hrest

end Renderer

/-! ## Builds -/

namespace Builder

variable {b : Builder} {plan : BuildPlan} {disk made : Disk} {sheets : Fields String} {w v : World}

/-- The specifications of the pages that a build renders, each with its target: those of the content
in the order in which they are rendered, the main page, and the one for addresses that are not
found. -/
def rendered (b : Builder) (plan : BuildPlan) : List (ItemSpec × PageTarget) :=
  let pages := plan.tree.pages plan.website.contents
  ((b.order pages).filterMap (pages[·]?)).map (fun page => (page.spec, .content)) ++
    [(plan.website.mainPage.item, .content), (plan.website.notFound.item, .singleton "404")]

/-- Whether a page that a build renders has markdown files and a template that the theme has. -/
def usesMarkdown (b : Builder) (plan : BuildPlan) : Bool :=
  (b.rendered plan).any fun (spec, target) => spec.showsMarkdown plan.theme target

/-- No link is among the resources of a build, or below them. -/
def HasNoLinkedSources (b : Builder) (plan : BuildPlan) (disk : Disk) : Prop :=
  ∀ source resources, (source, resources) ∈ b.resources plan →
    Resources.HaveNoLinks disk source resources

theorem HasNoLinkedSources.mono (h : b.HasNoLinkedSources plan disk) (hk : disk.KeepsLinks made) :
    b.HasNoLinkedSources plan made :=
  fun source resources hm name target hn hu => (h source resources hm name target hn hu).mono hk

theorem carries_renderSingle {page : PageSpec} {target : PageTarget} {isThere : Bool}
    (hres : Resources.HaveNoLinks made (b.website.join page.basePath) page.item.resources)
    (hw : w.Carries made sheets)
    (h : (b.renderSingle (b.renderer plan) page target).run.run w = (.ok isThere, v)) :
    v.Carries made
      (withMarkdown b.markdownCss (page.item.showsMarkdown plan.theme target) sheets) := by
  unfold renderSingle at h
  obtain ⟨_, _, hrender, hreturn⟩ := Task.run_bind_eq_ok.1 h
  cases hreturn
  exact Renderer.carries_render (r := b.renderer plan) hres hw (Task.run_adapt_eq_ok.1 hrender)

/-- Behind the last page, the stylesheets are published and then the rules for web robots. -/
theorem run_publishRest {urls : List String} {report : BuildReport}
    (hsources : b.HasNoLinkedSources plan made) (hw : w.Carries made sheets)
    (h : (b.publishRest plan urls).run.run w = (.ok report, v)) :
    ∃ m m' rules, m.Carries made (withMarkdown b.markdownCss
        (plan.website.mainPage.item.showsMarkdown plan.theme .content ||
          plan.website.notFound.item.showsMarkdown plan.theme (.singleton "404")) sheets) ∧
      b.publishStylesheets.run.run m = (.ok report.stylesheets, m') ∧
      (Robots.write plan.website.robots (Sitemap.location b.address) b.output).run.run m'.disk =
        (.ok rules, v.disk) := by
  let L := (World.Simulation.carrying made sheets).logic
  have hcopy (source : Path) (resources : Resources) (hm : (source, resources) ∈ b.resources plan) :
      L.holds (b.copyResources source resources) :=
    L.adapt _ (L.copyAll ((hsources source resources hm).allows sheets b.output))
  have hitem {source : Path} {item : ItemSpec} (hi : (source, item) ∈ b.items plan) :=
    hsources _ _ (mem_resources_of_mem_items hi)
  obtain ⟨_, w₁, htheme, h⟩ := Task.run_bind_eq_ok.1 h
  obtain ⟨_, w₂, hwebsite, h⟩ := Task.run_bind_eq_ok.1 h
  obtain ⟨_, w₃, hsitemap, h⟩ := Task.run_bind_eq_ok.1 h
  obtain ⟨_, w₄, hverification, h⟩ := Task.run_bind_eq_ok.1 h
  obtain ⟨_, w₅, haliases, h⟩ := Task.run_bind_eq_ok.1 h
  obtain ⟨_, w₆, hmain, h⟩ := Task.run_bind_eq_ok.1 h
  obtain ⟨_, w₇, hnot, h⟩ := Task.run_bind_eq_ok.1 h
  obtain ⟨_, w₈, hpublish, h⟩ := Task.run_bind_eq_ok.1 h
  obtain ⟨rules, w₉, hrobots, h⟩ := Task.run_bind_eq_ok.1 h
  cases h
  obtain ⟨_, hrules, rfl⟩ := SiteTask.run_onDisk_eq_ok.1 hrobots
  have h₁ := hw.run (hcopy _ _ (by simp [Builder.resources])) htheme
  have h₂ := h₁.run (hcopy _ _ (by simp [Builder.resources])) hwebsite
  have h₃ := h₂.run (L.writeText trivial _ _) hsitemap
  have h₄ := h₃.run (L.writeVerification fun _ _ _ => trivial) hverification
  have h₅ := h₄.run (L.adapt _ (L.writeAll fun _ _ _ _ => ⟨trivial, trivial, trivial⟩)) haliases
  have h₆ := carries_renderSingle (hitem (by simp [items])) h₅ hmain
  have h₇ := carries_renderSingle (hitem (by simp [items])) h₆ hnot
  rw [withMarkdown_withMarkdown] at h₇
  exact ⟨w₇, w₈, rules, h₇, hpublish, hrules⟩

/-- Behind the last page, there are the website's own stylesheets and, if a page used it, that of
markdown. -/
theorem run_publishPages_stylesheets {report : BuildReport}
    (hsources : b.HasNoLinkedSources plan made)
    (hw : w.Carries made sheets) (h : (b.publishPages plan).run.run w = (.ok report, v)) :
    ∃ m m' rules, m.Carries made (withMarkdown b.markdownCss (b.usesMarkdown plan) sheets) ∧
      b.publishStylesheets.run.run m = (.ok report.stylesheets, m') ∧
      (Robots.write plan.website.robots (Sitemap.location b.address) b.output).run.run m'.disk =
        (.ok rules, v.disk) := by
  obtain ⟨urls, m, hpages, hrest⟩ := Task.run_bind_eq_ok.1 h
  obtain ⟨addresses, _, hat, hreturn⟩ := Task.run_bind_eq_ok.1 (Task.run_adapt_eq_ok.1 hpages)
  cases hreturn
  have hresources : ∀ page ∈ plan.tree.pages plan.website.contents,
      Resources.HaveNoLinks made (b.website.join page.source) page.spec.resources :=
    fun page hp => hsources _ _ (mem_resources_of_mem_items (mem_items_of_page hp))
  have hcontent : World.Carries made (withMarkdown b.markdownCss _ sheets) m :=
    Renderer.carries_renderAt (r := b.renderer plan) hresources hw hat
  obtain ⟨n, n', rules, hn, hpublish, hrobots⟩ := run_publishRest hsources hcontent hrest
  rw [withMarkdown_withMarkdown] at hn
  refine ⟨n, n', rules, ?_, hpublish, hrobots⟩
  have hused : b.usesMarkdown plan = (((b.order (plan.tree.pages plan.website.contents)).filterMap
      ((plan.tree.pages plan.website.contents)[·]?)).any
        (fun page => page.spec.showsMarkdown plan.theme .content) ||
      (plan.website.mainPage.item.showsMarkdown plan.theme .content ||
        plan.website.notFound.item.showsMarkdown plan.theme (.singleton "404"))) := by
    simp [usesMarkdown, rendered, Function.comp_def]
  rw [hused]
  exact hn

end Builder

end StaticSite
