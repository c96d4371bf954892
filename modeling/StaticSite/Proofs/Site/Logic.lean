import StaticSite.Proofs.Disk.Logic
import StaticSite.Site.Build

/-!
# Logics of builds

A `World.Scope` says what the parts of a build may read, write, claim and register, and a
`World.Logic` is a property of tasks that the calls and changes in its scope have. What a page, an
alias or a resource needs for this is `AllowsPage`, `AllowsAlias` and `AllowsResources`; with it,
each part of a build has the property of every logic, up to all that a build does behind making its
output directory.
-/

namespace StaticSite

/-- What the parts of a build may do. -/
structure World.Scope where
  disks : Disk.Scope
  /-- The templates, by name and file, that may be asked for. -/
  templates : String → Path → Prop
  /-- The files that may be claimed. -/
  claims : Path → Prop
  /-- The stylesheets, by name and text, that may be registered. -/
  sheets : String → String → Prop

/-- A property of tasks that the calls and changes in a scope have. -/
structure World.Logic (scope : World.Scope) extends Task.Logic World where
  disks : Disk.Logic scope.disks
  disk_of_same {w w' : World} : same w w' → disks.same w.disk w'.disk
  onDisk {δ ε α : Type} {task : Disk.Task δ α} (failure : δ → ε) :
    disks.holds task → holds (SiteTask.onDisk failure task)
  report {ε : Type} (problem : Inconsistency) : holds (SiteTask.report problem : SiteTask ε Unit)
  claim {ε : Type} {file : Path} :
    scope.claims file → holds (SiteTask.onSession (·.claim file) : SiteTask ε Unit)
  register {ε : Type} {name css : String} :
    scope.sheets name css → holds (SiteTask.onSession (·.register name css) : SiteTask ε Unit)
  runTemplate {name node : String} {path : Path} {context : Template.Context} :
    scope.templates name path → holds (Renderer.runTemplate name node path context)

namespace World.Scope

variable (scope : World.Scope)

/-! ## What the parts of a build need -/

/-- What copying a usable resource needs. -/
structure AllowsResource (source output : Path) (name : String) (target : Option String) :
    Prop where
  origin : scope.disks.origins (source.join name)
  directory : scope.disks.targets (output.join (target.getD name))
  file (category : Category) : scope.disks.targets ((output.join category.directory).join name)

/-- A scope in which all usable ones of some resources can be copied. -/
def AllowsResources (source output : Path) (resources : Resources) : Prop :=
  ∀ name target, (name, target) ∈ resources → Resources.unusable? name target = none →
    scope.AllowsResource source output name target

/-- What making the text of a page needs. -/
structure AllowsMaking (r : Renderer) (spec : ItemSpec) (template : String)
    (templatePath source : Path) :
    Prop where
  markdowns (name file : String) : (name, file) ∈ spec.markdowns →
    scope.disks.files (source.join file)
  style (file : String) : spec.inlineStyles = some file → scope.disks.files (source.join file)
  template : scope.templates template templatePath
  sheet : scope.sheets markdownStylesheet r.markdownCss

/-- What writing a page into a directory needs. -/
structure AllowsWriting (spec : ItemSpec) (source output : Path) (stem : String) : Prop where
  file : scope.disks.targets (output.join (stem ++ ".html"))
  claim : scope.claims (output.join (stem ++ ".html"))
  resources : scope.AllowsResources source output spec.resources

/-- What rendering a page needs. -/
structure AllowsPage (r : Renderer) (spec : ItemSpec) (source output : Path) (target : PageTarget) :
    Prop where
  making (path : Path) : r.theme.templatePath? (spec.template.getD target.fallback) = some path →
    scope.AllowsMaking r spec (spec.template.getD target.fallback) path source
  directory : scope.disks.targets output
  writing : scope.AllowsWriting spec source output target.stem

/-- What rendering the pages of the content needs. -/
def AllowsContent (r : Renderer) (output : Path) (pages : List ContentPage) : Prop :=
  ∀ page ∈ pages, scope.AllowsPage r page.spec (r.websiteDirectory.join page.source)
    (output.join page.url) .content

/-- What writing an alias needs. -/
structure AllowsAlias (output : Path) (route : String) : Prop where
  directory : scope.disks.targets (output.join (Alias.relativePath route))
  file : scope.disks.targets ((output.join (Alias.relativePath route)).join "index.html")
  claim : scope.claims ((output.join (Alias.relativePath route)).join "index.html")

/-- What writing stylesheets needs. -/
def AllowsSheets (b : Builder) (sheets : Fields String) : Prop :=
  ∀ name css, (name, css) ∈ sheets → Url.isContained name = true →
    scope.disks.targets (b.stylesheetDirectory.join (name ++ ".css"))

/-- What a build needs behind the pages of the content. -/
structure AllowsRest (b : Builder) (plan : BuildPlan) : Prop where
  theme : scope.AllowsResources plan.theme.basePath b.output plan.theme.resources
  website : scope.AllowsResources b.website b.output plan.website.resources
  sitemap : scope.disks.targets (b.output.join Sitemap.fileName)
  verification (t : String) : plan.website.verification = some t →
    Url.isContained (Builder.verificationFile t) = true →
    scope.disks.targets (b.output.join (Builder.verificationFile t))
  aliases (route target : String) : (route, target) ∈ plan.website.aliases →
    Url.isContained (Alias.relativePath route) = true → scope.AllowsAlias b.output route
  main : scope.AllowsPage (b.renderer plan) plan.website.mainPage.item
    (b.website.join plan.website.mainPage.basePath) b.output .content
  notFound : scope.AllowsPage (b.renderer plan) plan.website.notFound.item
    (b.website.join plan.website.notFound.basePath) b.output (.singleton "404")
  sheets : scope.disks.targets b.stylesheetDirectory
  robots : scope.disks.targets (b.output.join "robots.txt")

end World.Scope

/-! ## Pages in two parts -/

namespace Renderer

theorem run_runTemplate (name node : String) (path : Path) (context : Template.Context)
    (w : World) :
    (runTemplate name node path context).run.run w =
      match w.session.template w.disk name path with
      | .error cause => (.error (.templateSource name path cause), w)
      | .ok (template, session) =>
        ((template.render context).mapError (RenderError.template name node),
          { w with session }) := by
  unfold runTemplate
  rw [Task.run_bind, show (get : SiteTask RenderError World).run.run w = (.ok w, w) from rfl]
  dsimp only
  rcases w.session.template w.disk name path with cause | ⟨template, session⟩
  · rfl
  · dsimp only
    rw [Task.run_bind]
    cases template.render context <;> rfl

/-- The text of a page whose markdown files were turned into variables. -/
def fillPage (r : Renderer) (spec : ItemSpec) (template : String) (templatePath : Path)
    (node : String)
    (source : Path) (url : String) (values : Fields Json) : SiteTask RenderError String := do
  let html ← runTemplate template node templatePath (r.context spec template url values)
  let inlineStyle ← readInlineStyle node source spec.inlineStyles
  match Page.finish html { stylesheets := linkedStylesheets spec, inlineStyle } with
  | .error cause => throw (.markup cause)
  | .ok page => return page

theorem makePage_eq (r : Renderer) (spec : ItemSpec) (template : String) (templatePath : Path)
    (node : String) (source : Path) (url : String) :
    r.makePage spec template templatePath node source url = (do
      let values ← addMarkdowns node source spec.markdowns spec.values
      if !spec.markdowns.isEmpty then
        SiteTask.onSession (·.register markdownStylesheet r.markdownCss)
      r.fillPage spec template templatePath node source url values) := rfl

/-- Writes a page into a directory that is there. -/
def publishInto (spec : ItemSpec) (source output : Path) (stem page : String) :
    SiteTask RenderError Unit := do
  let file := output.join (stem ++ ".html")
  SiteTask.onSession (·.claim file)
  SiteTask.onDisk RenderError.io (Disk.Task.call id (·.writeText file page))
  let _ ← ExceptT.adapt RenderError.asset (Resources.copyAll source output spec.resources)

theorem publish_eq (spec : ItemSpec) (source output : Path) (stem page : String) :
    publish spec source output stem page = (do
      SiteTask.onDisk (RenderError.asset ∘ Disk.CopyError.io) (Disk.ensureDirectory output)
      publishInto spec source output stem page) := rfl

end Renderer

namespace World.Logic

variable {scope : World.Scope} (L : World.Logic scope) {ε : Type}

theorem writeText {p : Path} (h : scope.disks.targets p) (text : String) (failure : IoError → ε) :
    L.holds (SiteTask.onDisk failure (Disk.Task.call id (·.writeText p text))) :=
  L.onDisk failure (L.disks.writeText text id h)

theorem ensureTarget {p : Path} (h : scope.disks.targets p) (failure : IoError → ε) :
    L.holds (SiteTask.onDisk failure (Disk.ensureDirectory p)) :=
  L.onDisk failure (L.disks.ensureTarget h)

/-! ## Resources -/

theorem copyOne {source output : Path} {name : String} {target : Option String}
    (h : Resources.unusable? name target = none → scope.AllowsResource source output name target) :
    L.holds (Resources.copyOne source output name target) := by
  unfold Resources.copyOne
  cases hu : Resources.unusable? name target with
  | some bad => exact L.bind (L.report _) fun _ => L.pure _
  | none =>
    obtain ⟨ho, hd, hf⟩ := h hu
    have hfile := scope.disks.files_of_origin ho
    refine L.get fun w w' hw => ⟨?_, L.ite ?_ (L.ite ?_ ?_)⟩
    · dsimp only
      rw [L.disks.isDirectory (L.disk_of_same hw) ho, L.disks.isFile (L.disk_of_same hw) hfile]
    · exact L.bind (L.onDisk id (L.disks.copyDirectory ho hd)) fun _ => L.pure _
    · split
      · rename_i category _
        exact L.bind (L.onDisk _ (L.disks.copyFile hfile (hf category))) fun _ => L.pure _
      · exact L.bind (L.report _) fun _ => L.pure _
    · exact L.bind (L.report _) fun _ => L.pure _

theorem copyAll {source output : Path} :
    ∀ {resources : Resources}, scope.AllowsResources source output resources →
      L.holds (Resources.copyAll source output resources)
  | [], _ => L.pure _
  | (name, target) :: _, h =>
    L.bind (L.copyOne (h name target List.mem_cons_self)) fun _ =>
      L.bind (copyAll fun n t hn => h n t (List.mem_cons_of_mem _ hn)) fun _ => L.pure _

/-! ## Pages -/

theorem addMarkdowns {node : String} {source : Path} :
    ∀ {markdowns : Fields String}, (∀ name file, (name, file) ∈ markdowns →
      scope.disks.files (source.join file)) →
      ∀ values, L.holds (Renderer.addMarkdowns node source markdowns values)
  | [], _, _ => L.pure _
  | (name, file) :: rest, h, values => by
    have hf := h name file List.mem_cons_self
    have hrest : ∀ values, L.holds (Renderer.addMarkdowns node source rest values) :=
      addMarkdowns fun n f hn => h n f (List.mem_cons_of_mem _ hn)
    refine L.get fun w w' hw => ⟨?_, L.ite ?_ ?_⟩
    · dsimp only
      rw [L.disks.isFile (L.disk_of_same hw) hf, Markdown.renderFile, Markdown.renderFile,
        L.disks.readText (L.disk_of_same hw) hf]
    · split
      · exact hrest _
      · exact L.throw _
    · exact L.bind (L.report _) fun _ => hrest _

theorem readInlineStyle {node : String} {source : Path} {style : Option String}
    (h : ∀ file, style = some file → scope.disks.files (source.join file)) :
    L.holds (Renderer.readInlineStyle node source style) := by
  cases style with
  | none => exact L.pure _
  | some file =>
    have hf := h file rfl
    refine L.get fun w w' hw => ⟨?_, L.ite ?_ ?_⟩
    · dsimp only
      rw [L.disks.isFile (L.disk_of_same hw) hf, L.disks.readText (L.disk_of_same hw) hf]
    · split
      · exact L.pure _
      · exact L.throw _
    · exact L.bind (L.report _) fun _ => L.pure _

theorem fillPage {r : Renderer} {spec : ItemSpec} {template node url : String}
    {templatePath source : Path} {values : Fields Json} (ht : scope.templates template templatePath)
    (hs : ∀ file, spec.inlineStyles = some file → scope.disks.files (source.join file)) :
    L.holds (r.fillPage spec template templatePath node source url values) := by
  refine L.bind (L.runTemplate ht) fun html => L.bind (L.readInlineStyle hs) fun style => ?_
  split
  · exact L.throw _
  · exact L.pure _

theorem makePage {r : Renderer} {spec : ItemSpec} {template node url : String}
    {templatePath source : Path} (h : scope.AllowsMaking r spec template templatePath source) :
    L.holds (r.makePage spec template templatePath node source url) :=
  L.bind (L.addMarkdowns h.markdowns _) fun _ =>
    L.ite (L.bind (L.register h.sheet) fun _ => L.fillPage h.template h.style)
      (L.fillPage h.template h.style)

theorem publishInto {spec : ItemSpec} {source output : Path} {stem page : String}
    (h : scope.AllowsWriting spec source output stem) :
    L.holds (Renderer.publishInto spec source output stem page) :=
  L.bind (L.claim h.claim) fun _ => L.bind (L.writeText h.file _ _) fun _ =>
    L.bind (L.adapt _ (L.copyAll h.resources)) fun _ => L.pure _

theorem render {r : Renderer} {spec : Option ItemSpec} {source : String} {output : Path}
    {url : String} {target : PageTarget}
    (h : ∀ s, spec = some s → scope.AllowsPage r s (r.websiteDirectory.join source) output target) :
    L.holds (r.render spec source output url target) := by
  cases spec with
  | none => exact L.pure _
  | some spec =>
    obtain ⟨hm, hd, hw⟩ := h spec rfl
    unfold Renderer.render
    dsimp only
    split
    · exact L.bind (L.report _) fun _ => L.pure _
    · rename_i path hp
      refine L.bind (L.bind (L.makePage (hm path hp)) fun page => ?_) fun _ => L.pure _
      exact L.bind (L.ensureTarget hd _) fun _ => L.publishInto hw

theorem renderAt {r : Renderer} {output : Path} {pages : List ContentPage}
    (h : scope.AllowsContent r output pages) :
    ∀ positions, L.holds (r.renderAt output pages positions)
  | [] => L.pure _
  | position :: rest => by
    have tail (address : Option String) := L.bind (renderAt h rest) fun more =>
      L.pure (ε := RenderError) ((address.map fun a => (position, a)).toList ++ more)
    unfold Renderer.renderAt
    cases hp : pages[position]? with
    | none => exact L.bind (L.pure none) tail
    | some page =>
      refine L.bind (L.render fun s hs => ?_) tail
      cases hs
      exact h page (List.mem_of_getElem? hp)

theorem renderPages {r : Renderer} {output : Path} {pages : List ContentPage}
    (h : scope.AllowsContent r output pages) (order : RenderOrder) :
    L.holds (r.renderPages output order pages) :=
  L.bind (L.renderAt h (order pages)) fun _ => L.pure _

/-! ## Aliases -/

theorem writeOne {built : List String} {output : Path} {route target : String}
    (h : Url.isContained (Alias.relativePath route) = true → scope.AllowsAlias output route) :
    L.holds (Alias.writeOne built output route target) := by
  unfold Alias.writeOne
  dsimp only
  split
  · exact L.bind (L.report _) fun _ => L.pure _
  · split
    · exact L.bind (L.report _) fun _ => L.pure _
    · rename_i hc
      simp only [Bool.or_eq_true, decide_eq_true_eq, not_or, Bool.not_eq_true',
        Bool.not_eq_false] at hc
      obtain ⟨hd, hf, hcl⟩ := h hc.2
      refine L.bind (L.ensureTarget hd _) fun _ => L.bind (L.claim hcl) fun _ => ?_
      split
      · exact L.throw _
      · exact L.bind (L.writeText hf _ _) fun _ => L.pure _

theorem writeAll {built : List String} {output : Path} :
    ∀ {aliases : Fields String}, (∀ route target, (route, target) ∈ aliases →
      Url.isContained (Alias.relativePath route) = true → scope.AllowsAlias output route) →
      L.holds (Alias.writeAll built output aliases)
  | [], _ => L.pure _
  | (route, target) :: _, h =>
    L.bind (L.writeOne (h route target List.mem_cons_self)) fun _ =>
      L.bind (writeAll fun r t hr => h r t (List.mem_cons_of_mem _ hr)) fun _ => L.pure _

/-! ## Stylesheets and single files -/

variable {b : Builder} {plan : BuildPlan}

theorem writeStylesheet {name css : String}
    (h : Url.isContained name = true →
      scope.disks.targets (b.stylesheetDirectory.join (name ++ ".css"))) :
    L.holds (b.writeStylesheet name css) := by
  unfold Builder.writeStylesheet
  split
  · rename_i hc
    have write : L.holds (do
        SiteTask.onDisk BuildError.io (Disk.Task.call id
          (·.writeText (b.stylesheetDirectory.join (name ++ ".css")) (Minify.style css)))
        return true : SiteTask BuildError Bool) :=
      L.bind (L.writeText (h hc) _ _) fun _ => L.pure _
    dsimp only
    split
    · rename_i parent hp
      exact L.bind (L.onDisk _ (L.disks.ensureDirectory fun _ hq =>
        scope.disks.line_of_parent (h hc) hp hq)) fun _ => write
    · exact write
  · exact L.pure _

theorem writeStylesheets : ∀ {sheets : Fields String}, scope.AllowsSheets b sheets →
    L.holds (b.writeStylesheets sheets)
  | [], _ => L.pure _
  | (name, css) :: _, h =>
    L.bind (L.writeStylesheet (h name css List.mem_cons_self)) fun _ =>
      L.bind (writeStylesheets fun n c hn => h n c (List.mem_cons_of_mem _ hn)) fun _ => L.pure _

/-- The same worlds have the same stylesheets, and these may be written. -/
def AllowsSheets (b : Builder) : Prop :=
  ∀ w w', L.same w w' →
    w.session.stylesheets = w'.session.stylesheets ∧ scope.AllowsSheets b w.session.stylesheets

theorem publishStylesheets (hd : scope.disks.targets b.stylesheetDirectory) (h : L.AllowsSheets b) :
    L.holds b.publishStylesheets := by
  refine L.get fun w w' hw => ?_
  obtain ⟨he, hall⟩ := h w w' hw
  refine ⟨by rw [he], ?_⟩
  revert hall
  generalize w.session.stylesheets = sheets
  intro hall
  cases sheets with
  | nil => exact L.pure _
  | cons sheet rest => exact L.bind (L.ensureTarget hd _) fun _ => L.writeStylesheets hall

theorem writeRobots {rules : Robots.Rules} {sitemap : String} {output : Path}
    (h : scope.disks.targets (output.join "robots.txt")) (failure : IoError → ε) :
    L.holds (SiteTask.onDisk failure (Robots.write rules sitemap output)) :=
  L.onDisk failure <| L.disks.ite (L.disks.pure _) <|
    L.disks.bind (L.disks.writeText _ _ h) fun _ => L.disks.pure _

theorem writeVerification {token : Option String}
    (h : ∀ t, token = some t → Url.isContained (Builder.verificationFile t) = true →
      scope.disks.targets (b.output.join (Builder.verificationFile t))) :
    L.holds (b.writeVerification token) := by
  cases token with
  | none => exact L.pure _
  | some t =>
    show L.holds (if Url.isContained (Builder.verificationFile t) = true then _ else _)
    by_cases hc : Url.isContained (Builder.verificationFile t) = true
    · rw [if_pos hc]
      exact L.writeText (h t rfl hc) _ _
    · rw [if_neg hc]
      exact L.pure _

/-! ## Builds -/

theorem renderSingle {r : Renderer} {page : PageSpec} {target : PageTarget}
    (h : scope.AllowsPage r page.item (r.websiteDirectory.join page.basePath) b.output target) :
    L.holds (b.renderSingle r page target) := by
  refine L.bind (L.adapt _ (L.render fun s hs => ?_)) fun _ => L.pure _
  cases hs
  exact h

theorem publishRest (h : scope.AllowsRest b plan) (hs : L.AllowsSheets b) (urls : List String) :
    L.holds (b.publishRest plan urls) :=
  L.bind (L.adapt _ (L.copyAll h.theme)) fun _ => L.bind (L.adapt _ (L.copyAll h.website)) fun _ =>
    L.bind (L.writeText h.sitemap _ _) fun _ => L.bind (L.writeVerification h.verification) fun _ =>
      L.bind (L.adapt _ (L.writeAll h.aliases)) fun _ => L.bind (L.renderSingle h.main) fun _ =>
        L.bind (L.renderSingle h.notFound) fun _ =>
          L.bind (L.publishStylesheets h.sheets hs) fun _ =>
          L.bind (L.writeRobots h.robots _) fun _ => L.pure _

end World.Logic

end StaticSite
