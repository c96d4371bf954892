import StaticSite.Proofs.Except
import StaticSite.Proofs.Task
import StaticSite.Site.Build

/-!
# Builds that cannot read their site

A build that cannot read its specifications, its stylesheets or its content fails with a cause that
says so (`BuildError.isOfReading`), and nothing that fails later has such a cause
(`publish_failsAs`). So the disk is as it was whenever a build fails with such a cause
(`unchanged_of_reading_error`).
-/

namespace StaticSite

/-! ## Causes of failure -/

section Rules

variable {ε δ σ α β : Type} {P : ε → Prop}

/-- A task that fails, if it does, with a cause of the kind `P`. -/
def Task.FailsAs (P : ε → Prop) (x : ExceptT ε (StateM σ) α) : Prop :=
  ∀ s cause, (x.run.run s).1 = .error cause → P cause

theorem Task.FailsAs.pure (a : α) : Task.FailsAs P (Pure.pure a : ExceptT ε (StateM σ) α) := by
  rintro s cause ⟨⟩

theorem Task.FailsAs.bind {x : ExceptT ε (StateM σ) α} {f : α → ExceptT ε (StateM σ) β}
    (hx : Task.FailsAs P x) (hf : ∀ a, Task.FailsAs P (f a)) : Task.FailsAs P (x >>= f) := by
  intro s cause h
  rw [Task.run_bind] at h
  split at h
  · exact hf _ _ _ h
  · rename_i hrun
    cases h
    exact hx s cause (congrArg Prod.fst hrun)

theorem Task.FailsAs.ite {c : Prop} [Decidable c] {x y : ExceptT ε (StateM σ) α}
    (hx : Task.FailsAs P x) (hy : Task.FailsAs P y) : Task.FailsAs P (if c then x else y) := by
  split
  · exact hx
  · exact hy

/-- What makes a task's failures its own decides of which kind they are. -/
theorem Task.FailsAs.adapt (failure : δ → ε) (x : ExceptT δ (StateM σ) α)
    (h : ∀ cause, P (failure cause)) : Task.FailsAs P (ExceptT.adapt failure x) := by
  intro s cause hrun
  rw [Task.run_adapt] at hrun
  cases hx : (x.run.run s).1 with
  | error inner =>
    rw [hx] at hrun
    cases hrun
    exact h inner
  | ok a =>
    rw [hx] at hrun
    cases hrun

theorem Task.FailsAs.get : Task.FailsAs P (MonadState.get : ExceptT ε (StateM σ) σ) := by
  rintro s cause ⟨⟩

theorem Task.FailsAs.onSession (change : Session → Session) :
    Task.FailsAs P (SiteTask.onSession change : SiteTask ε Unit) := by
  rintro s cause ⟨⟩

theorem Task.FailsAs.onDisk (failure : δ → ε) (task : Disk.Task δ α)
    (h : ∀ cause, P (failure cause)) : Task.FailsAs P (SiteTask.onDisk failure task) := by
  intro w cause hrun
  rw [SiteTask.run_onDisk] at hrun
  exact Task.FailsAs.adapt failure task h w.disk cause hrun

end Rules

/-- Whether a build fails for what it reads before it writes: a specification, a stylesheet of the
website, or the content. -/
def BuildError.isOfReading : BuildError → Bool
  | .config _ | .content _ | .stylesheet _ _ _ => true
  | .io _ | .render _ | .asset _ => false

namespace Builder

/-! ## Writing -/

/-- A cause that is none of reading. -/
abbrev IsOfWriting (cause : BuildError) : Prop :=
  cause.isOfReading = false

theorem rendering_failsAs {α : Type} (x : SiteTask RenderError α) :
    Task.FailsAs IsOfWriting (ExceptT.adapt BuildError.render x) :=
  .adapt _ _ fun _ => rfl

theorem onDisk_failsAs {α : Type} (task : Disk.Task IoError α) :
    Task.FailsAs IsOfWriting (SiteTask.onDisk BuildError.io task) :=
  .onDisk _ _ fun _ => rfl

theorem ensureDirectory_failsAs (path : Path) : Task.FailsAs IsOfWriting (ensureDirectory path) :=
  .onDisk _ _ fun _ => rfl

theorem copyResources_failsAs (b : Builder) (source : Path) (resources : Resources) :
    Task.FailsAs IsOfWriting (b.copyResources source resources) :=
  .adapt _ _ fun _ => rfl

theorem writeVerification_failsAs (b : Builder) :
    ∀ token, Task.FailsAs IsOfWriting (b.writeVerification token)
  | none => .pure _
  | some _ => .ite (onDisk_failsAs _) (.pure _)

theorem renderSingle_failsAs (b : Builder) (r : Renderer) (page : PageSpec) (target : PageTarget) :
    Task.FailsAs IsOfWriting (b.renderSingle r page target) :=
  (rendering_failsAs _).bind fun _ => .pure _

theorem writeStylesheet_failsAs (b : Builder) (name css : String) :
    Task.FailsAs IsOfWriting (b.writeStylesheet name css) := by
  have write : Task.FailsAs IsOfWriting (do
      SiteTask.onDisk BuildError.io (Disk.Task.call id
        (·.writeText (b.stylesheetDirectory.join (name ++ ".css")) (Minify.style css)))
      return true : SiteTask BuildError Bool) :=
    (onDisk_failsAs _).bind fun _ => .pure _
  unfold writeStylesheet
  refine .ite ?_ (.pure _)
  dsimp only
  split
  · exact (ensureDirectory_failsAs _).bind fun _ => write
  · exact write

theorem writeStylesheets_failsAs (b : Builder) :
    ∀ sheets, Task.FailsAs IsOfWriting (b.writeStylesheets sheets)
  | [] => .pure _
  | (name, css) :: rest =>
    (writeStylesheet_failsAs b name css).bind fun _ =>
      (writeStylesheets_failsAs b rest).bind fun _ => .pure _

theorem publishStylesheets_failsAs (b : Builder) :
    Task.FailsAs IsOfWriting b.publishStylesheets := by
  refine Task.FailsAs.get.bind fun world => ?_
  split
  · exact .pure _
  · exact (ensureDirectory_failsAs _).bind fun _ => writeStylesheets_failsAs b _

theorem publishContent_failsAs (b : Builder) (plan : BuildPlan) :
    Task.FailsAs IsOfWriting (b.publishContent plan) :=
  (Task.FailsAs.onSession _).bind fun _ =>
    (ensureDirectory_failsAs _).bind fun _ => rendering_failsAs _

theorem publishRest_failsAs (b : Builder) (plan : BuildPlan) (urls : List String) :
    Task.FailsAs IsOfWriting (b.publishRest plan urls) :=
  (copyResources_failsAs b _ _).bind fun _ => (copyResources_failsAs b _ _).bind fun _ =>
    (onDisk_failsAs _).bind fun _ =>
    (writeVerification_failsAs b _).bind fun _ =>
    (rendering_failsAs _).bind fun _ =>
    (renderSingle_failsAs b (b.renderer plan) _ _).bind fun _ =>
    (renderSingle_failsAs b (b.renderer plan) _ _).bind fun _ =>
    (publishStylesheets_failsAs b).bind fun _ =>
    (onDisk_failsAs _).bind fun _ => .pure _

/-- Nothing that fails while the site is written fails for what was to be read. -/
theorem publish_failsAs (b : Builder) (plan : BuildPlan) :
    Task.FailsAs IsOfWriting (b.publish plan) :=
  (publishContent_failsAs b plan).bind fun urls =>
    (publishRest_failsAs b plan urls).bind fun _ => Task.FailsAs.get.bind fun _ => .pure _

/-! ## Reading -/

/-- The website's specification, its theme, its stylesheets and its content can all be read. -/
def CanRead (b : Builder) (disk : Disk) : Prop :=
  ∃ website theme stylesheets tree,
    WebsiteSpec.loadFrom disk b.website = .ok website ∧
    ThemeSpec.resolve disk website.theme b.searchDirectories = .ok theme ∧
    readStylesheets b.website disk website.stylesheets = .ok stylesheets ∧
    ContentTree.gather disk (b.website.join website.contents) = .ok tree

theorem exists_plan_iff (b : Builder) (disk : Disk) :
    (∃ plan, b.plan disk = .ok plan) ↔ b.CanRead disk := by
  unfold plan CanRead
  simp only [Except.bind_eq_ok_iff, Except.mapError_eq_ok_iff]
  constructor
  · rintro ⟨plan, website, hwebsite, theme, htheme, sheets, hsheets, tree, htree, -⟩
    exact ⟨website, theme, sheets, tree, hwebsite, htheme, hsheets, htree⟩
  · rintro ⟨website, theme, sheets, tree, hwebsite, htheme, hsheets, htree⟩
    exact ⟨⟨website, theme, sheets, tree⟩, website, hwebsite, theme, htheme, sheets, hsheets, tree,
      htree, rfl⟩

theorem isOfReading_of_readStylesheets (website : Path) (disk : Disk) {cause : BuildError} :
    ∀ files : Fields String, readStylesheets website disk files = .error cause →
      cause.isOfReading = true
  | [], h => by cases h
  | (name, file) :: rest, h => by
    rw [readStylesheets] at h
    split at h
    · cases h
      rfl
    · rw [Except.map_eq_error_iff] at h
      exact isOfReading_of_readStylesheets website disk rest h

theorem isOfReading_of_plan {b : Builder} {disk : Disk} {cause : BuildError}
    (h : b.plan disk = .error cause) : cause.isOfReading = true := by
  unfold plan at h
  simp only [Except.bind_eq_error_iff, Except.mapError_eq_error_iff] at h
  rcases h with
    ⟨_, _, rfl⟩ | ⟨_, _, ⟨_, _, rfl⟩ | ⟨_, _, hsheets | ⟨_, _, ⟨_, _, rfl⟩ | ⟨_, _, h⟩⟩⟩⟩
  · rfl
  · rfl
  · exact isOfReading_of_readStylesheets _ disk _ hsheets
  · rfl
  · cases h

/-! ## Builds -/

/-- A build that fails with a cause of reading could not plan the site. -/
theorem plan_of_build {b : Builder} {disk : Disk} {cause : BuildError}
    (h : (b.build disk).1 = .error cause) (hc : cause.isOfReading = true) :
    b.plan disk = .error cause := by
  cases hplan : b.plan disk with
  | error other =>
    rw [build_of_plan_error hplan] at h
    exact congrArg Except.error (Except.error.inj h)
  | ok plan =>
    unfold build at h
    rw [hplan] at h
    have hwriting : cause.isOfReading = false := publish_failsAs b plan _ cause h
    rw [hwriting] at hc
    cases hc

/-- A build that fails for what it reads leaves the disk as it was, and it does so exactly if its
site cannot be read. -/
theorem unchanged_of_reading_error (b : Builder) (disk : Disk) :
    (∀ cause : BuildError, cause.isOfReading = true → (b.build disk).1 = .error cause →
        (b.build disk).2 = disk) ∧
      ((∃ cause : BuildError, cause.isOfReading = true ∧ (b.build disk).1 = .error cause) ↔
        ¬ b.CanRead disk) := by
  refine ⟨fun cause hc h => ?_, ?_⟩
  · rw [build_of_plan_error (plan_of_build h hc)]
  · rw [← exists_plan_iff]
    constructor
    · rintro ⟨cause, hc, h⟩ ⟨plan, hplan⟩
      cases hplan.symm.trans (plan_of_build h hc)
    · intro hnone
      cases hplan : b.plan disk with
      | ok plan => exact absurd ⟨plan, hplan⟩ hnone
      | error cause =>
        exact ⟨cause, isOfReading_of_plan hplan, congrArg Prod.fst (build_of_plan_error hplan)⟩

/-- A disk with a site whose content has a malformed item file two levels down. -/
def brokenDisk : Disk where
  entries :=
    let file (text : String) : Entry := .file text.toUTF8 0
    [(["site"], .directory), (["site", "content"], .directory),
      (["site", "content", "a"], .directory),
      (["site", "content", "a", "item.json"], file "\x7b\x7d"),
      (["site", "content", "a", "b"], .directory),
      (["site", "content", "a", "b", "item.json"], file "\x7b"),
      (["site", "themes"], .directory), (["site", "themes", "p"], .directory),
      (["site", "themes", "p", "d.ejs"], file "d"),
      (["site", "themes", "p", "theme.json"],
        file "\x7b\"templates\": \x7b\"default\": \"d.ejs\", \"404\": \"d.ejs\"\x7d\x7d"),
      (["site", "website.json"],
        file ("\x7b\"theme\": \"p\", \"mainPage\": \x7b\x7d, \"404\": \x7b\x7d, " ++
          "\"contents\": \"content\"\x7d"))]

/-- A build of `/site` to `/out`. -/
def brokenSite : Builder where
  website := ⟨"/site"⟩
  output := ⟨"/out"⟩
  baseUrl := "u"

theorem unchanged_of_malformed_item : ∃ cause : BuildError, cause.isOfReading = true ∧
    (brokenSite.build brokenDisk).1 = .error cause ∧
    cause.message = "content error: Malformed configuration in /site/content/a/b/item.json: " ++
      "EOF while parsing an object at line 1 column 1" ∧
    (brokenSite.build brokenDisk).2 = brokenDisk := by
  have hrun : (match (brokenSite.build brokenDisk).1 with
      | .ok _ => none
      | .error cause => some (cause.isOfReading, cause.message)) =
        some (true, "content error: Malformed configuration in /site/content/a/b/item.json: " ++
          "EOF while parsing an object at line 1 column 1") := by
    decide +kernel
  cases h : (brokenSite.build brokenDisk).1 with
  | ok report =>
    rw [h] at hrun
    cases hrun
  | error cause =>
    rw [h] at hrun
    obtain ⟨hc, hmessage⟩ := Prod.mk.inj (Option.some.inj hrun)
    exact ⟨cause, hc, rfl, hmessage,
      (unchanged_of_reading_error brokenSite brokenDisk).1 cause hc h⟩

end Builder

end StaticSite
