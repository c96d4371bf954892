import StaticSite.Proofs.Disk.Landing
import StaticSite.Proofs.Except
import StaticSite.Proofs.Task
import StaticSite.Site.Build

/-!
# What is claimed and what is reported twice

Pages and aliases claim their files before they write them. `SiteTask.Claims files x` says that `x`,
when it succeeds, claims `files`, in order, and nothing else. Each part of a build has such a lemma,
so that the claims of a build are known from its specifications (`Builder.claimedFiles`). A file is
reported as a duplicate exactly if it has the components of one that was claimed before
(`Session.Tally.claimAll_duplicates`).
-/

namespace StaticSite

/-! ## Tallies -/

/-- The file of a duplicate. -/
def Inconsistency.duplicate? : Inconsistency → Option Path
  | .duplicateOutput path => some path
  | _ => none

/-- The components that were claimed and the files that were reported as duplicates. -/
structure Session.Tally where
  claimed : List (List String)
  duplicates : List Path

namespace Session

/-- What a session knows of claimed files and of duplicates. -/
def tally (session : Session) : Tally :=
  ⟨session.claimed, session.reports.filterMap Inconsistency.duplicate?⟩

/-- Claims a file; one that was claimed before is a duplicate. -/
def Tally.claim (t : Tally) (file : Path) : Tally :=
  if t.claimed.contains file.components then { t with duplicates := t.duplicates ++ [file] }
  else { t with claimed := file.components :: t.claimed }

/-- Claims files one after the other. -/
def Tally.claimAll (t : Tally) (files : List Path) : Tally :=
  files.foldl Tally.claim t

theorem tally_report (session : Session) {problem : Inconsistency}
    (h : problem.duplicate? = none) : (session.report problem).tally = session.tally := by
  simp [tally, report, h]

theorem tally_claim (session : Session) (file : Path) :
    (session.claim file).tally = session.tally.claim file := by
  unfold claim Tally.claim isClaimed
  by_cases h : session.claimed.contains file.components
  · rw [if_pos h, if_pos (show session.tally.claimed.contains _ from h)]
    simp [tally, report, Inconsistency.duplicate?]
  · rw [if_neg h, if_neg (show ¬ session.tally.claimed.contains _ from h)]
    rfl

theorem tally_register (session : Session) (name css : String) :
    (session.register name css).tally = session.tally := by
  unfold register
  split <;> rfl

theorem tally_template {session session' : Session} {disk : Disk} {name : String} {path : Path}
    {template : Template.Compiled}
    (h : session.template disk name path = .ok (template, session')) :
    session'.tally = session.tally := by
  unfold Session.template at h
  split at h
  · cases h
    rfl
  · obtain ⟨text, -, h⟩ := Except.bind_eq_ok_iff.1 h
    cases h
    rfl

theorem Tally.claimAll_append (t : Tally) (first second : List Path) :
    t.claimAll (first ++ second) = (t.claimAll first).claimAll second :=
  List.foldl_append

/-- Nothing is reported exactly if no two files, and no file and one claimed before, have the same
components. -/
theorem Tally.claimAll_duplicates (t : Tally) (files : List Path) :
    (t.claimAll files).duplicates = [] ↔
      t.duplicates = [] ∧ (files.map Path.components).Nodup ∧
        ∀ file ∈ files, file.components ∉ t.claimed := by
  induction files generalizing t with
  | nil => simp [claimAll]
  | cons file rest ih =>
    show ((t.claim file).claimAll rest).duplicates = [] ↔ _
    rw [ih]
    by_cases h : file.components ∈ t.claimed
    · simp [claim, h]
    · simp only [claim, List.contains_eq_mem, h, decide_false, Bool.false_eq_true, if_false,
        List.mem_cons, not_or, List.map_cons, List.nodup_cons, List.mem_map, not_exists, not_and,
        forall_eq_or_imp, not_false_eq_true, true_and]
      constructor
      · rintro ⟨hd, hn, hr⟩
        exact ⟨hd, ⟨fun x hx he => (hr x hx).1 he, hn⟩, fun x hx => (hr x hx).2⟩
      · rintro ⟨hd, ⟨hf, hn⟩, hr⟩
        exact ⟨hd, hn, fun x hx => ⟨fun he => hf x hx he, hr x hx⟩⟩

end Session

/-! ## Rules for `SiteTask.Claims` -/

namespace SiteTask

variable {ε δ α β : Type}

/-- A task that claims the files when it succeeds and no others. -/
def Claims (files : List Path) (x : SiteTask ε α) : Prop :=
  ∀ w a w', x.run.run w = (.ok a, w') → w'.session.tally = w.session.tally.claimAll files

theorem Claims.pure (a : α) : Claims [] (Pure.pure a : SiteTask ε α) := by
  intro w b w' h
  cases h
  rfl

theorem Claims.throw (files : List Path) (cause : ε) :
    Claims files (MonadExcept.throw cause : SiteTask ε α) := by
  intro w a w' h
  cases h

theorem Claims.bind {first second : List Path} {x : SiteTask ε α} {f : α → SiteTask ε β}
    (hx : Claims first x) (hf : ∀ a, Claims second (f a)) : Claims (first ++ second) (x >>= f) := by
  intro w b w' h
  obtain ⟨a, t, ha, hb⟩ := Task.run_bind_eq_ok.1 h
  rw [hf a t b w' hb, hx w a t ha, Session.Tally.claimAll_append]

/-- What is behind a task that claims nothing. -/
theorem Claims.andThen {files : List Path} {x : SiteTask ε α} {f : α → SiteTask ε β}
    (hx : Claims [] x) (hf : ∀ a, Claims files (f a)) : Claims files (x >>= f) :=
  hx.bind hf

/-- What is before a task that claims nothing. -/
theorem Claims.before {files : List Path} {x : SiteTask ε α} {f : α → SiteTask ε β}
    (hx : Claims files x) (hf : ∀ a, Claims [] (f a)) : Claims files (x >>= f) := by
  rw [← List.append_nil files]
  exact hx.bind hf

theorem Claims.adapt {files : List Path} {x : SiteTask δ α} (failure : δ → ε)
    (hx : Claims files x) :
    Claims files (ExceptT.adapt failure x) :=
  fun w a w' h => hx w a w' (Task.run_adapt_eq_ok.1 h)

theorem Claims.ite {files : List Path} {c : Prop} [Decidable c] {x y : SiteTask ε α}
    (hx : Claims files x) (hy : Claims files y) : Claims files (if c then x else y) := by
  split
  · exact hx
  · exact hy

theorem Claims.get : Claims [] (MonadState.get : SiteTask ε World) := by
  intro w a w' h
  cases h
  rfl

theorem Claims.onDisk (failure : δ → ε) (task : Disk.Task δ α) :
    Claims [] (SiteTask.onDisk failure task) := by
  intro w a w' h
  rw [run_onDisk] at h
  obtain ⟨-, rfl⟩ := Prod.mk.inj h
  rfl

theorem Claims.report {problem : Inconsistency} (h : problem.duplicate? = none) :
    Claims [] (SiteTask.report problem : SiteTask ε Unit) := by
  intro w a w' hr
  cases hr
  exact Session.tally_report w.session h

theorem Claims.claim (file : Path) :
    Claims [file] (SiteTask.onSession (·.claim file) : SiteTask ε Unit) := by
  intro w a w' hr
  cases hr
  exact Session.tally_claim w.session file

theorem Claims.register (name css : String) :
    Claims [] (SiteTask.onSession (·.register name css) : SiteTask ε Unit) := by
  intro w a w' hr
  cases hr
  exact Session.tally_register w.session name css

end SiteTask

open SiteTask

/-! ## Resources and pages -/

theorem Resources.copyOne_claims (source output : Path) (name : String) (target : Option String) :
    Claims [] (copyOne source output name target) := by
  unfold copyOne
  split
  · exact (Claims.report rfl).andThen fun _ => .pure _
  · refine Claims.get.andThen fun world => .ite ?_ (.ite ?_ ?_)
    · exact (Claims.onDisk _ _).andThen fun _ => .pure _
    · split
      · exact (Claims.onDisk _ _).andThen fun _ => .pure _
      · exact (Claims.report rfl).andThen fun _ => .pure _
    · exact (Claims.report rfl).andThen fun _ => .pure _

theorem Resources.copyAll_claims (source output : Path) :
    ∀ resources, Claims [] (copyAll source output resources)
  | [] => .pure _
  | (name, target) :: rest =>
    (copyOne_claims source output name target).andThen fun _ =>
      (copyAll_claims source output rest).andThen fun _ => .pure _

namespace Renderer

theorem addMarkdowns_claims (node : String) (source : Path) :
    ∀ markdowns values, Claims [] (addMarkdowns node source markdowns values)
  | [], _ => .pure _
  | (name, file) :: rest, values => by
    unfold addMarkdowns
    refine Claims.get.andThen fun world => .ite ?_ ?_
    · split
      · exact addMarkdowns_claims node source rest _
      · exact .throw _ _
    · exact (Claims.report rfl).andThen fun _ => addMarkdowns_claims node source rest _

theorem readInlineStyle_claims (node : String) (source : Path) (style : Option String) :
    Claims [] (readInlineStyle node source style) := by
  cases style with
  | none => exact .pure _
  | some file =>
    refine Claims.get.andThen fun world => .ite ?_ ?_
    · split
      · exact .pure _
      · exact .throw _ _
    · exact (Claims.report rfl).andThen fun _ => .pure _

theorem runTemplate_claims (name node : String) (path : Path) (context : Template.Context) :
    Claims [] (runTemplate name node path context) := by
  intro w html w' h
  unfold runTemplate at h
  obtain ⟨world, t, hget, h⟩ := Task.run_bind_eq_ok.1 h
  cases hget
  split at h
  · cases h
  · rename_i template session hs
    obtain ⟨_, t, hset, h⟩ := Task.run_bind_eq_ok.1 h
    cases hset
    have hw : w' = { w with session } := by
      split at h <;> cases h
      rfl
    rw [hw]
    exact Session.tally_template hs

theorem publish_claims (spec : ItemSpec) (source output : Path) (stem page : String) :
    Claims [output.join (stem ++ ".html")] (publish spec source output stem page) :=
  (Claims.onDisk _ _).andThen fun _ => (Claims.claim _).bind fun _ =>
    (Claims.onDisk _ _).andThen fun _ =>
      (Resources.copyAll_claims _ _ _).adapt _ |>.andThen fun _ =>
      .pure _

theorem makePage_claims (r : Renderer) (spec : ItemSpec) (template : String) (templatePath : Path)
    (node : String) (source : Path) (url : String) :
    Claims [] (r.makePage spec template templatePath node source url) := by
  refine (addMarkdowns_claims _ _ _ _).andThen fun values =>
    .ite ((Claims.register _ _).andThen fun _ => ?_) ?_
  all_goals
    refine (runTemplate_claims _ _ _ _).andThen fun html =>
      (readInlineStyle_claims _ _ _).andThen fun style => ?_
    split
    · exact .throw _ _
    · exact .pure _

theorem renderWith_claims (r : Renderer) (spec : ItemSpec) (template : String) (templatePath : Path)
    (node : String) (source output : Path) (url stem : String) :
    Claims [output.join (stem ++ ".html")]
      (r.renderWith spec template templatePath node source output url stem) :=
  (makePage_claims _ _ _ _ _ _ _).andThen fun _ => publish_claims _ _ _ _ _

/-- The file that the page of a specification claims, if there is a page. -/
def claimedBy (theme : ThemeSpec) (spec : Option ItemSpec) (output : Path) (target : PageTarget) :
    List Path :=
  match spec with
  | none => []
  | some spec =>
    if (theme.templatePath? (spec.template.getD target.fallback)).isSome then
      [output.join (target.stem ++ ".html")]
    else []

theorem render_claims (r : Renderer) (spec : Option ItemSpec) (source : String) (output : Path)
    (url : String) (target : PageTarget) :
    Claims (claimedBy r.theme spec output target) (r.render spec source output url target) := by
  cases spec with
  | none => exact .pure _
  | some spec =>
    unfold render claimedBy
    dsimp only
    cases r.theme.templatePath? (spec.template.getD target.fallback) with
    | none => exact (Claims.report rfl).andThen fun _ => .pure _
    | some path => exact (renderWith_claims _ _ _ _ _ _ _ _ _).before fun _ => .pure _

/-- The files that the pages at some positions claim. -/
def claimedAt (theme : ThemeSpec) (output : Path) (pages : List ContentPage)
    (positions : List Nat) :
    List Path :=
  positions.flatMap fun position =>
    pages[position]?.toList.flatMap fun page =>
      claimedBy theme page.spec (output.join page.url) .content

theorem renderAt_claims (r : Renderer) (output : Path) (pages : List ContentPage) :
    ∀ positions, Claims (claimedAt r.theme output pages positions)
      (r.renderAt output pages positions)
  | [] => .pure _
  | position :: rest => by
    have tail (address : Option String) :=
      (renderAt_claims r output pages rest).before fun more =>
        (Claims.pure ((address.map fun a => (position, a)).toList ++ more) :
          Claims [] (_ : SiteTask RenderError _))
    unfold renderAt claimedAt
    rw [List.flatMap_cons]
    cases pages[position]? with
    | none => exact (Claims.pure none).bind tail
    | some page =>
      rw [Option.toList_some, List.flatMap_singleton]
      exact (render_claims _ _ _ _ _ _).bind tail

theorem renderPages_claims (r : Renderer) (output : Path) (order : RenderOrder)
    (pages : List ContentPage) :
    Claims (claimedAt r.theme output pages (order pages)) (r.renderPages output order pages) :=
  (renderAt_claims r output pages (order pages)).before fun _ => .pure _

end Renderer

/-! ## Aliases -/

namespace Alias

/-- The file that an alias claims if it is written. -/
def claimedBy (built : List String) (output : Path) (route target : String) : List Path :=
  if !built.contains target then []
  else if relativePath route = "" || !Url.isContained (relativePath route) then []
  else [(output.join (relativePath route)).join "index.html"]

theorem writeOne_claims (built : List String) (output : Path) (route target : String) :
    Claims (claimedBy built output route target) (writeOne built output route target) := by
  unfold writeOne claimedBy
  by_cases hb : !built.contains target
  · rw [if_pos hb]
    dsimp only
    rw [if_pos hb]
    exact (Claims.report rfl).andThen fun _ => .pure _
  · rw [if_neg hb]
    dsimp only
    rw [if_neg hb]
    by_cases hc : relativePath route = "" || !Url.isContained (relativePath route)
    · rw [if_pos hc, if_pos hc]
      exact (Claims.report rfl).andThen fun _ => .pure _
    · rw [if_neg hc, if_neg hc]
      refine (Claims.onDisk _ _).andThen fun _ => (Claims.claim _).before fun _ => ?_
      cases redirectPage target with
      | error fault => exact .throw _ _
      | ok page => exact (Claims.onDisk _ _).andThen fun _ => .pure _

theorem writeAll_claims (built : List String) (output : Path) :
    ∀ aliases : Fields String,
      Claims (aliases.flatMap fun (route, target) => claimedBy built output route target)
        (writeAll built output aliases)
  | [] => .pure _
  | (route, target) :: rest => by
    rw [List.flatMap_cons]
    exact (writeOne_claims built output route target).bind fun written =>
      (writeAll_claims built output rest).before fun _ => .pure _

end Alias

/-! ## Builds -/

namespace Builder

theorem copyResources_claims (b : Builder) (source : Path) (resources : Resources) :
    Claims [] (b.copyResources source resources) :=
  (Resources.copyAll_claims _ _ _).adapt _

theorem writeVerification_claims (b : Builder) (token : Option String) :
    Claims [] (b.writeVerification token) := by
  cases token with
  | none => exact .pure _
  | some token => exact .ite (Claims.onDisk _ _) (.pure _)

theorem renderSingle_claims (b : Builder) (r : Renderer) (page : PageSpec) (target : PageTarget) :
    Claims (Renderer.claimedBy r.theme page.item b.output target) (b.renderSingle r page target) :=
  ((Renderer.render_claims _ _ _ _ _ _).adapt _).before fun _ => .pure _

theorem writeStylesheet_claims (b : Builder) (name css : String) :
    Claims [] (b.writeStylesheet name css) := by
  have write : Claims [] (do
      SiteTask.onDisk BuildError.io (Disk.Task.call id
        (·.writeText (b.stylesheetDirectory.join (name ++ ".css")) (Minify.style css)))
      return true : SiteTask BuildError Bool) :=
    (Claims.onDisk _ _).andThen fun _ => .pure _
  unfold writeStylesheet
  refine .ite ?_ (.pure _)
  dsimp only
  split
  · exact (Claims.onDisk _ _).andThen fun _ => write
  · exact write

theorem writeStylesheets_claims (b : Builder) : ∀ sheets, Claims [] (b.writeStylesheets sheets)
  | [] => .pure _
  | (name, css) :: rest =>
    (writeStylesheet_claims b name css).andThen fun _ =>
      (writeStylesheets_claims b rest).andThen fun _ => .pure _

theorem publishStylesheets_claims (b : Builder) : Claims [] b.publishStylesheets := by
  refine Claims.get.andThen fun world => ?_
  split
  · exact .pure _
  · exact (Claims.onDisk _ _).andThen fun _ => writeStylesheets_claims b _

theorem tally_registerAll (session : Session) (stylesheets : Fields String) :
    (registerAll session stylesheets).tally = session.tally := by
  induction stylesheets generalizing session with
  | nil => rfl
  | cons sheet rest ih =>
    show (registerAll (session.register sheet.1 sheet.2) rest).tally = _
    rw [ih, Session.tally_register]

/-- The files that a build claims behind the pages of the content, which have the given
addresses. -/
def claimedBehind (b : Builder) (plan : BuildPlan) (urls : List String) : List Path :=
  (plan.website.aliases.flatMap fun (route, target) =>
    Alias.claimedBy urls b.output route target) ++
    Renderer.claimedBy plan.theme plan.website.mainPage.item b.output .content ++
    Renderer.claimedBy plan.theme plan.website.notFound.item b.output (.singleton "404")

/-- The files that a build claims: those of the pages of the content in their order, of the aliases
whose target was built, of the main page, and of the one for addresses that are not found. -/
def claimedFiles (b : Builder) (plan : BuildPlan) (urls : List String) : List Path :=
  let pages := plan.tree.pages plan.website.contents
  Renderer.claimedAt plan.theme b.output pages (b.order pages) ++ b.claimedBehind plan urls

theorem publishContent_claims (b : Builder) (plan : BuildPlan) :
    Claims (Renderer.claimedAt plan.theme b.output (plan.tree.pages plan.website.contents)
      (b.order (plan.tree.pages plan.website.contents))) (b.publishContent plan) := by
  have register : Claims [] (SiteTask.onSession (registerAll · plan.stylesheets) :
      SiteTask BuildError Unit) := by
    intro w a w' h
    cases h
    exact tally_registerAll _ _
  exact register.andThen fun _ => (Claims.onDisk _ _).andThen fun _ =>
    (Renderer.renderPages_claims (b.renderer plan) _ _ _).adapt _

theorem publishRest_claims (b : Builder) (plan : BuildPlan) (urls : List String) :
    Claims (b.claimedBehind plan urls) (b.publishRest plan urls) := by
  unfold publishRest claimedBehind
  refine (copyResources_claims b _ _).andThen fun _ => (copyResources_claims b _ _).andThen fun _ =>
    (Claims.onDisk _ _).andThen fun _ => (writeVerification_claims b _).andThen fun _ => ?_
  rw [List.append_assoc]
  refine ((Alias.writeAll_claims _ _ _).adapt _).bind fun _ =>
    (renderSingle_claims b (b.renderer plan) _ _).bind fun _ =>
      (renderSingle_claims b (b.renderer plan) _ _).before fun _ => ?_
  exact (publishStylesheets_claims b).andThen fun _ => (Claims.onDisk _ _).andThen fun _ => .pure _

/-! ## Duplicates -/

theorem publishRest_urls {b : Builder} {plan : BuildPlan} {urls : List String} {w w' : World}
    {report : BuildReport} (h : (b.publishRest plan urls).run.run w = (.ok report, w')) :
    report.urls = urls := by
  unfold publishRest at h
  obtain ⟨_, _, -, h⟩ := Task.run_bind_eq_ok.1 h
  obtain ⟨_, _, -, h⟩ := Task.run_bind_eq_ok.1 h
  obtain ⟨_, _, -, h⟩ := Task.run_bind_eq_ok.1 h
  obtain ⟨_, _, -, h⟩ := Task.run_bind_eq_ok.1 h
  obtain ⟨_, _, -, h⟩ := Task.run_bind_eq_ok.1 h
  obtain ⟨_, _, -, h⟩ := Task.run_bind_eq_ok.1 h
  obtain ⟨_, _, -, h⟩ := Task.run_bind_eq_ok.1 h
  obtain ⟨_, _, -, h⟩ := Task.run_bind_eq_ok.1 h
  obtain ⟨_, _, -, h⟩ := Task.run_bind_eq_ok.1 h
  cases h
  rfl

/-- The two halves of a successful build. -/
theorem publish_eq_ok {b : Builder} {plan : BuildPlan} {w w' : World} {report : BuildReport}
    (h : (b.publish plan).run.run w = (.ok report, w')) :
    ∃ urls mid rest, (b.publishContent plan).run.run w = (.ok urls, mid) ∧
      (b.publishRest plan urls).run.run mid = (.ok rest, w') ∧ rest.urls = urls ∧
      report = { rest with inconsistencies := w'.session.reports } := by
  obtain ⟨urls, mid, hpages, h⟩ := Task.run_bind_eq_ok.1 h
  obtain ⟨rest, last, hrest, h⟩ := Task.run_bind_eq_ok.1 h
  cases h
  exact ⟨urls, mid, rest, hpages, hrest, publishRest_urls hrest, rfl⟩

theorem publish_of_build {b : Builder} {disk : Disk} {plan : BuildPlan} {report : BuildReport}
    (hplan : b.plan disk = .ok plan) (h : (b.build disk).1 = .ok report) :
    ∃ w, (b.publish plan).run.run ⟨disk, {}⟩ = (.ok report, w) ∧ (b.build disk).2 = w.disk := by
  unfold build at h ⊢
  rw [hplan] at h ⊢
  exact ⟨_, Prod.ext h rfl, rfl⟩

theorem reports_of_build {b : Builder} {disk : Disk} {plan : BuildPlan} {report : BuildReport}
    (hplan : b.plan disk = .ok plan) (h : (b.build disk).1 = .ok report) :
    report.inconsistencies.filterMap Inconsistency.duplicate? =
      (Session.Tally.claimAll ⟨[], []⟩ (b.claimedFiles plan report.urls)).duplicates := by
  obtain ⟨w, hrun, -⟩ := publish_of_build hplan h
  obtain ⟨urls, mid, rest, hpages, hrest, rfl, rfl⟩ := publish_eq_ok hrun
  have hp := publishContent_claims b plan _ _ _ hpages
  have hr := publishRest_claims b plan rest.urls _ _ _ hrest
  show w.session.tally.duplicates = _
  rw [claimedFiles, Session.Tally.claimAll_append, hr, hp]
  rfl

/-- A duplicate is reported exactly if two of the claimed files have the same components. So it is
reported when two claimed files whose names below the output directory do not climb are one. -/
theorem duplicate_reported_iff {b : Builder} {disk : Disk} {plan : BuildPlan} {report : BuildReport}
    (hplan : b.plan disk = .ok plan) (h : (b.build disk).1 = .ok report) :
    ((∃ file, .duplicateOutput file ∈ report.inconsistencies) ↔
        ¬ ((b.claimedFiles plan report.urls).map Path.components).Nodup) ∧
      ∀ first second names names' cwd,
        [first, second].Sublist (b.claimedFiles plan report.urls) →
        b.output.components ≠ [] →
        first.components = b.output.components ++ names → ".." ∉ names →
        second.components = b.output.components ++ names' → ".." ∉ names' →
        first.landsAt cwd = second.landsAt cwd →
        ∃ file, .duplicateOutput file ∈ report.inconsistencies := by
  have exact_iff : (∃ file, .duplicateOutput file ∈ report.inconsistencies) ↔
      ¬ ((b.claimedFiles plan report.urls).map Path.components).Nodup := by
    have none_iff := Session.Tally.claimAll_duplicates ⟨[], []⟩ (b.claimedFiles plan report.urls)
    rw [← reports_of_build hplan h] at none_iff
    rw [← not_iff_not, not_not]
    simp only [List.not_mem_nil, not_false_eq_true, implies_true, and_true, true_and] at none_iff
    rw [← none_iff, List.filterMap_eq_nil_iff]
    constructor
    · intro hnone problem hp
      cases problem with
      | duplicateOutput file => exact absurd ⟨file, hp⟩ hnone
      | _ => rfl
    · rintro hall ⟨file, hf⟩
      cases hall _ hf
  refine ⟨exact_iff, fun first second names names' cwd hsub hout hf hup hs hup' hland => ?_⟩
  rw [exact_iff]
  intro hnodup
  have hne := hnodup.sublist (hsub.map Path.components)
  rw [Path.landsAt_of_components_append hout hf hup,
    Path.landsAt_of_components_append hout hs hup', List.append_cancel_left_eq] at hland
  simp [hf, hs, hland] at hne

/-- A disk with a site whose one page is `a`, and whose aliases are given as they stand in the
website's specification. -/
def sampleDisk (aliases : String) : Disk where
  entries :=
    let file (text : String) : Entry := .file text.toUTF8 0
    [(["site"], .directory), (["site", "content"], .directory),
      (["site", "content", "a"], .directory),
      (["site", "content", "a", "item.json"], file "\x7b\x7d"),
      (["site", "themes"], .directory), (["site", "themes", "p"], .directory),
      (["site", "themes", "p", "d.ejs"], file "d"),
      (["site", "themes", "p", "theme.json"],
        file "\x7b\"templates\": \x7b\"default\": \"d.ejs\", \"404\": \"d.ejs\"\x7d\x7d"),
      (["site", "website.json"],
        file ("\x7b\"theme\": \"p\", \"mainPage\": \x7b\x7d, \"404\": \x7b\x7d, " ++
          "\"contents\": \"content\", \"aliases\": \x7b" ++ aliases ++ "\x7d\x7d"))]

/-- A build of `/site` to `/out`. -/
def sample : Builder where
  website := ⟨"/site"⟩
  output := ⟨"/out"⟩
  baseUrl := "u"

theorem duplicate_reported_iff_sample : ∃ plan report,
    sample.plan (sampleDisk "\"a\": \"u/a\"") = .ok plan ∧
      (sample.build (sampleDisk "\"a\": \"u/a\"")).1 = .ok report ∧
      (∃ file, .duplicateOutput file ∈ report.inconsistencies) ∧
      ¬ ((sample.claimedFiles plan report.urls).map Path.components).Nodup := by
  have hrun : ((sample.plan (sampleDisk "\"a\": \"u/a\"")).toOption.bind fun plan =>
      (sample.build (sampleDisk "\"a\": \"u/a\"")).1.toOption.map fun report =>
        report.inconsistencies) = some [.duplicateOutput ⟨"/out/a/index.html"⟩] := by
    decide +kernel
  obtain ⟨plan, hplan, hrun⟩ := Option.bind_eq_some_iff.1 hrun
  obtain ⟨report, hreport, hrun⟩ := Option.map_eq_some_iff.1 hrun
  have hplan := Except.toOption_eq_some_iff.1 hplan
  have hreport := Except.toOption_eq_some_iff.1 hreport
  have hdup : ∃ file, .duplicateOutput file ∈ report.inconsistencies :=
    ⟨⟨"/out/a/index.html"⟩, by rw [hrun]; exact List.mem_cons_self⟩
  exact ⟨plan, report, hplan, hreport, hdup, (duplicate_reported_iff hplan hreport).1.1 hdup⟩

/-- An alias that climbs names the file of a page without its components. -/
theorem duplicate_not_reported_of_climbing_alias : ∃ plan report first second,
    sample.plan (sampleDisk "\"x/../a\": \"u/a\"") = .ok plan ∧
      (sample.build (sampleDisk "\"x/../a\": \"u/a\"")).1 = .ok report ∧
      [first, second].Sublist (sample.claimedFiles plan report.urls) ∧
      (∀ cwd, first.landsAt cwd = second.landsAt cwd) ∧
      ¬ ∃ file, .duplicateOutput file ∈ report.inconsistencies := by
  have hrun : ((sample.plan (sampleDisk "\"x/../a\": \"u/a\"")).toOption.bind fun plan =>
      (sample.build (sampleDisk "\"x/../a\": \"u/a\"")).1.toOption.map fun report =>
        ((sample.claimedFiles plan report.urls).take 2, report.inconsistencies)) =
        some ([⟨"/out/a/index.html"⟩, ⟨"/out/x/../a/index.html"⟩], []) := by
    decide +kernel
  obtain ⟨plan, hplan, hrun⟩ := Option.bind_eq_some_iff.1 hrun
  obtain ⟨report, hreport, hrun⟩ := Option.map_eq_some_iff.1 hrun
  obtain ⟨hfiles, hnone⟩ := Prod.mk.inj hrun
  refine ⟨plan, report, ⟨"/out/a/index.html"⟩, ⟨"/out/x/../a/index.html"⟩,
    Except.toOption_eq_some_iff.1 hplan, Except.toOption_eq_some_iff.1 hreport, ?_, ?_, ?_⟩
  · rw [← hfiles]
    exact List.take_sublist 2 _
  · intro cwd
    rfl
  · rw [hnone]
    simp
end Builder

end StaticSite
