import StaticSite.Proofs.Content.Pages
import StaticSite.Proofs.Disk.Ensure
import StaticSite.Proofs.Site.Claims
import StaticSite.Proofs.Site.Sources

/-!
# Builds stay in their output

Containment of texts is judged by both slashes, files are found by one. A contained text leads below
every directory it is joined to exactly if it does not climb when only slashes separate its
segments, and a build whose contained texts do not climb changes nothing beyond its output
(`contained_iff`).
-/

namespace StaticSite.Builder

open Disk

variable {b : Builder} {plan : BuildPlan} {disk made : Disk} {base : Location}

/-! ## The two phases of a build -/

/-- The disk on which a build makes its pages. -/
def prepare (b : Builder) (disk : Disk) : Disk :=
  ((Disk.ensureDirectory b.output).run.run disk).2

/-- Writes the site into an output directory that is there. -/
def publishPages (b : Builder) (plan : BuildPlan) : SiteTask BuildError BuildReport := do
  b.publishRest plan (← ExceptT.adapt .render
    ((b.renderer plan).renderPages b.output b.order (plan.tree.pages plan.website.contents)))

/-- The session in which a build makes its pages. -/
def openSession (plan : BuildPlan) : Session :=
  registerAll {} plan.stylesheets

theorem run_publish (b : Builder) (plan : BuildPlan) (disk : Disk) :
    (b.publish plan).run.run { disk } =
      match (Disk.ensureDirectory b.output).run.run disk with
      | (.error cause, made) => (.error (.asset (.io cause)), ⟨made, openSession plan⟩)
      | (.ok (), made) =>
        let run := (b.publishPages plan).run.run ⟨made, openSession plan⟩
        (run.1.map fun report => { report with inconsistencies := run.2.session.reports },
          run.2) := by
  unfold publish publishContent publishPages ensureDirectory openSession
  rw [Task.run_bind, Task.run_bind, SiteTask.run_onSession]
  dsimp only
  rw [Task.run_bind, SiteTask.run_onDisk]
  rcases (Disk.ensureDirectory b.output).run.run disk with ⟨cause | ⟨⟩, made⟩
  · rfl
  · dsimp only [Except.mapError]
    rw [Task.run_bind]
    rcases (ExceptT.adapt BuildError.render ((b.renderer plan).renderPages b.output b.order
      (plan.tree.pages plan.website.contents))).run.run ⟨made, registerAll {} plan.stylesheets⟩ with
      ⟨cause | urls, w⟩
    · rfl
    · dsimp only
      rw [Task.run_bind]
      rcases (b.publishRest plan urls).run.run w with ⟨cause | report, w'⟩
      · rfl
      · rfl

theorem openSession_eq (plan : BuildPlan) : openSession plan =
    ({} : Session).applyAll (plan.stylesheets.map fun sheet => .register sheet.1 sheet.2) := by
  unfold openSession registerAll Session.applyAll
  rw [List.foldl_map]
  rfl

theorem knows_openSession (known : Templates) (plan : BuildPlan) :
    (openSession plan).Knows known := by
  have within : ∀ c ∈ plan.stylesheets.map fun sheet => Change.register sheet.1 sheet.2,
      c.IsWithin known (fun _ => True) fun _ _ => True := by
    intro c hc
    obtain ⟨sheet, -, rfl⟩ := List.mem_map.1 hc
    trivial
  rw [openSession_eq]
  exact (Session.Knows.initial known).applyAll within

theorem mem_stylesheets_openSession {name css : String}
    (h : (name, css) ∈ (openSession plan).stylesheets) :
    (name, css) ∈ plan.stylesheets := by
  rw [openSession_eq] at h
  rcases Session.mem_stylesheets_applyAll h with h | h
  · cases h
  · obtain ⟨sheet, hs, he⟩ := List.mem_map.1 h
    cases he
    exact hs

/-! ## What a build allows in its output -/

/-- The output directory of a build. -/
def outputZone (hw : made.WellFormed) (hr : Reaches made b.output base)
    (hl : made.HasNoLinks base) :
    Zone where
  made
  outer := base
  root := b.output
  base
  start := made
  start' := made
  wellFormed := hw
  inside := List.prefix_rfl
  settled := .refl hl
  settled' := .refl hl
  reaches := hr
  reaches' := hr

/-- The stylesheets that may be registered: those whose contained names do not climb. -/
def StaysSheet (name _css : String) : Prop :=
  Url.isContained name = true → Path.stays ⟨name⟩ = true

/-- Two runs of a build in its output directory. -/
def outputWorld (plan : BuildPlan) (z : Zone) : World.Simulation :=
  .ofChanges z.simulation (templates plan z.made) (fun _ => True) StaysSheet
    (knows_openSession _ plan) (knows_openSession _ plan)

variable {z : Zone}

theorem stay_item {source : Path} {item : ItemSpec} (ht : Stay (b.texts plan))
    (hi : (source, item) ∈ b.items plan) : Stay item.resources.texts :=
  ht.of_subset fun _ hm => by
    refine List.mem_append_left _ (List.mem_append_left _ (List.mem_append_left _ ?_))
    exact List.mem_flatMap.2 ⟨_, mem_resources_of_mem_items hi, hm⟩

theorem allowsPage (h : b.IsApart plan z.made z.outer) (ht : Stay (b.texts plan))
    {source output : Path}
    {item : ItemSpec} {names : List String} (hi : (source, item) ∈ b.items plan)
    (hc : Continues z.root output names) {target : PageTarget}
    (hn : Path.IsName (target.stem ++ ".html")) :
    (outputWorld plan z).scope.AllowsPage (b.renderer plan) item source output target where
  making path hp := allowsMaking h _ _ (fun _ hf => hf)
    (fun _ _ _ (hd : z.Rel _ _) hf => readText_congr (hf.same hd.beyond.agreeBeyond))
    (fun hm => by revert hm; decide) hi hp
  directory := ⟨_, hc⟩
  writing := allowsWriting z h _ _ target hi hc (stay_item ht hi) hn trivial

theorem continues_stylesheetDirectory (hroot : z.root = b.output) :
    Continues z.root b.stylesheetDirectory ["css"] :=
  hroot ▸ (Continues.refl b.output).join_name (by simp [Path.IsName])

/-- The stylesheets of a session of the build may be written. -/
theorem allowsSheets (ht : Stay (b.texts plan)) (hroot : z.root = b.output) {s s' : Session}
    (h : (outputWorld plan z).sessions s s') :
    s.stylesheets = s'.stylesheets ∧ (outputWorld plan z).scope.AllowsSheets b s.stylesheets := by
  obtain ⟨cs, hcs, rfl, rfl⟩ := h
  refine ⟨rfl, fun name css hm hc => ?_⟩
  have hs : Path.stays ⟨name⟩ = true := by
    rcases Session.mem_stylesheets_applyAll hm with hm | hm
    · refine ht name ?_ hc
      have := List.mem_map_of_mem (f := Prod.fst) (mem_stylesheets_openSession hm)
      simp [texts, this]
    · exact hcs _ hm hc
  have hrel : Path.IsRelative (name ++ ".css") :=
    (Path.isRelative_of_isContained hc).append (by simp [Path.IsRelative])
  exact (continues_stylesheetDirectory hroot).join_of_stays hrel
    (Path.stays_append hs (by decide) (by decide))

theorem allowsRest (h : b.IsApart plan z.made z.outer) (ht : Stay (b.texts plan))
    (hroot : z.root = b.output) : (outputWorld plan z).scope.AllowsRest b plan := by
  have hout : Continues z.root b.output [] := hroot ▸ .refl b.output
  have resources {source : Path} {resources : Resources}
      (hm : (source, resources) ∈ b.resources plan) :
      (outputWorld plan z).scope.AllowsResources source b.output resources := by
    refine allowsResources z h _ _ hm hout (ht.of_subset fun t hmem => ?_)
    refine List.mem_append_left _ (List.mem_append_left _ (List.mem_append_left _ ?_))
    exact List.mem_flatMap.2 ⟨_, hm, hmem⟩
  have single {t : String} (hm : t ∈ b.texts plan) (hc : Url.isContained t = true) :
      ∃ left, Continues z.root (b.output.join t) left :=
    hout.join_of_stays (Path.isRelative_of_isContained hc) (ht t hm hc)
  have named {n : String} (hn : Path.IsName n) : ∃ left, Continues z.root (b.output.join n) left :=
    ⟨_, hout.join_name hn⟩
  refine ⟨resources ?_, resources ?_, named ?_, fun t hv => single ?_, fun route target hm hc => ?_,
    allowsPage h ht ?_ hout ?_, allowsPage h ht ?_ hout ?_,
      ⟨_, continues_stylesheetDirectory hroot⟩,
    named ?_⟩
  · simp [Builder.resources]
  · simp [Builder.resources]
  · simp [Path.IsName, Sitemap.fileName]
  · simp [texts, hv]
  · have hmem : Alias.relativePath route ∈ b.texts plan := by
      have := List.mem_map_of_mem (f := fun a : String × String => Alias.relativePath a.1) hm
      simp only [texts, List.mem_append]
      exact .inl (.inl (.inr this))
    obtain ⟨left, hl⟩ := single hmem hc
    exact ⟨⟨left, hl⟩, ⟨_, hl.join_name (by simp [Path.IsName])⟩, trivial⟩
  · simp [items]
  · simp [PageTarget.stem, Path.IsName]
  · simp [items]
  · simp [PageTarget.stem, Path.IsName]
  · simp [Path.IsName]

/-- What a build does in its output directory has the property of every logic with this scope. -/
theorem holds_publishPages (L : World.Logic (outputWorld plan z).scope) (hs : L.AllowsSheets b)
    (h : b.IsApart plan z.made z.outer) (ht : Stay (b.texts plan)) (hroot : z.root = b.output)
    (hp : ∀ page ∈ plan.tree.pages plan.website.contents, page.IsPlain) :
    L.holds (b.publishPages plan) := by
  refine L.bind (L.adapt _ (L.renderPages (fun page hm => ?_) _))
    (L.publishRest (allowsRest h ht hroot) hs)
  have hout : Continues z.root b.output [] := hroot ▸ .refl b.output
  have hc : Continues z.root (b.output.join (chainUrl page.chain)) ([] ++ page.chain) :=
    hout.join_names (hp page hm).names
  rw [← (hp page hm).url] at hc
  exact allowsPage h ht (mem_items_of_page hm) hc (by simp [PageTarget.stem, Path.IsName])

/-! ## What a build changes -/

/-- A build in an output directory that is there changes nothing beyond it. -/
theorem settled_publishPages (hw : made.WellFormed) (hr : Reaches made b.output base)
    (hl : made.HasNoLinks base) (h : b.IsApart plan made base) (ht : Stay (b.texts plan))
    (hp : ∀ page ∈ plan.tree.pages plan.website.contents, page.IsPlain) :
    Settled made base ((b.publishPages plan).run.run ⟨made, openSession plan⟩).2.disk := by
  have hrel : (outputWorld plan (outputZone hw hr hl)).rel ⟨made, openSession plan⟩
      ⟨made, openSession plan⟩ :=
    ⟨⟨.refl hl, .refl hl, fun _ _ => rfl⟩, .refl⟩
  have hrespects := holds_publishPages (outputWorld plan (outputZone hw hr hl)).logic
    (fun _ _ hsame => allowsSheets ht rfl hsame.2) h ht rfl hp
  exact (hrespects _ _ hrel).2.1.settled

/-- What a plan holds is what is read one after the other. -/
theorem plan_eq_ok_iff : b.plan disk = .ok plan ↔
    WebsiteSpec.loadFrom disk b.website = .ok plan.website ∧
      ThemeSpec.resolve disk plan.website.theme b.searchDirectories = .ok plan.theme ∧
      readStylesheets b.website disk plan.website.stylesheets = .ok plan.stylesheets ∧
      ContentTree.gather disk (b.website.join plan.website.contents) = .ok plan.tree := by
  unfold Builder.plan
  simp only [Except.bind_eq_ok_iff, Except.mapError_eq_ok_iff]
  constructor
  · rintro ⟨website, hwebsite, theme, htheme, sheets, hsheets, tree, htree, ⟨⟩⟩
    exact ⟨hwebsite, htheme, hsheets, htree⟩
  · rintro ⟨hwebsite, htheme, hsheets, htree⟩
    exact ⟨_, hwebsite, _, htheme, _, hsheets, _, htree, rfl⟩

theorem pages_of_plan (hw : disk.WellFormed) (hplan : b.plan disk = .ok plan) :
    (∀ page ∈ plan.tree.pages plan.website.contents, page.IsPlain) ∧
      InDepthOrder (plan.tree.pages plan.website.contents) := by
  obtain ⟨hnamed, hspec⟩ := ContentTree.gather_wellNamed hw (plan_eq_ok_iff.1 hplan).2.2.2
  exact ContentTree.pages_plain hnamed hspec _

theorem build_eq_of_plan (hplan : b.plan disk = .ok plan) :
    b.build disk = (((b.publish plan).run.run { disk }).1,
      ((b.publish plan).run.run { disk }).2.disk) := by
  unfold build
  rw [hplan]
  rfl

/-- The disk behind a build came from one on which the output directory was made by changes in that
directory. -/
theorem build_settled (hw : disk.WellFormed) (hplan : b.plan disk = .ok plan)
    (ht : Stay (b.texts plan)) (h : ∀ base, Reaches (b.prepare disk) b.output base →
      (b.prepare disk).HasNoLinks base ∧ b.IsApart plan (b.prepare disk) base) :
    (b.build disk).2 = b.prepare disk ∨ ∃ base, Reaches (b.prepare disk) b.output base ∧
      (b.prepare disk).HasNoLinks base ∧ Settled (b.prepare disk) base (b.build disk).2 := by
  have hmade := (ensureDirectory_grows hw b.output).wellFormed
  rw [build_eq_of_plan hplan, run_publish]
  unfold prepare at h ⊢
  cases hrun : (Disk.ensureDirectory b.output).run.run disk with
  | mk outcome made =>
    rw [hrun] at h hmade
    cases outcome with
    | error cause => exact .inl rfl
    | ok =>
      obtain ⟨base, hr⟩ := reaches_of_ensureDirectory hrun
      obtain ⟨hl, ha⟩ := h base hr
      exact .inr ⟨base, hr, hl, settled_publishPages hmade hr hl ha ht (pages_of_plan hw hplan).1⟩

/-- A text leads below every directory exactly if it does not climb when only slashes separate its
segments, which not all contained texts do. A build whose contained texts do not climb, with no
links in its output and with sources apart from it, changes only what is in its output directory;
besides, it makes that directory and those above it where nothing was. -/
theorem changes_are_in_output (b : Builder) (disk : Disk) :
    (∀ text, Url.isContained text = true →
      ((∀ here, here <+: Path.landing here (Path.segments ⟨text⟩)) ↔ Path.stays ⟨text⟩ = true)) ∧
    (disk.WellFormed →
      (∀ plan, b.plan disk = .ok plan → Stay (b.texts plan) ∧
        ∀ base, Reaches (b.prepare disk) b.output base →
          (b.prepare disk).HasNoLinks base ∧ b.IsApart plan (b.prepare disk) base) →
      ∀ place, (b.build disk).2.at? place ≠ disk.at? place →
        (∃ base, Reaches (b.build disk).2 b.output base ∧ base <+: place) ∨
          disk.at? place = none ∧ (b.build disk).2.at? place = some .directory ∧
            ∃ p ∈ b.output.withAncestors, Reaches (b.build disk).2 p place) := by
  refine ⟨fun text _ => (Path.stays_iff_landing ⟨text⟩).symm, fun hw h place hne => ?_⟩
  cases hplan : b.plan disk with
  | error cause =>
    rw [build_of_plan_error hplan] at hne
    exact absurd rfl hne
  | ok plan =>
    obtain ⟨ht, hbase⟩ := h plan hplan
    have hgrown := (ensureDirectory_grows hw b.output).made place
    rcases build_settled hw hplan ht hbase with hb | ⟨base, hr, hl, hs⟩
    · rw [hb] at hne ⊢
      exact .inr (hgrown.resolve_left hne)
    · by_cases hp : base <+: place
      · exact .inl ⟨base, hs.reaches hl hr, hp⟩
      · have hsame := hs.at?_eq hp
        rw [hsame] at hne ⊢
        obtain ⟨hnone, hdir, p, hmem, hreach⟩ := hgrown.resolve_left hne
        exact .inr ⟨hnone, hdir, p, hmem, hs.reaches hl hreach⟩

/-- A disk with a site whose one page is `a`, with the alias `b`. -/
def aliasDisk : Disk :=
  sampleDisk "\"b\": \"u/a\""

theorem aliasDisk_wellFormed : aliasDisk.WellFormed :=
  .of_entries (by decide) (by decide) (by decide)

theorem aliasDisk_linkFree : (sample.prepare aliasDisk).isLinkFree = true := by
  decide +kernel

/-- Without links, an absolute path of one name leads to the place of that name. -/
theorem eq_of_reaches {p : Path} {n : String} (hl : disk.isLinkFree = true) (hn : IsProper n)
    (hp : p.segments = ["", n]) (ha : p.isAbsolute = true) (h : Reaches disk p base) :
    base = [n] := by
  have hwalk : walkFrom disk true linkLimit [] ["", n] = .ok (.held base .directory) := by
    have := reaches_iff.1 h
    rwa [startOf, ha, if_pos rfl, hp] at this
  rw [walkFrom_idle (by decide), walkFrom_proper hn] at hwalk
  cases hout : disk.at? ([] ++ [n]) with
  | none =>
    rw [hout] at hwalk
    cases hwalk
  | some entry =>
    rw [hout] at hwalk
    cases entry with
    | file => cases hwalk
    | link target => exact absurd hout (not_link_of_isLinkFree hl _ target)
    | directory =>
      cases hwalk
      rfl

theorem eq_out_of_reaches (hl : disk.isLinkFree = true) (h : Reaches disk sample.output base) :
    base = ["out"] :=
  eq_of_reaches hl ⟨by decide, by decide, by decide⟩ (by decide) (by decide) h

/-- The templates of a sample site are one file, and nothing else is read. -/
def ReadsOneTemplate (plan : BuildPlan) : Prop :=
  plan.theme.templates = [("404", "d.ejs"), ("default", "d.ejs")] ∧
    plan.theme.basePath = ⟨"/site/themes/p"⟩ ∧
    (∀ i ∈ sample.items plan, i.2.markdowns = [] ∧ i.2.inlineStyles = none) ∧
    ∀ r ∈ sample.resources plan, r.2 = []

instance (plan : BuildPlan) : Decidable (ReadsOneTemplate plan) :=
  inferInstanceAs (Decidable (_ ∧ _ ∧ _ ∧ _))

theorem isApart_sample (hl : disk.isLinkFree = true) (h : ReadsOneTemplate plan) :
    sample.IsApart plan disk ["out"] where
  template {name path} hp := by
    rw [ThemeSpec.templatePath?, h.1, h.2.1] at hp
    obtain ⟨file, hf, rfl⟩ := Option.map_eq_some_iff.1 hp
    obtain ⟨first, last, hsplit, -⟩ := List.lookup_eq_some_iff.1 hf
    have hmem : (name, file) ∈ [("404", "d.ejs"), ("default", "d.ejs")] := hsplit ▸ by simp
    obtain rfl : file = "d.ejs" := by
      simp only [List.mem_cons, Prod.mk.injEq, List.not_mem_nil, or_false] at hmem
      exact hmem.elim And.right And.right
    have hway :
        IsWay disk (Path.join ⟨"/site/themes/p"⟩ "d.ejs") ["site", "themes", "p", "d.ejs"] :=
      ⟨by decide, rfl, fun way t _ => not_link_of_isLinkFree hl way t⟩
    exact hway.isReadable (by decide)
  markdown hi hm := by
    rw [(h.2.2.1 _ hi).1] at hm
    cases hm
  style hi hm := by
    rw [(h.2.2.1 _ hi).2] at hm
    cases hm
  resource {source resources name target} hr hm := by
    obtain rfl : resources = [] := h.2.2.2 (source, resources) hr
    cases hm

/-- Whether an entry is a file. -/
def isFileEntry : Entry → Bool
  | .file _ _ => true
  | _ => false

theorem changes_are_in_output_of_alias :
    ∃ base, Reaches (sample.build aliasDisk).2 sample.output base ∧
      base <+: ["out", "b", "index.html"] := by
  have hfile : ((sample.build aliasDisk).2.at? ["out", "b", "index.html"]).any isFileEntry =
      true := by
    decide +kernel
  have hfacts : (sample.plan aliasDisk).toOption.all (fun plan =>
      sample.texts plan = ["b"] ∧ ReadsOneTemplate plan) = true := by
    decide +kernel
  refine ((changes_are_in_output sample aliasDisk).2 aliasDisk_wellFormed (fun plan hplan => ?_) _
    fun he => ?_).resolve_right fun hd => ?_
  · rw [hplan] at hfacts
    obtain ⟨htexts, hreads⟩ := of_decide_eq_true hfacts
    refine ⟨by rw [htexts]; decide, fun base hr => ⟨fun l _ t => ?_, ?_⟩⟩
    · exact not_link_of_isLinkFree aliasDisk_linkFree l t
    · rw [eq_out_of_reaches aliasDisk_linkFree hr]
      exact isApart_sample aliasDisk_linkFree hreads
  · rw [he] at hfile
    exact absurd hfile (by decide)
  · rw [hd.2.1] at hfile
    cases hfile

/-- A contained alias with a backslash puts a page beside the output directory. -/
theorem changes_beyond_output_of_backslash :
    Url.isContained (Alias.relativePath "a\\b/../../x") = true ∧
      ¬ ["out"] <+: Path.landing ["out"] (Path.segments ⟨Alias.relativePath "a\\b/../../x"⟩) ∧
      ((sampleDisk "\"a\\\\b/../../x\": \"u/a\"").at? ["x", "index.html"]).isNone = true ∧
      ((sample.build (sampleDisk "\"a\\\\b/../../x\": \"u/a\"")).2.at? ["x", "index.html"]).any (fun
        | .file _ _ => true
        | _ => false) = true := by
  exact ⟨by decide, by decide, by decide, by decide +kernel⟩

end StaticSite.Builder
