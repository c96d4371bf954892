import Mathlib.Data.Finset.Card
import StaticSite.Proofs.Disk.Placing
import StaticSite.Proofs.Site.Orders
import StaticSite.Proofs.Site.Registering

/-!
# Published stylesheets

Stylesheets are written behind the last page that can register one, each to a place of its own, and
only the rules for web robots are written behind them. So when a build is through, the file of each
registered stylesheet holds its text, minified (`stylesheets_are_published`).
-/

namespace StaticSite

open Disk

/-! ## The files of stylesheets -/

/-- A name that leads from directory to directory between its slashes, and has no backslashes. -/
def IsSheetName (name : String) : Prop :=
  '\\' ∉ name.toList ∧ ∀ s ∈ Path.segments ⟨name⟩, s ≠ "" ∧ s ≠ "." ∧ s ≠ ".."

instance (name : String) : Decidable (IsSheetName name) :=
  inferInstanceAs (Decidable (_ ∧ ∀ s ∈ Path.segments ⟨name⟩, s ≠ "" ∧ s ≠ "." ∧ s ≠ ".."))

/-- The names of a stylesheet's file below the output. -/
def sheetNames (name : String) : List String :=
  "css" :: Path.segments ⟨name ++ ".css"⟩

variable {name css : String}

theorem isSheetName_markdown : IsSheetName markdownStylesheet := by
  decide

theorem eq_of_sheetNames_eq {other : String} (h : sheetNames name = sheetNames other) :
    name = other := by
  have := Path.eq_of_segments_eq (List.cons.inj h).2
  exact String.append_left_inj ".css" |>.1 this

namespace IsSheetName

theorem isName (h : IsSheetName name) : ∀ s ∈ Path.segments ⟨name⟩, Path.IsName s :=
  fun s hs => ⟨(h.2 s hs).1, (h.2 s hs).2.1, (h.2 s hs).2.2, Path.noSlash_of_mem_segments hs⟩

theorem isContained (h : IsSheetName name) : Url.isContained name = true :=
  Path.isContained_of_segments h.isName h.1

theorem isName_file (h : IsSheetName name) :
    ∀ s ∈ Path.segments ⟨name ++ ".css"⟩, Path.IsName s := by
  obtain ⟨init, last, hname, hfile⟩ := Path.segments_append name (t := ".css") (by decide)
  have hall := h.isName
  rw [hname] at hall
  rw [hfile]
  intro s hs
  rcases List.mem_append.1 hs with hs | hs
  · exact hall s (List.mem_append_left _ hs)
  · obtain rfl := List.mem_singleton.1 hs
    -- the ending alone is longer than what no name may be
    have hlong {t : String} (ht : t.length < 4) : last ++ ".css" ≠ t := by
      intro he
      have hlength := congrArg String.length he
      rw [String.length_append, show ".css".length = 4 from rfl] at hlength
      omega
    refine ⟨hlong (by decide), hlong (by decide), hlong (by decide), ?_⟩
    rw [String.toList_append, List.mem_append, not_or]
    exact ⟨(hall last (by simp)).2.2.2, by decide⟩

end IsSheetName

namespace Builder

variable {b : Builder} {plan : BuildPlan} {disk after made : Disk} {base : Location}
  {sheets : Fields String} {w v : World}

/-- The file of a stylesheet. -/
def sheetFile (b : Builder) (name : String) : Path :=
  b.stylesheetDirectory.join (name ++ ".css")

theorem extends_stylesheetDirectory (b : Builder) :
    Extends b.output b.stylesheetDirectory ["css"] :=
  (Extends.refl b.output).join (by decide)

theorem extends_sheetFile (b : Builder) (h : IsSheetName name) :
    Extends b.output (b.sheetFile name) (sheetNames name) :=
  b.extends_stylesheetDirectory.join_text h.isName_file

/-- On a disk, the file of a stylesheet holds its text, minified. -/
structure Publishes (b : Builder) (base : Location) (disk : Disk) (name css : String) : Prop where
  noFault : faultOf (b.sheetFile name) = none
  stored : IsStored disk base (sheetNames name) (Minify.style css).toUTF8

theorem Publishes.readText (h : b.Publishes base disk name css) (hn : IsSheetName name)
    (hr : Reaches disk b.output base) : disk.readText (b.sheetFile name) = .ok (Minify.style css) :=
  h.stored.readText (b.extends_sheetFile hn) (List.cons_ne_nil _ _) h.noFault hr

theorem Publishes.mono (h : b.Publishes base disk name css) (hp : Persists disk after)
    (hsame : after.at? (base ++ sheetNames name) = disk.at? (base ++ sheetNames name)) :
    b.Publishes base after name css :=
  ⟨h.noFault, h.stored.mono hp hsame⟩

/-! ## Writing stylesheets -/

/-- The stylesheets are written to an output directory that is there and in which no link is. -/
structure IsOutput (b : Builder) (base : Location) (disk : Disk) : Prop where
  keyed : disk.Keyed
  reaches : Reaches disk b.output base
  noLinks : disk.HasNoLinks base

theorem IsOutput.mono (h : b.IsOutput base disk) (hk : disk.KeepsLinks after) :
    b.IsOutput base after :=
  ⟨hk.keyed, hk.reaches h.reaches, hk.hasNoLinks h.noLinks⟩

theorem IsOutput.carries (h : b.IsOutput base w.disk) : w.Carries w.disk w.session.stylesheets :=
  ⟨.refl h.keyed, rfl⟩

theorem run_writeStylesheet {written : Bool} (hn : IsSheetName name) (ho : b.IsOutput base w.disk)
    (h : (b.writeStylesheet name css).run.run w = (.ok written, v)) :
    written = true ∧ b.Publishes base v.disk name css ∧ w.disk.KeepsLinks v.disk ∧
      ∀ l, l ≠ base ++ sheetNames name → w.disk.at? l ≠ none → v.disk.at? l = w.disk.at? l := by
  have hkeeps := (ho.carries.run (World.Logic.writeStylesheet _ fun _ => trivial) h).disk
  have hextends := b.extends_sheetFile hn
  obtain ⟨init, s, hne, hnames⟩ : ∃ init s, init ≠ [] ∧ sheetNames name = init ++ [s] := by
    obtain ⟨init, last, -, hfile⟩ := Path.segments_append name (t := ".css") (by decide)
    exact ⟨"css" :: init, last ++ ".css", List.cons_ne_nil _ _, by rw [sheetNames, hfile]; rfl⟩
  rw [hnames] at hextends ⊢
  unfold writeStylesheet at h
  rw [if_pos hn.isContained] at h
  have hparent : (b.stylesheetDirectory.join (name ++ ".css")).parent? = _ := hextends.parent?
  simp only [hparent] at h
  obtain ⟨⟨⟩, m, hparents, h⟩ := Task.run_bind_eq_ok.1 h
  obtain ⟨⟨⟩, m', hwrite, hreturn⟩ := Task.run_bind_eq_ok.1 h
  cases hreturn
  obtain ⟨made, hmade, rfl⟩ := SiteTask.run_onDisk_eq_ok.1 hparents
  obtain ⟨disk', hcall, rfl⟩ := SiteTask.run_onDisk_eq_ok.1 hwrite
  obtain ⟨hf, hstored, hframe⟩ := hextends.store hne ho.reaches ho.noLinks hmade
    (Disk.Task.run_call_eq_ok.1 hcall)
  exact ⟨rfl, ⟨hf, by rwa [hnames]⟩, hkeeps, hframe⟩

/-- Each stylesheet is written to a place of its own. -/
theorem run_writeStylesheets {count : Nat} (hn : ∀ n ∈ sheets.names, IsSheetName n)
    (hnodup : sheets.names.Nodup) (ho : b.IsOutput base w.disk)
    (h : (b.writeStylesheets sheets).run.run w = (.ok count, v)) :
    count = sheets.length ∧ w.disk.KeepsLinks v.disk ∧
      (∀ name css, (name, css) ∈ sheets → b.Publishes base v.disk name css) ∧
      ∀ l, (∀ n ∈ sheets.names, l ≠ base ++ sheetNames n) → w.disk.at? l ≠ none →
        v.disk.at? l = w.disk.at? l := by
  induction sheets generalizing w count with
  | nil =>
    cases h
    exact ⟨rfl, .refl ho.keyed, nofun, fun _ _ _ => rfl⟩
  | cons sheet rest ih =>
    obtain ⟨name, css⟩ := sheet
    obtain ⟨hfirst, hrest⟩ := List.nodup_cons.1 hnodup
    obtain ⟨written, m, hwrite, h⟩ := Task.run_bind_eq_ok.1 h
    obtain ⟨more, _, hmore, hreturn⟩ := Task.run_bind_eq_ok.1 h
    cases hreturn
    obtain ⟨rfl, hpublished, hkeeps, hframe⟩ :=
      run_writeStylesheet (hn name List.mem_cons_self) ho hwrite
    obtain ⟨rfl, hkeeps', hothers, hframe'⟩ :=
      ih (fun n hm => hn n (List.mem_cons_of_mem _ hm)) hrest (ho.mono hkeeps) hmore
    refine ⟨Nat.add_comm _ _, hkeeps.trans hkeeps', fun n c hm => ?_, fun l hl hat => ?_⟩
    · rcases List.mem_cons.1 hm with he | hm
      · cases he
        -- none of the later stylesheets has this place
        refine hpublished.mono hkeeps'.persists (hframe' _ (fun n hm he => hfirst ?_) ?_)
        · exact eq_of_sheetNames_eq (List.append_cancel_left he) ▸ hm
        · obtain ⟨modified, hfile⟩ := hpublished.stored.file
          simp [hfile]
      · exact hothers n c hm
    · have hsame := hframe l (hl name List.mem_cons_self) hat
      rw [hframe' l (fun n hm => hl n (List.mem_cons_of_mem _ hm)) (hsame ▸ hat), hsame]

theorem run_publishStylesheets {count : Nat} (hn : ∀ n ∈ w.session.stylesheets.names, IsSheetName n)
    (hnodup : w.session.stylesheets.names.Nodup) (ho : b.IsOutput base w.disk)
    (h : b.publishStylesheets.run.run w = (.ok count, v)) :
    count = w.session.stylesheets.length ∧ b.IsOutput base v.disk ∧
      ∀ name css, (name, css) ∈ w.session.stylesheets → b.Publishes base v.disk name css := by
  unfold publishStylesheets at h
  obtain ⟨_, _, hget, h⟩ := Task.run_bind_eq_ok.1 h
  cases hget
  revert h hn hnodup
  generalize hs : w.session.stylesheets = sheets
  intro hn hnodup h
  cases sheets with
  | nil =>
    cases h
    exact ⟨rfl, ho, nofun⟩
  | cons sheet rest =>
    obtain ⟨⟨⟩, m, hmade, h⟩ := Task.run_bind_eq_ok.1 h
    have hm := (ho.carries.run (World.Logic.ensureTarget _ trivial _) hmade).disk
    obtain ⟨hcount, hkeeps, hall, -⟩ := run_writeStylesheets hn hnodup (ho.mono hm) h
    exact ⟨hcount, ho.mono (hm.trans hkeeps), hall⟩

/-- The rules for web robots have a place of their own. -/
theorem Publishes.of_robots {rules : Robots.Rules} {sitemap : String} {isThere : Bool}
    (h : b.Publishes base disk name css) (ho : b.IsOutput base disk)
    (hrun : (Robots.write rules sitemap b.output).run.run disk = (.ok isThere, after)) :
    b.IsOutput base after ∧ b.Publishes base after name css := by
  unfold Robots.write at hrun
  split at hrun
  · cases hrun
    exact ⟨ho, h⟩
  · obtain ⟨⟨⟩, made, hwrite, hreturn⟩ := Task.run_bind_eq_ok.1 hrun
    cases hreturn
    have hwrite := Disk.Task.run_call_eq_ok.1 hwrite
    have hkeeps := (KeepsLinks.refl ho.keyed).writeBytes hwrite
    have hextends : Extends b.output (b.output.join "robots.txt") ([] ++ ["robots.txt"]) :=
      (Extends.refl b.output).join (by decide)
    obtain ⟨-, -, hput⟩ := hextends.put_of_writeText ho.reaches
      (fun way hne hp => absurd (List.prefix_nil.1 hp) hne)
      (ho.noLinks _ (List.prefix_append _ _)) hwrite
    refine ⟨ho.mono hkeeps, h.mono hkeeps.persists ?_⟩
    rw [hput, at?_put_of_ne]
    intro he
    exact absurd (List.cons.inj (List.append_cancel_left he)).1 (by decide)

/-! ## Builds -/

/-- The names of the stylesheets that a build registers: the website's own ones, and that of
markdown if a page uses it. -/
def registeredNames (b : Builder) (plan : BuildPlan) : List String :=
  plan.website.stylesheets.names ++ if b.usesMarkdown plan then [markdownStylesheet] else []

theorem toFinset_registeredNames (hplan : b.plan disk = .ok plan) :
    (b.registeredNames plan).toFinset =
      (withMarkdown b.markdownCss (b.usesMarkdown plan) plan.stylesheets).names.toFinset := by
  ext n
  rw [List.mem_toFinset, List.mem_toFinset, mem_names_withMarkdown, names_stylesheets hplan,
    registeredNames, List.mem_append]
  cases b.usesMarkdown plan <;> simp

theorem isSheetName_of_mem (hnames : ∀ n ∈ plan.website.stylesheets.names, IsSheetName n)
    (hplan : b.plan disk = .ok plan) :
    ∀ n ∈ (withMarkdown b.markdownCss (b.usesMarkdown plan) plan.stylesheets).names,
      IsSheetName n := by
  intro n hn
  rcases mem_names_withMarkdown.1 hn with hn | ⟨-, rfl⟩
  · exact hnames n (names_stylesheets hplan ▸ hn)
  · exact isSheetName_markdown

/-- Behind a build that succeeds, the stylesheets that are registered in the end were counted and
stand in their files. -/
theorem build_publishes (hw : disk.WellFormed) (hplan : b.plan disk = .ok plan)
    (hnames : ∀ n ∈ plan.website.stylesheets.names, IsSheetName n)
    (hsources : b.HasNoLinkedSources plan disk)
    (hout : ∀ base, Reaches (b.prepare disk) b.output base → (b.prepare disk).HasNoLinks base)
    {report : BuildReport} (hbuild : b.build disk = (.ok report, after)) :
    report.stylesheets =
      (withMarkdown b.markdownCss (b.usesMarkdown plan) plan.stylesheets).length ∧
      ∀ name css,
        Fields.get? (withMarkdown b.markdownCss (b.usesMarkdown plan) plan.stylesheets) name =
          some css →
        after.readText (b.sheetFile name) = .ok (Minify.style css) := by
  obtain ⟨rest, v, hmade, hrun, rfl, rfl⟩ := (build_eq_ok_iff hplan).1 hbuild
  obtain ⟨base, hreaches⟩ := reaches_of_ensureDirectory hmade
  have hkeeps : disk.KeepsLinks (b.prepare disk) :=
    (KeepsLinks.refl hw.keyed).run (Disk.Logic.ensureTarget _ trivial) hmade
  have hopen : World.Carries (b.prepare disk) plan.stylesheets ⟨b.prepare disk, openSession plan⟩ :=
    ⟨.refl hkeeps.keyed, stylesheets_openSession hplan⟩
  obtain ⟨m, m', rules, hm, hpublish, hrobots⟩ :=
    run_publishPages_stylesheets (hsources.mono hkeeps) hopen hrun
  have hmade : b.IsOutput base (b.prepare disk) := ⟨hkeeps.keyed, hreaches, hout base hreaches⟩
  have hsheets := hm.stylesheets
  have hordered : m.session.stylesheets.IsOrdered :=
    hsheets ▸ isOrdered_withMarkdown (isOrdered_stylesheets hplan) _ _
  obtain ⟨hcount, ho, hall⟩ := run_publishStylesheets
    (hsheets ▸ isSheetName_of_mem hnames hplan) hordered.nodup (hmade.mono hm.disk) hpublish
  refine ⟨hsheets ▸ hcount, fun name css hget => ?_⟩
  rw [← hsheets] at hget
  obtain ⟨ho', hpublished⟩ := (hall name css (Fields.mem_of_get? hget)).of_robots ho hrobots
  refine hpublished.readText ?_ ho'.reaches
  exact isSheetName_of_mem hnames hplan name
    (hsheets ▸ List.mem_map.2 ⟨_, Fields.mem_of_get? hget, rfl⟩)

/-- Behind a build that succeeds, the website's own stylesheets stand in their files, minified, and
so does that of markdown if a page uses it and the website has none of its name. As many were
written as there are names, and a page with markdown links the stylesheet of markdown, once unless
its specification names it more often. -/
theorem stylesheets_are_published (hw : disk.WellFormed) (hplan : b.plan disk = .ok plan)
    (hnames : ∀ n ∈ plan.website.stylesheets.names, IsSheetName n)
    (hsources : b.HasNoLinkedSources plan disk)
    (hout : ∀ base, Reaches (b.prepare disk) b.output base → (b.prepare disk).HasNoLinks base)
    {report : BuildReport} (hbuild : b.build disk = (.ok report, after)) :
    (∀ name file, (name, file) ∈ plan.website.stylesheets → ∃ css,
        disk.readText (b.website.join file) = .ok css ∧
          after.readText (b.sheetFile name) = .ok (Minify.style css)) ∧
      (b.usesMarkdown plan = true → markdownStylesheet ∉ plan.website.stylesheets.names →
        after.readText (b.sheetFile markdownStylesheet) = .ok (Minify.style b.markdownCss)) ∧
      report.stylesheets = (b.registeredNames plan).toFinset.card ∧
      ∀ spec template path node source url page w v, spec.markdowns ≠ [] →
        ((b.renderer plan).makePage spec template path node source url).run.run w = (.ok page, v) →
          ∃ html inlineStyle, Page.finish html
              { stylesheets := Renderer.linkedStylesheets spec, inlineStyle } = .ok page ∧
            markdownStylesheet ∈ Renderer.linkedStylesheets spec ∧
            (spec.stylesheets.count markdownStylesheet ≤ 1 →
              (Renderer.linkedStylesheets spec).count markdownStylesheet = 1) := by
  obtain ⟨hcount, hread⟩ := build_publishes hw hplan hnames hsources hout hbuild
  have hordered := isOrdered_stylesheets hplan
  refine ⟨fun name file hm => ?_, fun hused hnone => hread _ _ ?_, ?_, ?_⟩
  · obtain ⟨⟨n, css⟩, hsheet, rfl, hcss⟩ := exists_stylesheet hplan hm
    refine ⟨css, hcss, hread _ _ ?_⟩
    rw [get?_withMarkdown, (hordered.mem_iff _).1 hsheet, Option.some_or]
  · rw [get?_withMarkdown, Fields.get?_eq_none_iff.2 (names_stylesheets hplan ▸ hnone),
      Option.none_or, if_pos ⟨hused, rfl⟩]
  · have hnodup := (isOrdered_withMarkdown hordered b.markdownCss (b.usesMarkdown plan)).nodup
    rw [hcount, toFinset_registeredNames hplan, List.toFinset_card_of_nodup hnodup, Fields.names,
      List.length_map]
  · intro spec template path node source url page w v hm hrun
    obtain ⟨values, m, -, hfill⟩ := Renderer.run_makePage hrun
    obtain ⟨html, inlineStyle, hfinish⟩ := Renderer.finish_of_fillPage hfill
    have hlinked := Renderer.count_linkedStylesheets hm
    refine ⟨html, inlineStyle, hfinish, List.count_pos_iff.1 ?_, fun hc => ?_⟩
    · omega
    · omega

/-- A disk with a site that has a stylesheet of its own, `site`, whose main page alone has a
markdown file, and whose resources bring a file of the stylesheet's name into the directory of
stylesheets. -/
def sheetDisk : Disk :=
  let disk := sampleDisk ""
  { disk with
    entries := disk.entries.dropLast ++
      [(["site", "website.json"],
        .file ("\x7b\"theme\": \"p\", \"mainPage\": \x7b\"markdowns\": " ++
          "\x7b\"body\": \"m.md\"\x7d\x7d, \"404\": \x7b\x7d, \"contents\": \"content\", " ++
          "\"additionalStylesheets\": \x7b\"site\": \"s.css\"\x7d, " ++
          "\"resources\": \x7b\"r\": \"css\"\x7d\x7d").toUTF8 0),
        (["site", "m.md"], .file "m".toUTF8 0),
        (["site", "s.css"], .file "p \x7b margin: 0 \x7d".toUTF8 0),
        (["site", "r"], .directory), (["site", "r", "site.css"], .file "old".toUTF8 0)] }

/-- The sample build with a stylesheet for markdown. -/
def styled : Builder :=
  { sample with markdownCss := "q \x7b margin: 0 \x7d" }

theorem stylesheets_are_published_of_sheetDisk :
    ∃ report after, styled.build sheetDisk = (.ok report, after) ∧
    after.readText ⟨"/out/css/site.css"⟩ = .ok (Minify.style "p \x7b margin: 0 \x7d") ∧
    after.readText ⟨"/out/css/markdown.css"⟩ = .ok (Minify.style "q \x7b margin: 0 \x7d") ∧
    report.stylesheets = 2 := by
  have hfree : sheetDisk.isLinkFree = true ∧ (styled.prepare sheetDisk).isLinkFree = true := by
    decide +kernel
  -- one evaluation, as the build makes the plan as well
  have hruns : (styled.plan sheetDisk).toOption.any (fun plan =>
        decide (plan.website.stylesheets = [("site", "s.css")] ∧ styled.usesMarkdown plan = true ∧
          ∀ r ∈ styled.resources plan, ∀ n ∈ r.2, r.1.join n.1 = ⟨"/site/r"⟩)) = true ∧
      (styled.build sheetDisk).1.toOption.isSome = true := by
    decide +kernel
  obtain ⟨plan, hplan, hfacts⟩ := (Option.any_eq_true _ _).1 hruns.1
  obtain ⟨hsheets, hused, hresources⟩ := of_decide_eq_true hfacts
  have hplan := Except.toOption_eq_some_iff.1 hplan
  obtain ⟨report, hreport⟩ := Option.isSome_iff_exists.1 hruns.2
  have hbuild : styled.build sheetDisk = (.ok report, (styled.build sheetDisk).2) := by
    rw [← Except.toOption_eq_some_iff.1 hreport, Prod.mk.eta]
  have hnames : plan.website.stylesheets.names = ["site"] := by
    rw [hsheets]
    rfl
  have hsources : styled.HasNoLinkedSources plan sheetDisk := by
    intro source resources hm name target hn _
    have hr : sheetDisk.resolve false ⟨"/site/r"⟩ = .ok (.held ["site", "r"] .directory) := rfl
    rw [hresources (source, resources) hm (name, target) hn]
    exact leadsToNoLinks_of_resolve hr fun l _ t => not_link_of_isLinkFree hfree.1 l t
  obtain ⟨hown, hmarkdown, hcount, -⟩ := stylesheets_are_published
    (.of_entries (by decide) (by decide) (by decide)) hplan (hnames ▸ by decide) hsources
    (fun _ _ l _ t => not_link_of_isLinkFree hfree.2 l t) hbuild
  obtain ⟨css, hcss, hsite⟩ := hown "site" "s.css" (hsheets ▸ List.mem_cons_self)
  refine ⟨report, _, hbuild, ?_, hmarkdown hused (hnames ▸ by decide), ?_⟩
  · have hread : sheetDisk.readText (styled.website.join "s.css") =
        .ok "p \x7b margin: 0 \x7d" := by
      decide +kernel
    rw [hread] at hcss
    cases hcss
    exact hsite
  · rw [hcount, registeredNames, hnames, hused]
    decide

end Builder

end StaticSite
