import StaticSite.Proofs.Disk.Zone
import StaticSite.Proofs.Site.Changes

/-!
# The sources of a build

A build is apart from its output if what it reads and copies does not depend on what it writes
(`Builder.IsApart`). Then its parts, as long as the texts that they join to a directory do not climb
above it, write in the zone of that directory only (`allowsMaking`, `allowsWriting`,
`allowsResources`).
-/

namespace StaticSite

open Disk

/-- Contained texts stay below the directory they are joined to. -/
def Stay (texts : List String) : Prop :=
  ∀ t ∈ texts, Url.isContained t = true → Path.stays ⟨t⟩ = true

instance (texts : List String) : Decidable (Stay texts) :=
  inferInstanceAs (Decidable (∀ t ∈ texts, Url.isContained t = true → Path.stays ⟨t⟩ = true))

theorem Stay.of_subset {texts texts' : List String} (h : Stay texts) (hs : texts' ⊆ texts) :
    Stay texts' :=
  fun t ht => h t (hs ht)

/-- The texts that resources join to directories. -/
def Resources.texts (resources : Resources) : List String :=
  resources.flatMap fun (name, target) => name :: target.toList

namespace Builder

/-- The specifications of a build's pages, each with its source directory. -/
def items (b : Builder) (plan : BuildPlan) : List (Path × ItemSpec) :=
  (plan.tree.pages plan.website.contents).map
    (fun page => (b.website.join page.source, page.spec)) ++
    [(b.website.join plan.website.mainPage.basePath, plan.website.mainPage.item),
      (b.website.join plan.website.notFound.basePath, plan.website.notFound.item)]

/-- The resources of a build, each with its source directory. -/
def resources (b : Builder) (plan : BuildPlan) : List (Path × Resources) :=
  (plan.theme.basePath, plan.theme.resources) :: (b.website, plan.website.resources) ::
    (b.items plan).map fun (source, item) => (source, item.resources)

/-- The texts that a build joins to directories of its output. -/
def texts (b : Builder) (plan : BuildPlan) : List String :=
  (b.resources plan).flatMap (·.2.texts) ++ plan.website.aliases.map (Alias.relativePath ·.1) ++
    plan.stylesheets.map (·.1) ++ plan.website.verification.toList.map verificationFile

/-- What a build reads does not depend on what is at and below a location, and the resources that it
copies are no links and hold neither links nor the location. -/
structure IsApart (b : Builder) (plan : BuildPlan) (disk : Disk) (outer : Location) : Prop where
  template {name : String} {path : Path} :
    plan.theme.templatePath? name = some path → IsReadable disk outer path
  markdown {source : Path} {item : ItemSpec} {name file : String} :
    (source, item) ∈ b.items plan → (name, file) ∈ item.markdowns →
      IsReadable disk outer (source.join file)
  style {source : Path} {item : ItemSpec} {file : String} :
    (source, item) ∈ b.items plan → item.inlineStyles = some file →
      IsReadable disk outer (source.join file)
  resource {source : Path} {resources : Resources} {name : String} {target : Option String} :
    (source, resources) ∈ b.resources plan → (name, target) ∈ resources →
      Resources.unusable? name target = none → IsSource disk outer (source.join name)

/-- The templates of a build, as they are on a disk. -/
def templates (plan : BuildPlan) (disk : Disk) : Templates :=
  fun name => (plan.theme.templatePath? name).bind fun path =>
    (disk.readText path).toOption.map pageTemplate

end Builder

/-! ## What a build allows in a zone -/

section Allows

variable {b : Builder} {plan : BuildPlan} {made : Disk} {outer : Location} {claims : Path → Prop}
  {sheets : String → String → Prop} {left right : Session}

theorem allowsMaking {disks : Disk.Simulation} (h : b.IsApart plan made outer)
    (hl : left.Knows (Builder.templates plan made)) (hr : right.Knows (Builder.templates plan made))
    (hf : ∀ p, IsReadable made outer p → disks.files p)
    (hd : ∀ d d' p, disks.rel d d' → IsReadable made outer p → d.readText p = made.readText p)
    (hs : sheets markdownStylesheet b.markdownCss) {source path : Path} {item : ItemSpec}
    {name : String}
    (hi : (source, item) ∈ b.items plan) (hp : plan.theme.templatePath? name = some path) :
    (World.Simulation.ofChanges disks (Builder.templates plan made) claims sheets hl
      hr).scope.AllowsMaking (b.renderer plan) item name path source where
  markdowns name file hm := hf _ (h.markdown hi hm)
  style file hm := hf _ (h.style hi hm)
  template := ⟨hf _ (h.template hp), fun d d' hrel => by
    rw [hd d d' path hrel (h.template hp), Builder.templates, hp]
    rfl⟩
  sheet := hs

theorem isUsable_of_unusable {name : String} {target : Option String}
    (h : Resources.unusable? name target = none) :
    Resources.isUsable name = true ∧ ∀ t ∈ target, Resources.isUsable t = true := by
  have := List.find?_eq_none.1 h
  constructor
  · simpa using this name List.mem_cons_self
  · intro t ht
    simpa using this t (List.mem_cons_of_mem _ (Option.mem_toList.2 ht))

theorem isContained_of_isUsable {name : String} (h : Resources.isUsable name = true) :
    Url.isContained name = true := by
  simp only [Resources.isUsable, Bool.and_eq_true] at h
  exact h.2

theorem isName_directory (category : Category) : Path.IsName category.directory := by
  cases category <;> simp [Path.IsName, Category.directory]

theorem mem_items_of_page {page : ContentPage} (h : page ∈ plan.tree.pages plan.website.contents) :
    (b.website.join page.source, page.spec) ∈ b.items plan :=
  List.mem_append_left _ (List.mem_map.2 ⟨page, h, rfl⟩)

theorem mem_resources_of_mem_items {source : Path} {item : ItemSpec}
    (h : (source, item) ∈ b.items plan) : (source, item.resources) ∈ b.resources plan :=
  List.mem_cons_of_mem _ (List.mem_cons_of_mem _ (List.mem_map.2 ⟨_, h, rfl⟩))

variable (z : Zone)

theorem allowsResources (h : b.IsApart plan z.made z.outer)
    (hl : left.Knows (Builder.templates plan z.made))
    (hr : right.Knows (Builder.templates plan z.made))
    {source output : Path} {resources : Resources} {names : List String}
    (hm : (source, resources) ∈ b.resources plan) (hc : Continues z.root output names)
    (ht : Stay resources.texts) :
    (World.Simulation.ofChanges z.simulation (Builder.templates plan z.made) claims sheets hl
      hr).scope.AllowsResources source output resources := by
  intro name target hres hu
  obtain ⟨hname, htarget⟩ := isUsable_of_unusable hu
  have hstays {t : String} (hmem : t ∈ name :: target.toList) (hu : Resources.isUsable t = true) :
      Path.IsRelative t ∧ Path.stays ⟨t⟩ = true :=
    ⟨Path.isRelative_of_isContained (isContained_of_isUsable hu),
      ht t (List.mem_flatMap.2 ⟨_, hres, hmem⟩) (isContained_of_isUsable hu)⟩
  refine ⟨h.resource hm hres hu, ?_, fun category => ?_⟩
  · have : (target.getD name) ∈ name :: target.toList ∧
        Resources.isUsable (target.getD name) = true := by
      cases target with
      | none => exact ⟨List.mem_cons_self, hname⟩
      | some t => exact ⟨by simp, htarget t rfl⟩
    obtain ⟨hrel, hst⟩ := hstays this.1 this.2
    exact hc.join_of_stays hrel hst
  · obtain ⟨hrel, hst⟩ := hstays List.mem_cons_self hname
    exact (hc.join_name (isName_directory category)).join_of_stays hrel hst

theorem allowsWriting (h : b.IsApart plan z.made z.outer)
    (hl : left.Knows (Builder.templates plan z.made))
    (hr : right.Knows (Builder.templates plan z.made))
    {source output : Path} {item : ItemSpec} {names : List String} (target : PageTarget)
    (hi : (source, item) ∈ b.items plan) (hc : Continues z.root output names)
    (ht : Stay item.resources.texts) (hn : Path.IsName (target.stem ++ ".html"))
    (hcl : claims (output.join (target.stem ++ ".html"))) :
    (World.Simulation.ofChanges z.simulation (Builder.templates plan z.made) claims sheets hl
      hr).scope.AllowsWriting item source output target.stem where
  file := ⟨_, hc.join_name hn⟩
  claim := hcl
  resources := allowsResources z h hl hr (mem_resources_of_mem_items hi) hc ht

end Allows

end StaticSite
