import StaticSite.Proofs.Content.Places
import StaticSite.Proofs.Site.Orders

/-!
# The walk through the content

The pages of a gathered tree are the nodes with a specification, in the order of their places
(`pages_eq`). A render makes a page for each of them and for nothing else, and gives back the
addresses of those whose template the theme has (`walk_of_gather`).
-/

namespace StaticSite

open Disk StaticSite.Path

/-! ## Pages and places -/

theorem Path.join_foldl (base p : Path) {names : List String} (h : ∀ n ∈ names, IsName n) :
    base.join (names.foldl Path.join p).text = names.foldl Path.join (base.join p.text) := by
  induction names generalizing p with
  | nil => rfl
  | cons n rest ih =>
    rw [List.foldl_cons, List.foldl_cons, ih _ fun m hm => h m (List.mem_cons_of_mem n hm),
      join_join base p (h n List.mem_cons_self).isStep.isRelative]

/-- The page of a place, if its node has a specification. -/
def Place.page? (contents : String) (p : Place) : Option ContentPage :=
  p.node.spec.map fun spec => ⟨spec, (p.chain.foldl Path.join ⟨contents⟩).text, chainUrl p.chain⟩

namespace ContentTree

mutual

theorem pagesFrom_eq (contents : String) (index : Nat) (up : Option Nat) {above : List String}
    (ha : ∀ n ∈ above, IsName n) : ∀ t : ContentTree, t.WellNamed →
      t.pagesFrom (above.foldl Path.join ⟨contents⟩) (chainUrl above) =
        (t.placesFrom index up above).filterMap (Place.page? contents)
  | node name source spec children, hw => by
    rw [pagesFrom, placesFrom, pagesBelow_eq contents index (index + 1) ha children hw.2.1 hw.2.2]
    cases spec <;> rfl

theorem pagesBelow_eq (contents : String) (parent start : Nat) {above : List String}
    (ha : ∀ n ∈ above, IsName n) :
    ∀ ts : List ContentTree, (∀ t ∈ ts, IsName t.name) → AllWellNamed ts →
      pagesBelow (above.foldl Path.join ⟨contents⟩) (chainUrl above) ts =
        (placesBelow parent above start ts).filterMap (Place.page? contents)
  | [], _, _ => rfl
  | t :: rest, hi, hw => by
    have hnames := List.forall_mem_append.2
      ⟨ha, List.forall_mem_singleton.2 (hi t List.mem_cons_self)⟩
    have hsource : (above.foldl Path.join ⟨contents⟩).join t.name =
        (above ++ [t.name]).foldl Path.join ⟨contents⟩ := by rw [List.foldl_concat]
    rw [pagesBelow, placesBelow, List.filterMap_append, join_chainUrl hnames, hsource,
      pagesFrom_eq contents start (some parent) hnames t hw.1,
      pagesBelow_eq contents parent (start + t.size) ha rest
        (fun u hu => hi u (List.mem_cons_of_mem t hu)) hw.2]

end

/-- The pages of a tree are those of its places. -/
theorem pages_eq {tree : ContentTree} (hw : tree.WellNamed) (contents : String) :
    tree.pages contents = tree.places.filterMap (Place.page? contents) :=
  have hnone : ∀ n ∈ ([] : List String), IsName n := fun _ hn => by cases hn
  pagesFrom_eq contents 0 none hnone tree hw

end ContentTree

/-- The pages of a website's content: one for each node that has a specification, each in the
directory and with the address of its node, and all in the lexicographic order of the names that
lead to the nodes, which is depth first with siblings in the order of their names. -/
structure ListsNodes (tree : ContentTree) (website : Path) (pages : List ContentPage) : Prop where
  sorted : pages.Pairwise fun p q => p.chain < q.chain
  complete : ∀ chain node, tree.find? chain = some node → node.spec.isSome →
    ∃ page ∈ pages, page.chain = chain
  node : ∀ page ∈ pages, ∃ node, tree.find? page.chain = some node ∧ node.spec = some page.spec ∧
    website.join page.source = node.source
  url : ∀ page ∈ pages, page.url = "/".intercalate page.chain ∧
    Url.breadCrumb page.url = page.chain ∧
    Url.normalize page.url = page.url

theorem Place.exists_of_page? {contents : String} {p : Place} {page : ContentPage}
    (h : p.page? contents = some page) : p.node.spec = some page.spec ∧
      page.source = (p.chain.foldl Path.join ⟨contents⟩).text ∧ page.url = chainUrl p.chain := by
  obtain ⟨spec, hspec, rfl⟩ := Option.map_eq_some_iff.1 h
  exact ⟨hspec, rfl, rfl⟩

theorem listsNodes_of_gather {disk : Disk} (hw : disk.WellFormed) {website : Path}
    {contents : String}
    {tree : ContentTree} (h : ContentTree.gather disk (website.join contents) = .ok tree) :
    ListsNodes tree website (tree.pages contents) := by
  obtain ⟨hnamed, hspec⟩ := ContentTree.gather_wellNamed hw h
  obtain ⟨hsource, -, hlisted⟩ := ContentTree.gather_listed hw h
  have hnames := ContentTree.isName_chain hnamed
  have hchain {p : Place} (hp : p ∈ tree.places) {page : ContentPage}
      (hpage : p.page? contents = some page) : page.chain = p.chain := by
    rw [ContentPage.chain, (Place.exists_of_page? hpage).2.2, breadCrumb_chainUrl (hnames p hp)]
  have hplace {page : ContentPage} (hp : page ∈ tree.pages contents) :
      ∃ p ∈ tree.places, p.page? contents = some page := by
    rw [ContentTree.pages_eq hnamed] at hp
    exact List.mem_filterMap.1 hp
  constructor
  · rw [ContentTree.pages_eq hnamed, List.pairwise_filterMap]
    have hsorted := ContentTree.places_sorted fun p hp => (hlisted p hp).sorted
    refine hsorted.imp_of_mem fun hp hq hlt page hpage other hother => ?_
    rwa [hchain hp hpage, hchain hq hother]
  · intro chain node hfind hsome
    obtain ⟨p, hp, rfl, rfl⟩ := (ContentTree.find?_iff_place hnamed).1 hfind
    obtain ⟨spec, hspec⟩ := Option.isSome_iff_exists.1 hsome
    have hpage : p.page? contents =
        some ⟨spec, (p.chain.foldl Path.join ⟨contents⟩).text, chainUrl p.chain⟩ := by
      rw [Place.page?, hspec]
      rfl
    refine ⟨_, ?_, hchain hp hpage⟩
    rw [ContentTree.pages_eq hnamed]
    exact List.mem_filterMap.2 ⟨p, hp, hpage⟩
  · intro page hp
    obtain ⟨p, hp, hpage⟩ := hplace hp
    obtain ⟨hspec, hs, -⟩ := Place.exists_of_page? hpage
    refine ⟨p.node, ?_, hspec, ?_⟩
    · rw [hchain hp hpage]
      exact (ContentTree.find?_chain hnamed p hp).1
    · rw [hs, Path.join_foldl _ _ (hnames p hp), ContentTree.source_of_place hlisted p hp, hsource]
  · intro page hp
    have hplain := (ContentTree.pages_plain hnamed hspec contents).1 page hp
    refine ⟨hplain.url, rfl, ?_⟩
    rw [hplain.url, normalize_chainUrl hplain.names hplain.ne_nil]

/-! ## What a render makes -/

namespace Renderer

variable {r : Renderer} {output : Path} {pages : List ContentPage} {positions : List Nat}
  {w v : World}

/-- One page is rendered. -/
def Renders (r : Renderer) (output : Path) (page : ContentPage) (w : World)
    (address : Option String) (v : World) : Prop :=
  (r.renderPage output page).run.run w = (.ok address, v)

/-- The address of a page whose template the theme has. -/
def address? (r : Renderer) (page : ContentPage) : Option String :=
  (r.theme.templatePath? (page.spec.template.getD PageTarget.content.fallback)).map
    fun _ => Url.absolute r.baseUrl page.url

theorem Renders.address_eq {page : ContentPage} {address : Option String}
    (h : r.Renders output page w address v) : address = r.address? page := by
  unfold Renders at h
  unfold address?
  cases hpath : r.theme.templatePath? (page.spec.template.getD PageTarget.content.fallback) with
  | none =>
    rw [renderPage_of_none hpath] at h
    cases h
    rfl
  | some path =>
    obtain ⟨_, _, _, -, -, -, rfl⟩ := (run_renderPage_of_some hpath).1 h
    rfl

/-- The pages at the positions of a run, rendered one after the other. -/
theorem renders_of_runs {parts : List (List (Nat × String))}
    (h : Runs (r.RendersAt output pages) w positions parts v) :
    ∃ addresses, Runs (r.Renders output) w (positions.filterMap (pages[·]?)) addresses v ∧
      parts.flatten = positions.filterMap fun i => ((pages[i]?).bind r.address?).map (i, ·) := by
  induction h with
  | nil s => exact ⟨[], .nil s, rfl⟩
  | cons first tail ih =>
    obtain ⟨page, address, hp, hrun, rfl⟩ := first
    obtain ⟨addresses, hruns, hparts⟩ := ih
    have hrun : r.Renders output page _ address _ := hrun
    refine ⟨address :: addresses, ?_, ?_⟩
    · rw [List.filterMap_cons, hp]
      exact .cons hrun hruns
    · rw [List.flatten_cons, hparts, List.filterMap_cons, hp, Option.bind_some, ← hrun.address_eq]
      cases address <;> rfl

theorem filterMap_range {α β : Type} (items : List α) (f : α → Option β) :
    (List.range items.length).filterMap (fun i => (items[i]?).bind f) = items.filterMap f := by
  induction items with
  | nil => rfl
  | cons a rest ih =>
    rw [List.length_cons, List.range_succ_eq_map, List.filterMap_cons, List.filterMap_map,
      List.filterMap_cons, ← ih]
    rfl

theorem lookup_filterMap {α : Type} (positions : List Nat) (f : Nat → Option α) (i : Nat) :
    (positions.filterMap fun i => (f i).map (i, ·)).lookup i =
      if i ∈ positions then f i else none := by
  induction positions with
  | nil => rfl
  | cons j rest ih =>
    rw [List.filterMap_cons]
    by_cases he : i = j
    · subst he
      cases hf : f i with
      | none => simp [ih, hf]
      | some a => simp
    · cases hf : f j with
      | none => simp [ih, he]
      | some a => simp [List.lookup_cons, beq_eq_false_iff_ne.2 he, ih, he]

/-- The addresses of a render are those of the pages whose template the theme has. -/
theorem urls_of_renderPages {order : RenderOrder} {urls : List String}
    (ho : (order pages).Perm (List.range pages.length))
    (h : (r.renderPages output order pages).run.run w = (.ok urls, v)) :
    (∃ addresses, Runs (r.Renders output) w ((order pages).filterMap (pages[·]?)) addresses v) ∧
      urls = pages.filterMap r.address? := by
  obtain ⟨parts, hruns, rfl⟩ := (run_renderPages fun i hi => List.mem_range.1 (ho.subset hi)).1 h
  obtain ⟨addresses, hcalls, hparts⟩ := renders_of_runs hruns
  refine ⟨⟨addresses, hcalls⟩, ?_⟩
  rw [hparts, ← filterMap_range pages r.address?]
  refine List.filterMap_congr fun i hi => ?_
  rw [lookup_filterMap, if_pos (ho.symm.subset hi)]

end Renderer

theorem Url.absolute_inj {base url other : String} (h : absolute base url = absolute base other) :
    url = other := by
  have hlist := congrArg String.toList h
  simp only [absolute, String.toList_append] at hlist
  exact String.toList_inj.1 (List.append_cancel_left hlist)

/-! ## The files of pages and the sitemap -/

/-- The file of a page below an output directory. -/
def ContentPage.file (page : ContentPage) (output : Path) : Path :=
  (output.join page.url).join "index.html"

/-- Where the file of a page is, if all names on the way are directories. -/
theorem ContentPage.landsAt_file {page : ContentPage} (h : page.IsPlain) (output : Path)
    (cwd : Location) : (page.file output).landsAt cwd = output.landsAt cwd ++ page.chain ++
      ["index.html"] := by
  have hindex : IsName "index.html" := by decide
  have hext : Extends output (output.join page.url) page.chain := by
    have := extends_join output h.names h.ne_nil
    rwa [← chainUrl, ← h.url] at this
  have hnames := List.forall_mem_append.2 ⟨h.names, List.forall_mem_singleton.2 hindex⟩
  have hstart : startOf cwd (page.file output) = startOf cwd output := by
    unfold startOf file
    rw [isAbsolute_join _ hindex.isStep.isRelative, hext.isAbsolute]
  have hsteps : (page.file output).steps = output.steps ++ (page.chain ++ ["index.html"]) := by
    rw [file, steps_join _ hindex.isStep.isRelative, hext.steps, hindex.isStep.steps,
      List.append_assoc]
  rw [landsAt, landsAt, hstart, ← landing_filter, ← landing_filter _ output.segments]
  show landing _ (page.file output).steps = landing _ output.steps ++ _ ++ _
  rw [hsteps, landing_append, landing_of_noClimb _ (fun n hn => (hnames n hn).isStep)
    fun hup => (hnames ".." hup).2.2.1 rfl, List.append_assoc]

theorem Sitemap.distinct_of_nodup {urls seen : List String} (h : urls.Nodup)
    (hs : ∀ url ∈ urls, url ∉ seen) : distinct seen urls = urls := by
  induction urls generalizing seen with
  | nil => rfl
  | cons url rest ih =>
    obtain ⟨hurl, hrest⟩ := List.nodup_cons.1 h
    have hnew : seen.contains url = false := by simpa using hs url List.mem_cons_self
    rw [distinct, hnew, if_neg Bool.false_ne_true, ih hrest fun u hu hm => ?_]
    rcases List.mem_cons.1 hm with rfl | hm
    · exact hurl hu
    · exact hs u (List.mem_cons_of_mem url hu) hm

/-! ## The walk -/

/-- A successful render of the content that was gathered from a website makes one page for each node
with a specification and for nothing else (`ListsNodes`), one after the other in the order of the
content if this is the chosen one. No two pages have one address or one file. It gives back the
addresses of the pages whose template the theme has, in the order of the content and each once, and
this is what the sitemap lists. -/
theorem walk_of_gather {disk : Disk} (hw : disk.WellFormed) {r : Renderer} {contents : String}
    {tree : ContentTree} (h : ContentTree.gather disk (r.websiteDirectory.join contents) = .ok tree)
    {output : Path} {order : RenderOrder}
    (ho : (order (tree.pages contents)).Perm (List.range (tree.pages contents).length))
    {w v : World} {urls : List String}
    (hrun : (r.renderPages output order (tree.pages contents)).run.run w = (.ok urls, v)) :
    ListsNodes tree r.websiteDirectory (tree.pages contents) ∧
      (∃ calls addresses, Runs (r.Renders output) w calls addresses v ∧
        calls.Perm (tree.pages contents) ∧ (order = .depthFirst → calls = tree.pages contents)) ∧
      ((tree.pages contents).Pairwise fun p q => p.url ≠ q.url ∧
        ∀ cwd, (p.file output).landsAt cwd ≠ (q.file output).landsAt cwd) ∧
      urls = (tree.pages contents).filterMap r.address? ∧ urls.Nodup ∧
      Sitemap.text urls = String.join (urls.map (· ++ "\n")) := by
  have hlists := listsNodes_of_gather hw h
  obtain ⟨hnamed, hspec⟩ := ContentTree.gather_wellNamed hw h
  have hplain := (ContentTree.pages_plain hnamed hspec contents).1
  generalize tree.pages contents = pages at hlists hplain ho hrun ⊢
  have hall : (List.range pages.length).filterMap (pages[·]?) = pages := by
    simpa using Renderer.filterMap_range pages some
  obtain ⟨⟨addresses, hcalls⟩, rfl⟩ := Renderer.urls_of_renderPages ho hrun
  have hdiffer : pages.Pairwise fun p q => p.chain ≠ q.chain :=
    hlists.sorted.imp fun {p q} hlt (he : p.chain = q.chain) => List.lt_irrefl _ (he ▸ hlt)
  have hurls : pages.Pairwise fun p q => p.url ≠ q.url :=
    hdiffer.imp fun hne he => hne (congrArg Url.breadCrumb he)
  have hnodup : (pages.filterMap r.address?).Nodup := by
    refine List.pairwise_filterMap.2 (hurls.imp fun hne a ha b hb he => hne ?_)
    obtain ⟨_, -, rfl⟩ := Option.map_eq_some_iff.1 ha
    obtain ⟨_, -, rfl⟩ := Option.map_eq_some_iff.1 hb
    exact Url.absolute_inj he
  refine ⟨hlists, ⟨_, addresses, hcalls, ?_, fun hd => ?_⟩, ?_, rfl, hnodup, ?_⟩
  · have := ho.filterMap (pages[·]?)
    rwa [hall] at this
  · rw [hd]
    exact hall
  · refine (hdiffer.and hurls).imp_of_mem fun hp hq ⟨hne, hurl⟩ => ⟨hurl, fun cwd he => hne ?_⟩
    rw [ContentPage.landsAt_file (hplain _ hp), ContentPage.landsAt_file (hplain _ hq)] at he
    exact List.append_cancel_left (List.append_cancel_right he)
  · rw [Sitemap.text, Sitemap.distinct_of_nodup hnodup fun _ _ hm => by cases hm]

/-- The pages `a` and `b` of a site, made in the order of the content. -/
theorem walk_of_siblings : ∃ plan urls v, Builder.sample.plan Builder.siblingDisk = .ok plan ∧
    ((Builder.sample.renderer plan).renderPages ⟨"/out"⟩ .depthFirst
      (plan.tree.pages plan.website.contents)).run.run
        ⟨Builder.siblingDisk, Builder.openSession plan⟩ = (.ok urls, v) ∧
    urls = ["u/a", "u/b"] ∧ Sitemap.text urls = "u/a\nu/b\n" := by
  have hrun : ((Builder.sample.plan Builder.siblingDisk).toOption.bind fun plan =>
      ((Builder.sample.renderer plan).renderPages ⟨"/out"⟩ .depthFirst
        (plan.tree.pages plan.website.contents)).run.run
          ⟨Builder.siblingDisk, Builder.openSession plan⟩ |>.1.toOption) = some ["u/a", "u/b"] := by
    decide +kernel
  obtain ⟨plan, hplan, hrun⟩ := Option.bind_eq_some_iff.1 hrun
  have hplan := Except.toOption_eq_some_iff.1 hplan
  have hrun := Except.toOption_eq_some_iff.1 hrun
  obtain ⟨-, -, -, -, -, htext⟩ := walk_of_gather Builder.siblingDisk_wellFormed
    (r := Builder.sample.renderer plan) (Builder.plan_eq_ok_iff.1 hplan).2.2.2 (.refl _)
    (Prod.ext hrun rfl)
  exact ⟨plan, _, _, hplan, Prod.ext hrun rfl, rfl, htext⟩

end StaticSite
