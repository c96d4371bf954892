import StaticSite.Proofs.Sorting
import StaticSite.Proofs.Site.Containment
import StaticSite.Proofs.Site.Writing

/-!
# Builds in another order

Pages of which none is above the other one can be made in both orders (`renderPage_swap`). So a
build whose pages are made in the order of the content can make them in every order in which each
page stands behind those above it, with the same outcome (`build_reorder`).
-/

namespace StaticSite

open Disk

/-! ## Orders -/

/-- A page stands above another one in the content. -/
def ContentPage.IsAbove (p q : ContentPage) : Prop :=
  p.chain <+: q.chain ∧ p.chain ≠ q.chain

instance (p q : ContentPage) : Decidable (p.IsAbove q) :=
  inferInstanceAs (Decidable (_ ∧ _))

/-- The positions of all pages, each behind those of the pages above it. -/
structure RenderOrder.IsParentsFirst (pages : List ContentPage) (positions : List Nat) : Prop where
  all : positions.Perm (List.range pages.length)
  parents : (positions.filterMap (pages[·]?)).Pairwise fun p q => ¬ q.IsAbove p

instance (pages : List ContentPage) (positions : List Nat) :
    Decidable (RenderOrder.IsParentsFirst pages positions) :=
  decidable_of_iff (positions.Perm (List.range pages.length) ∧
    (positions.filterMap (pages[·]?)).Pairwise fun p q => ¬ q.IsAbove p)
    ⟨fun h => ⟨h.1, h.2⟩, fun h => ⟨h.1, h.2⟩⟩

/-- Pages in the order of their depth stand behind those above them. -/
theorem RenderOrder.byDepth_isParentsFirst (pages : List ContentPage) :
    IsParentsFirst pages (byDepth pages) where
  all := perm_sortBy _ _
  parents := by
    have sorted : (byDepth pages).Pairwise fun i j =>
        decide (depthOf pages i ≤ depthOf pages j) = true := by
      refine pairwise_sortBy (fun hij hjk => ?_) (fun i j => ?_) _
      · exact decide_eq_true (Nat.le_trans (of_decide_eq_true hij) (of_decide_eq_true hjk))
      · simpa using Nat.le_total _ _
    refine List.pairwise_filterMap.2 (sorted.imp fun {i j} hij p hp q hq ⟨habove, hne⟩ => ?_)
    have hle : p.chain.length ≤ q.chain.length := by
      simpa [depthOf, hp, hq, ContentPage.chain] using hij
    exact hne (habove.eq_of_length_le hle)

/-- The page at a position may be made before the one at another position. -/
def MayPrecede (pages : List ContentPage) (i j : Nat) : Prop :=
  ∀ p q, pages[i]? = some p → pages[j]? = some q → ¬ q.chain <+: p.chain

variable {pages : List ContentPage} {positions : List Nat} {i j : Nat} {page other : ContentPage}

theorem not_prefix_of_lt (h : InDepthOrder pages) (hp : pages[i]? = some page)
    (hq : pages[j]? = some other) (hij : i < j) : ¬ other.chain <+: page.chain := by
  obtain ⟨hi, rfl⟩ := List.getElem?_eq_some_iff.1 hp
  obtain ⟨hj, rfl⟩ := List.getElem?_eq_some_iff.1 hq
  exact List.pairwise_iff_getElem.1 h i j hi hj hij

theorem eq_of_chain_eq (h : InDepthOrder pages) (hp : pages[i]? = some page)
    (hq : pages[j]? = some other) (he : page.chain = other.chain) : i = j := by
  rcases Nat.lt_trichotomy i j with hij | hij | hij
  · exact absurd (he ▸ List.prefix_rfl) (not_prefix_of_lt h hp hq hij)
  · exact hij
  · exact absurd (he ▸ List.prefix_rfl) (not_prefix_of_lt h hq hp hij)

theorem mayPrecede_range (h : InDepthOrder pages) :
    (List.range pages.length).Pairwise (MayPrecede pages) :=
  List.pairwise_lt_range.imp fun hij _ _ hp hq => not_prefix_of_lt h hp hq hij

theorem RenderOrder.IsParentsFirst.mayPrecede (h : IsParentsFirst pages positions)
    (hd : InDepthOrder pages) : positions.Pairwise (MayPrecede pages) := by
  have hne : positions.Nodup := h.all.nodup_iff.2 List.nodup_range
  refine ((List.pairwise_filterMap.1 h.parents).and hne).imp fun ⟨hij, hne⟩ p q hp hq hc => ?_
  exact hij p hp q hq ⟨hc, fun he => hne (eq_of_chain_eq hd hp hq he.symm)⟩

/-! ## Steps of a render -/

namespace Renderer

variable {r : Renderer} {output : Path} {w v : World} {addresses : List (Nat × String)}

/-- The page at a position is rendered, with its address beside the position. -/
def RendersAt (r : Renderer) (output : Path) (pages : List ContentPage) (position : Nat) (w : World)
    (addresses : List (Nat × String)) (v : World) : Prop :=
  ∃ page address, pages[position]? = some page ∧
    (r.renderPage output page).run.run w = (.ok address, v) ∧
    addresses = (address.map fun a => (position, a)).toList

theorem run_renderAt (h : ∀ i ∈ positions, i < pages.length) :
    (r.renderAt output pages positions).run.run w = (.ok addresses, v) ↔
      ∃ parts, Runs (r.RendersAt output pages) w positions parts v ∧ addresses = parts.flatten := by
  induction positions generalizing w addresses with
  | nil =>
    constructor
    · intro hrun
      cases hrun
      exact ⟨[], .nil _, rfl⟩
    · rintro ⟨parts, hruns, rfl⟩
      cases hruns
      rfl
  | cons i rest ih =>
    have hrest (w : World) (addresses : List (Nat × String)) :=
      @ih w addresses fun j hj => h j (List.mem_cons_of_mem i hj)
    have hi := List.getElem?_eq_getElem (h i List.mem_cons_self)
    unfold renderAt
    rw [hi]
    constructor
    · intro hrun
      obtain ⟨address, m, hpage, hrun⟩ := Task.run_bind_eq_ok.1 hrun
      obtain ⟨more, _, hmore, hreturn⟩ := Task.run_bind_eq_ok.1 hrun
      cases hreturn
      obtain ⟨parts, hparts, rfl⟩ := (hrest _ _).1 hmore
      exact ⟨_ :: parts, .cons ⟨_, address, hi, hpage, rfl⟩ hparts, rfl⟩
    · rintro ⟨_, hruns, rfl⟩
      cases hruns with
      | cons first tail =>
        obtain ⟨page, address, hp, hpage, rfl⟩ := first
        cases hi.symm.trans hp
        exact Task.run_bind_eq_ok.2 ⟨address, _, hpage,
          Task.run_bind_eq_ok.2 ⟨_, v, (hrest _ _).2 ⟨_, tail, rfl⟩, rfl⟩⟩

theorem run_renderPages {order : RenderOrder} {urls : List String}
    (h : ∀ i ∈ order pages, i < pages.length) :
    (r.renderPages output order pages).run.run w = (.ok urls, v) ↔
      ∃ parts, Runs (r.RendersAt output pages) w (order pages) parts v ∧
        urls = (List.range pages.length).filterMap (List.lookup · parts.flatten) := by
  constructor
  · intro hrun
    obtain ⟨addresses, _, hat, hreturn⟩ := Task.run_bind_eq_ok.1 hrun
    cases hreturn
    obtain ⟨parts, hruns, rfl⟩ := (run_renderAt h).1 hat
    exact ⟨parts, hruns, rfl⟩
  · rintro ⟨parts, hruns, rfl⟩
    exact Task.run_bind_eq_ok.2 ⟨_, v, (run_renderAt h).2 ⟨parts, hruns, rfl⟩, rfl⟩

/-- The addresses that are found do not depend on the order of the parts. -/
theorem lookup_eq_of_perm {α β : Type} [BEq α] [LawfulBEq α] {xs ys : List (α × β)} (h : xs.Perm ys)
    (hn : (xs.map Prod.fst).Nodup) (key : α) : xs.lookup key = ys.lookup key := by
  have hn' : (ys.map Prod.fst).Nodup := (h.map Prod.fst).nodup_iff.1 hn
  cases hx : xs.lookup key with
  | some value =>
    obtain ⟨first, last, hs, -⟩ := List.lookup_eq_some_iff.1 hx
    have hmem : (key, value) ∈ xs := hs ▸ by simp
    exact (lookup_of_nodup hn' (h.subset hmem)).symm
  | none =>
    have hnone := List.lookup_eq_none_iff.1 hx
    exact (List.lookup_eq_none_iff.2 fun e he => hnone e (h.symm.subset he)).symm

theorem keys_of_runs {parts : List (List (Nat × String))}
    (h : Runs (r.RendersAt output pages) w positions parts v) :
    (parts.flatten.map Prod.fst).Sublist positions := by
  induction h with
  | nil => exact .slnil
  | cons first tail ih =>
    obtain ⟨page, address, -, -, rfl⟩ := first
    cases address with
    | none => exact ih.cons _
    | some a => exact ih.cons_cons _

end Renderer

namespace Builder

variable {b : Builder} {plan : BuildPlan} {made : Disk} {base : Location} {w m m' v v' : World}

/-! ## Pages in another order -/

/-- The disks behind two pages that were made in both orders. -/
theorem PageRuns.at?_eq (hpage : b.PageRuns plan made base page m w v m')
    (hother : b.PageRuns plan made base other w m' m v') (hb : ¬ page.chain <+: other.chain)
    (hb' : ¬ other.chain <+: page.chain) (place : Location) :
    v.disk.at? place = v'.disk.at? place := by
  by_cases hin : base ++ page.chain <+: place
  · exact (hpage.agree place hin).trans (hother.symm.apart hb' hb place hin).symm
  · by_cases hin' : base ++ other.chain <+: place
    · exact (hpage.apart hb hb' place hin').trans (hother.agree place hin')
    · -- in either order both ways are made
      rw [hpage.beyond hin, hother.beyond hin', hother.symm.beyond hin', hpage.symm.beyond hin]
      split
      · split
        · rfl
        · rfl
      · rfl

/-- The sessions behind two pages that were made in both orders. -/
theorem PageRuns.alike (hpage : b.PageRuns plan made base page m w v m')
    (hother : b.PageRuns plan made base other w m' m v')
    (hne : (b.pageFile other).components ≠ (b.pageFile page).components) :
    Session.Alike v.session v'.session := by
  obtain ⟨changes, hall, hv, hm'⟩ := hpage.changes
  obtain ⟨changes', hall', hm, hv'⟩ := hother.changes
  have hfiles (f f' : Path) (hf : f = b.pageFile other) (hf' : f' = b.pageFile page) :
      f.components ≠ f'.components := by
    rw [hf, hf']
    exact hne
  rw [hv, hm, hv', hm']
  exact Session.applyAll_comm hall' hall hfiles w.session

/-- Pages of which none is above the other one can be made in both orders. -/
theorem renderPage_swap (h : b.IsReady plan made base)
    (hp : page ∈ plan.tree.pages plan.website.contents)
    (ho : other ∈ plan.tree.pages plan.website.contents) (hb : ¬ page.chain <+: other.chain)
    (hb' : ¬ other.chain <+: page.chain) (hw : Underway plan made base w)
    {address address' : Option String}
    (hfirst : ((b.renderer plan).renderPage b.output other).run.run w = (.ok address', m))
    (hsecond : ((b.renderer plan).renderPage b.output page).run.run m = (.ok address, v)) :
    ∃ m' v', ((b.renderer plan).renderPage b.output page).run.run w = (.ok address, m') ∧
      ((b.renderer plan).renderPage b.output other).run.run m' = (.ok address', v') ∧
      alikeWorlds.rel v v' := by
  have hm := renderPage_underway h ho hw hfirst
  obtain ⟨_, -, hself⟩ := renderPage_transfer h ho hw hw hfirst id fun _ _ => rfl
  -- the page in the world without the other one
  obtain ⟨m', hrun, hpage⟩ := renderPage_transfer h hp hm hw hsecond
    (hself.isClear_iff fun hc => hb' (hc.trans (page.isPrefix_way _))).1 (hself.apart hb' hb)
  have hm' := renderPage_underway h hp hw hrun
  -- the other one behind the page
  obtain ⟨v', hrun', hother⟩ := renderPage_transfer h ho hw hm' hfirst
    (hpage.symm.isClear_iff fun hc => hb (hc.trans (other.isPrefix_way _))).2
    fun place hl => (hpage.symm.apart hb hb' place hl).symm
  have hv := renderPage_underway h hp hm hsecond
  have hv' := renderPage_underway h ho hm' hrun'
  have hne : other.chain ≠ page.chain := fun he => hb (he ▸ List.prefix_rfl)
  exact ⟨m', v', hrun, hrun', hv.sameContent hv' (hpage.at?_eq hother hb hb'),
    hpage.alike hother (pageFile_components_ne h ho hp hne)⟩

theorem reorderable (h : b.IsReady plan made base) :
    Reorderable ((b.renderer plan).RendersAt b.output (plan.tree.pages plan.website.contents))
      (Underway plan made base) alikeWorlds.rel
      (MayPrecede (plan.tree.pages plan.website.contents)) where
  refl := Underway.alike
  trans h h' := ⟨h.1.trans h'.1, h.2.trans h'.2⟩
  keeps := by
    rintro w v i _ hw ⟨page, address, hp, hrun, -⟩
    exact renderPage_underway h (List.mem_of_getElem? hp) hw hrun
  respects := by
    rintro w w' v i _ hs ⟨page, address, hp, hrun, rfl⟩
    obtain ⟨v', hrun', hv⟩ := (renderPage_alike b plan page).run_eq_ok hrun w' hs
    exact ⟨v', ⟨page, address, hp, hrun', rfl⟩, hv⟩
  swap := by
    rintro w m v i j _ _ hw hij hji ⟨other, address', ho, hfirst, rfl⟩
      ⟨page, address, hp, hsecond, rfl⟩
    obtain ⟨m', v', hrun, hrun', hv⟩ := renderPage_swap h (List.mem_of_getElem? hp)
      (List.mem_of_getElem? ho) (hij other page ho hp) (hji page other hp ho) hw hfirst hsecond
    exact ⟨m', v', ⟨page, address, hp, hrun, rfl⟩, ⟨other, address', ho, hrun', rfl⟩, hv⟩

/-- The pages of a build can be made in every order in which each stands behind those above it. -/
theorem renderPages_reorder (h : b.IsReady plan made base)
    (hd : InDepthOrder (plan.tree.pages plan.website.contents)) (hw : Underway plan made base w)
    {order : RenderOrder} (ho : RenderOrder.IsParentsFirst (plan.tree.pages plan.website.contents)
      (order (plan.tree.pages plan.website.contents))) {urls : List String}
    (hrun : ((b.renderer plan).renderPages b.output .depthFirst
      (plan.tree.pages plan.website.contents)).run.run w = (.ok urls, v)) :
    ∃ v', ((b.renderer plan).renderPages b.output order
      (plan.tree.pages plan.website.contents)).run.run w = (.ok urls, v') ∧
      alikeWorlds.rel v v' := by
  have hreorder := reorderable h
  revert hreorder hrun ho hd
  generalize plan.tree.pages plan.website.contents = pages
  intro hd ho hrun hreorder
  have hrange : ∀ i ∈ List.range pages.length, i < pages.length := fun i hi => List.mem_range.1 hi
  have horder : ∀ i ∈ order pages, i < pages.length := fun i hi =>
    List.mem_range.1 (ho.all.subset hi)
  obtain ⟨parts, hruns, rfl⟩ := (Renderer.run_renderPages hrange).1 hrun
  obtain ⟨parts', v', hruns', hperm, hv⟩ :=
    hreorder.reorder hw hruns (mayPrecede_range hd) (ho.mayPrecede hd) ho.all
  have hnodup : (parts.flatten.map Prod.fst).Nodup :=
    List.nodup_range.sublist (Renderer.keys_of_runs hruns)
  have hlookup (i : Nat) : parts.flatten.lookup i = parts'.flatten.lookup i :=
    Renderer.lookup_eq_of_perm hperm.symm.flatten hnodup i
  refine ⟨v', (Renderer.run_renderPages horder).2 ⟨parts', hruns', ?_⟩, hv⟩
  simp only [hlookup]

/-! ## Builds in another order -/

theorem stay_of_noBackslash {texts : List String} (h : ∀ t ∈ texts, '\\' ∉ t.toList) : Stay texts :=
  fun t ht hc => Path.stays_of_isContained hc (h t ht)

theorem publishStylesheets_order (b : Builder) (order : RenderOrder) :
    publishStylesheets { b with order } = b.publishStylesheets := by
  have sheets (sheets : Fields String) :
      writeStylesheets { b with order } sheets = b.writeStylesheets sheets := by
    induction sheets with
    | nil => rfl
    | cons sheet rest ih =>
      unfold writeStylesheets
      rw [ih]
      rfl
  unfold publishStylesheets
  simp only [sheets]
  rfl

theorem publishRest_order (b : Builder) (order : RenderOrder) (plan : BuildPlan)
    (urls : List String) :
    publishRest { b with order } plan urls = b.publishRest plan urls := by
  unfold publishRest
  rw [publishStylesheets_order]
  rfl

theorem run_publishPages {order : RenderOrder} {report : BuildReport} :
    (publishPages { b with order } plan).run.run w = (.ok report, v) ↔ ∃ urls m,
      ((b.renderer plan).renderPages b.output order
        (plan.tree.pages plan.website.contents)).run.run w = (.ok urls, m) ∧
      (b.publishRest plan urls).run.run m = (.ok report, v) := by
  unfold publishPages
  rw [Task.run_bind_eq_ok]
  simp only [Task.run_adapt_eq_ok, publishRest_order]
  exact Iff.rfl

theorem publishPages_reorder (h : b.IsReady plan made base)
    (hd : InDepthOrder (plan.tree.pages plan.website.contents)) (hw : Underway plan made base w)
    {order : RenderOrder} (ho : RenderOrder.IsParentsFirst (plan.tree.pages plan.website.contents)
      (order (plan.tree.pages plan.website.contents))) {report : BuildReport}
    (hrun : (publishPages { b with order := .depthFirst } plan).run.run w = (.ok report, v)) :
    ∃ v', (publishPages { b with order } plan).run.run w = (.ok report, v') ∧
      alikeWorlds.rel v v' := by
  obtain ⟨urls, m, hpages, hrest⟩ := run_publishPages.1 hrun
  obtain ⟨m', hpages', hm⟩ := renderPages_reorder h hd hw ho hpages
  obtain ⟨v', hrest', hv⟩ := Task.Respects.run_eq_ok (alikeWorlds.logic.publishRest
    (alikeWorlds_allowsRest b plan) (alikeWorlds_allowsSheets b) urls) hrest m' hm
  exact ⟨v', run_publishPages.2 ⟨urls, m', hpages', hrest'⟩, hv⟩

/-- A successful build: the output directory, and what is made in it. -/
theorem build_eq_ok_iff {disk after : Disk} {report : BuildReport}
    (hplan : b.plan disk = .ok plan) :
    b.build disk = (.ok report, after) ↔
      ∃ rest v, (Disk.ensureDirectory b.output).run.run disk = (.ok (), b.prepare disk) ∧
        (b.publishPages plan).run.run ⟨b.prepare disk, openSession plan⟩ = (.ok rest, v) ∧
        report = { rest with inconsistencies := v.session.reports } ∧ after = v.disk := by
  rw [build_eq_of_plan hplan, run_publish, prepare]
  rcases (Disk.ensureDirectory b.output).run.run disk with ⟨cause | ⟨⟩, made⟩
  · constructor
    · intro h
      cases h
    · rintro ⟨_, _, h, -⟩
      cases h
  · dsimp only
    rcases (b.publishPages plan).run.run ⟨made, openSession plan⟩ with ⟨cause | rest, v⟩
    · constructor
      · intro h
        cases h
      · rintro ⟨_, _, -, h, -⟩
        cases h
    · constructor
      · intro h
        cases h
        exact ⟨rest, v, rfl, rfl, rfl, rfl⟩
      · rintro ⟨_, _, -, h, rfl, rfl⟩
        cases h
        rfl

/-- A build that succeeds with the pages in the order of the content succeeds with the pages in
every order in which each stands behind those above it. It gives the same addresses in the same
order, the same counts and the same inconsistencies in some order, and leaves the same at every
location. In each of these orders a page is made as a whole; runs in which siblings take turns
between their calls on the session are not among them. -/
theorem build_same_in_every_order {disk : Disk} (hw : disk.WellFormed)
    (hplan : b.plan disk = .ok plan)
    (hslash : ∀ r ∈ b.resources plan, ∀ t ∈ r.2.texts, '\\' ∉ t.toList)
    (hapart : ∀ base, Reaches (b.prepare disk) b.output base →
      (b.prepare disk).HasNoLinks base ∧ b.IsApart plan (b.prepare disk) base)
    {order : RenderOrder} (ho : RenderOrder.IsParentsFirst (plan.tree.pages plan.website.contents)
      (order (plan.tree.pages plan.website.contents))) {report : BuildReport}
    (hseq : (build { b with order := .depthFirst } disk).1 = .ok report) :
    ∃ report', (build { b with order } disk).1 = .ok report' ∧ report'.urls = report.urls ∧
      report'.pages = report.pages ∧ report'.aliases = report.aliases ∧
      report'.resources = report.resources ∧ report'.stylesheets = report.stylesheets ∧
      report'.inconsistencies.Perm report.inconsistencies ∧
      ∀ place, (build { b with order } disk).2.at? place =
        (build { b with order := .depthFirst } disk).2.at? place := by
  have hplan' (order : RenderOrder) : Builder.plan { b with order } disk = .ok plan := hplan
  obtain ⟨after, hfirst⟩ : ∃ after,
    build { b with order := .depthFirst } disk = (.ok report, after) :=
    ⟨_, Prod.ext hseq rfl⟩
  obtain ⟨rest, v, hmade, hrun, rfl, rfl⟩ := (build_eq_ok_iff (hplan' .depthFirst)).1 hfirst
  obtain ⟨base, hreaches⟩ := reaches_of_ensureDirectory hmade
  obtain ⟨hlinks, happ⟩ := hapart base hreaches
  obtain ⟨hplain, hdepth⟩ := pages_of_plan hw hplan
  have hmadeWell : (b.prepare disk).WellFormed := (ensureDirectory_grows hw b.output).wellFormed
  have hready : b.IsReady plan (b.prepare disk) base :=
    { wellFormed := hmadeWell
      reaches := hreaches
      noLinks := hlinks
      apart := happ
      stay := fun page hp => stay_of_noBackslash
        (hslash _ (mem_resources_of_mem_items (mem_items_of_page hp)))
      plain := hplain }
  have hopen : Underway plan (b.prepare disk) base ⟨b.prepare disk, openSession plan⟩ :=
    ⟨.refl hlinks, knows_openSession _ plan, hmadeWell.keyed⟩
  obtain ⟨v', hrun', hdisks, hsessions⟩ := publishPages_reorder hready hdepth hopen ho hrun
  have hother := (build_eq_ok_iff (hplan' order)).2 ⟨rest, v', hmade, hrun', rfl, rfl⟩
  rw [hfirst, hother]
  exact ⟨_, rfl, rfl, rfl, rfl, rfl, rfl, hsessions.reports.symm,
    fun place => (hdisks.at?_eq place).symm⟩

/-- A disk with a site whose pages are `a` and `b`. -/
def siblingDisk : Disk :=
  let disk := sampleDisk ""
  { disk with
    entries := disk.entries ++ [(["site", "content", "b"], .directory),
      (["site", "content", "b", "item.json"], .file "\x7b\x7d".toUTF8 0)] }

theorem siblingDisk_wellFormed : siblingDisk.WellFormed :=
  .of_entries (by decide) (by decide) (by decide)

theorem siblingDisk_linkFree : (sample.prepare siblingDisk).isLinkFree = true := by
  decide +kernel

/-- The last page first. -/
def lastFirst : RenderOrder :=
  fun pages => (List.range pages.length).reverse

theorem build_same_lastFirst : ∃ plan report report', sample.plan siblingDisk = .ok plan ∧
    lastFirst (plan.tree.pages plan.website.contents) = [1, 0] ∧
    (build { sample with order := .depthFirst } siblingDisk).1 = .ok report ∧
    (build { sample with order := lastFirst } siblingDisk).1 = .ok report' ∧
    report'.urls = ["u/a", "u/b"] := by
  have hfacts : (sample.plan siblingDisk).toOption.any (fun plan =>
      decide (ReadsOneTemplate plan ∧ lastFirst (plan.tree.pages plan.website.contents) = [1, 0] ∧
        RenderOrder.IsParentsFirst (plan.tree.pages plan.website.contents) [1, 0])) = true := by
    decide +kernel
  have hbuilt : (build { sample with order := .depthFirst } siblingDisk).1.toOption.map
      BuildReport.urls = some ["u/a", "u/b"] := by
    decide +kernel
  obtain ⟨plan, hplan, hfacts⟩ := (Option.any_eq_true _ _).1 hfacts
  obtain ⟨hreads, horder, hfirst⟩ := of_decide_eq_true hfacts
  obtain ⟨report, hreport, hurls⟩ := Option.map_eq_some_iff.1 hbuilt
  have hplan := Except.toOption_eq_some_iff.1 hplan
  have hreport := Except.toOption_eq_some_iff.1 hreport
  have hparents : RenderOrder.IsParentsFirst (plan.tree.pages plan.website.contents)
      (lastFirst (plan.tree.pages plan.website.contents)) := by
    rw [horder]
    exact hfirst
  obtain ⟨report', hother, hsame, -⟩ := build_same_in_every_order (b := sample)
    siblingDisk_wellFormed hplan
    (fun r hr t ht => by
      rw [hreads.2.2.2 r hr] at ht
      cases ht)
    (fun base hr => by
      refine ⟨fun l _ t => not_link_of_isLinkFree siblingDisk_linkFree l t, ?_⟩
      rw [eq_out_of_reaches siblingDisk_linkFree hr]
      exact isApart_sample siblingDisk_linkFree hreads)
    hparents hreport
  exact ⟨plan, report, report', hplan, horder, hreport, hother, hsame.trans hurls⟩

end Builder

end StaticSite
