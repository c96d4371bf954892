import Mathlib.Data.List.Nodup
import StaticSite.Proofs.Disk.Settled
import StaticSite.Proofs.Sorting
import StaticSite.Proofs.Url.Normal
import StaticSite.Site.Pages

/-!
# The addresses of pages

A content tree that was gathered from a disk has names for its nodes, and siblings have different
ones (`gather_wellNamed`). So the address of a page is the chain of the names that lead to its node,
no page stands before one above it, and no two pages have one address (`pages_plain`).
-/

namespace StaticSite

open StaticSite.Path

/-! ## Addresses -/

/-- The address that a chain of names makes. -/
def chainUrl (names : List String) : String :=
  "/".intercalate names

theorem segments_chainUrl {names : List String} (h : ∀ n ∈ names, IsName n) (hne : names ≠ []) :
    segments ⟨chainUrl names⟩ = names :=
  segments_intercalate (fun n hn => (h n hn).2.2.2) hne

theorem breadCrumb_chainUrl {names : List String} (h : ∀ n ∈ names, IsName n) :
    Url.breadCrumb (chainUrl names) = names := by
  by_cases hne : names = []
  · subst hne
    decide
  · rw [Url.breadCrumb_eq, segments_chainUrl h hne]
    exact List.filter_eq_self.2 fun n hn => decide_eq_true (h n hn).1

theorem kept_chainUrl {names : List String} (h : ∀ n ∈ names, IsName n) (hne : names ≠ []) :
    Url.kept (chainUrl names) = names := by
  rw [Url.kept, segments_chainUrl h hne, Url.landing_of_isName [] h, List.nil_append]

theorem chainUrl_concat {names : List String} (n : String) (hne : names ≠ []) :
    chainUrl (names ++ [n]) = chainUrl names ++ "/" ++ n := by
  rw [chainUrl, String.intercalate_append_of_ne_nil hne (by simp), String.intercalate_singleton,
    chainUrl]

theorem normalize_chainUrl {names : List String} (h : ∀ n ∈ names, IsName n) (hne : names ≠ []) :
    Url.normalize (chainUrl names) = chainUrl names := by
  have hfront : ¬ isAbsolute ⟨chainUrl names⟩ = true := by
    rw [chainUrl, isAbsolute_of_isRelative (isRelative_intercalate fun n hn => (h n hn).isStep)]
    exact Bool.false_ne_true
  have hback : ¬ Url.EndsWithSlash (chainUrl names) := Url.not_endsWithSlash_intercalate h
  rw [Url.normalize_eq, kept_chainUrl h hne, Url.front, if_neg hfront, Url.back,
    if_neg fun hb => hback hb.1, String.empty_append, String.append_empty, chainUrl]

/-- A name behind the address of a chain. -/
theorem join_chainUrl {names : List String} {n : String} (h : ∀ m ∈ names ++ [n], IsName m) :
    Url.join (chainUrl names) n = chainUrl (names ++ [n]) := by
  by_cases hne : names = []
  · subst hne
    have := normalize_chainUrl h (by simp)
    simpa [chainUrl, Url.join] using this
  · have htext : chainUrl names ≠ "" := by
      intro he
      have hb := breadCrumb_chainUrl fun m hm => h m (List.mem_append_left _ hm)
      rw [he] at hb
      exact hne (hb.symm.trans (by decide))
    rw [Url.join, if_neg htext, ← chainUrl_concat n hne, normalize_chainUrl h (by simp)]

/-! ## The pages of a tree -/

namespace ContentPage

/-- The names that lead to a page's node. -/
def chain (page : ContentPage) : List String :=
  Url.breadCrumb page.url

/-- The address of a page is made of names. -/
structure IsPlain (page : ContentPage) : Prop where
  url : page.url = chainUrl page.chain
  ne_nil : page.chain ≠ []
  names : ∀ n ∈ page.chain, IsName n

end ContentPage

/-- No page stands before one above it, and no two pages have one address. -/
def InDepthOrder (pages : List ContentPage) : Prop :=
  pages.Pairwise fun p q => ¬ q.chain <+: p.chain

namespace ContentTree

mutual

/-- Below a node, siblings have names, each its own. -/
def WellNamed : ContentTree → Prop
  | node _ _ _ children =>
    (children.map name).Nodup ∧ (∀ t ∈ children, IsName t.name) ∧ AllWellNamed children

/-- All of some trees are well named. -/
def AllWellNamed : List ContentTree → Prop
  | [] => True
  | t :: rest => t.WellNamed ∧ AllWellNamed rest

end

mutual

theorem pagesFrom_plain (source : Path) {above : List String} (ha : ∀ n ∈ above, IsName n) :
    ∀ (t : ContentTree), t.WellNamed → (above = [] → t.spec = none) →
      (∀ page ∈ t.pagesFrom source (chainUrl above), page.IsPlain ∧ above <+: page.chain) ∧
        InDepthOrder (t.pagesFrom source (chainUrl above))
  | node name own spec children, hw, hs => by
    obtain ⟨hbelow, horder⟩ := pagesBelow_plain source ha children hw.1 hw.2.1 hw.2.2
    have deeper : ∀ page ∈ pagesBelow source (chainUrl above) children,
        page.IsPlain ∧ ∃ n, above ++ [n] <+: page.chain := fun page hp =>
      let ⟨hplain, t, _, hc⟩ := hbelow page hp
      ⟨hplain, t.name, hc⟩
    have up {page : ContentPage} (h : ∃ n, above ++ [n] <+: page.chain) : above <+: page.chain :=
      let ⟨_, hn⟩ := h
      (List.prefix_append _ _).trans hn
    rw [pagesFrom]
    cases spec with
    | none =>
      exact ⟨fun page hp => ⟨(deeper page hp).1, up (deeper page hp).2⟩, horder⟩
    | some s =>
      have hne : above ≠ [] := fun he => by cases hs he
      have hchain : ContentPage.chain ⟨s, source.text, chainUrl above⟩ = above :=
        breadCrumb_chainUrl ha
      constructor
      · intro page hp
        rcases List.mem_cons.1 hp with rfl | hp
        · constructor
          · constructor
            · rw [hchain]
            · rw [hchain]
              exact hne
            · rw [hchain]
              exact ha
          · simp only [hchain, List.prefix_rfl]
        · exact ⟨(deeper page hp).1, up (deeper page hp).2⟩
      · refine List.Pairwise.cons (fun page hp hc => ?_) horder
        obtain ⟨-, n, hn⟩ := deeper page hp
        rw [hchain] at hc
        have := (hn.trans hc).length_le
        rw [List.length_append] at this
        exact absurd this (by simp)

theorem pagesBelow_plain (source : Path) {above : List String} (ha : ∀ n ∈ above, IsName n) :
    ∀ (ts : List ContentTree), (ts.map name).Nodup → (∀ t ∈ ts, IsName t.name) → AllWellNamed ts →
      (∀ page ∈ pagesBelow source (chainUrl above) ts,
        page.IsPlain ∧ ∃ t ∈ ts, above ++ [t.name] <+: page.chain) ∧
        InDepthOrder (pagesBelow source (chainUrl above) ts)
  | [], _, _, _ => ⟨by simp [pagesBelow], List.Pairwise.nil⟩
  | t :: rest, hn, hi, hw => by
    have hnames : ∀ n ∈ above ++ [t.name], IsName n := fun n hm => by
      rcases List.mem_append.1 hm with hm | hm
      · exact ha n hm
      · exact List.mem_singleton.1 hm ▸ hi t List.mem_cons_self
    obtain ⟨hfirst, hfirst'⟩ := pagesFrom_plain (source.join t.name) hnames t hw.1 (by simp)
    rw [List.map_cons, List.nodup_cons] at hn
    obtain ⟨hrest, hrest'⟩ :=
      pagesBelow_plain source ha rest hn.2 (fun u hu => hi u (List.mem_cons_of_mem t hu)) hw.2
    rw [pagesBelow, join_chainUrl hnames]
    refine ⟨fun page hp => ?_, List.pairwise_append.2 ⟨hfirst', hrest', fun p hp q hq hc => ?_⟩⟩
    · rcases List.mem_append.1 hp with hp | hp
      · exact ⟨(hfirst page hp).1, t, List.mem_cons_self, (hfirst page hp).2⟩
      · obtain ⟨hplain, u, hu, huc⟩ := hrest page hp
        exact ⟨hplain, u, List.mem_cons_of_mem t hu, huc⟩
    · -- both chains would go on with the name of one sibling
      obtain ⟨-, u, hu, huc⟩ := hrest q hq
      have hsame := List.prefix_of_prefix_length_le (huc.trans hc) (hfirst p hp).2 (by simp)
      have hname : u.name = t.name := by simpa using List.IsPrefix.eq_of_length hsame (by simp)
      exact hn.1 (List.mem_map.2 ⟨u, hu, hname⟩)

end

/-- The pages of a content tree have plain addresses and stand behind those above them. -/
theorem pages_plain {tree : ContentTree} (hw : tree.WellNamed) (hs : tree.spec = none)
    (contents : String) :
    (∀ page ∈ tree.pages contents, page.IsPlain) ∧ InDepthOrder (tree.pages contents) := by
  have hnone : ∀ n ∈ ([] : List String), IsName n := fun _ hn => by cases hn
  have := pagesFrom_plain ⟨contents⟩ hnone tree hw fun _ => hs
  exact ⟨fun page hp => (this.1 page hp).1, this.2⟩

/-! ## Gathered trees -/

theorem AllWellNamed.of_forall {ts : List ContentTree} (h : ∀ t ∈ ts, t.WellNamed) :
    AllWellNamed ts := by
  induction ts with
  | nil => trivial
  | cons t rest ih =>
    exact ⟨h t List.mem_cons_self, ih fun u hu => h u (List.mem_cons_of_mem t hu)⟩

theorem AllWellNamed.of_mem {ts : List ContentTree} (h : AllWellNamed ts) {c : ContentTree}
    (hc : c ∈ ts) :
    c.WellNamed := by
  induction ts with
  | nil => cases hc
  | cons t rest ih =>
    rcases List.mem_cons.1 hc with rfl | hc
    · exact h.1
    · exact ih h.2 hc

theorem WellNamed.nodup {t : ContentTree} (h : t.WellNamed) : (t.children.map name).Nodup := by
  obtain ⟨own, source, spec, children⟩ := t
  exact h.1

theorem WellNamed.isName {t : ContentTree} (h : t.WellNamed) : ∀ c ∈ t.children, IsName c.name := by
  obtain ⟨own, source, spec, children⟩ := t
  exact h.2.1

theorem WellNamed.of_mem {t c : ContentTree} (h : t.WellNamed) (hc : c ∈ t.children) :
    c.WellNamed := by
  obtain ⟨own, source, spec, children⟩ := t
  exact h.2.2.of_mem hc

/-- The last name of a location in a directory. -/
def nameIn? (place l : Location) : Option String :=
  if l ≠ [] ∧ l.dropLast = place then l.getLast? else none

theorem nameIn?_eq_some_iff {place l : Location} {n : String} :
    nameIn? place l = some n ↔ l = place ++ [n] := by
  rw [nameIn?]
  rcases List.eq_nil_or_concat l with rfl | ⟨init, m, rfl⟩
  · simp
  · simp

theorem namesIn_eq (disk : Disk) (place : Location) : disk.namesIn place =
    sortBy (fun a b => a ≤ b) ((disk.entries.map Prod.fst).filterMap (nameIn? place)) := by
  rw [List.filterMap_map]
  rfl

theorem namesIn_nodup {disk : Disk} (hw : disk.WellFormed) (place : Location) :
    (disk.namesIn place).Nodup := by
  rw [namesIn_eq, (perm_sortBy _ _).nodup_iff]
  refine hw.nodup.filterMap fun l l' n hl hl' => ?_
  rw [nameIn?_eq_some_iff.1 hl, nameIn?_eq_some_iff.1 hl']

theorem exists_entry_of_mem_namesIn {disk : Disk} {place : Location} {n : String}
    (h : n ∈ disk.namesIn place) : ∃ entry, (place ++ [n], entry) ∈ disk.entries := by
  rw [namesIn_eq, mem_sortBy] at h
  obtain ⟨l, hl, hn⟩ := List.mem_filterMap.1 h
  obtain rfl : l = place ++ [n] := nameIn?_eq_some_iff.1 hn
  obtain ⟨⟨_, entry⟩, he, rfl⟩ := List.mem_map.1 hl
  exact ⟨entry, he⟩

theorem isName_of_mem_namesIn {disk : Disk} (hw : disk.WellFormed) {place : Location} {n : String}
    (h : n ∈ disk.namesIn place) : IsName n := by
  obtain ⟨entry, he⟩ := exists_entry_of_mem_namesIn h
  exact (hw.names he).2 n (by simp)

/-- Children are listed of what leads to a directory: the directories in it that are content. -/
theorem childNames_eq_ok_iff {disk : Disk} {source : Path} {parent : Option ItemSpec}
    {names : List String} :
    childNames disk source parent = .ok names ↔
      ∃ place, disk.resolve true source = .ok (.held place .directory) ∧
        names = (disk.namesIn place).filter fun n =>
          disk.isDirectory (source.join n) && isContent parent n := by
  constructor
  · intro h
    obtain ⟨found, hr, h⟩ := Except.bind_eq_ok_iff.1 h
    cases found with
    | free => cases h
    | held place entry =>
      cases entry with
      | file => cases h
      | link => cases h
      | directory =>
        cases h
        exact ⟨place, hr, rfl⟩
  · rintro ⟨place, hr, rfl⟩
    unfold childNames
    rw [hr]
    rfl

theorem childNames_wellNamed {disk : Disk} (hw : disk.WellFormed) {source : Path}
    {parent : Option ItemSpec} {names : List String}
    (h : childNames disk source parent = .ok names) :
    names.Nodup ∧ ∀ n ∈ names, IsName n := by
  obtain ⟨place, -, rfl⟩ := childNames_eq_ok_iff.1 h
  exact ⟨(namesIn_nodup hw place).filter _, fun n hn =>
    isName_of_mem_namesIn hw (List.mem_filter.1 hn).1⟩

/-- The node of a directory with those below it, down to a depth of `depth`. -/
def readNode (disk : Disk) (source : Path) (depth : Nat) (name : String) :
    Except ContentError ContentTree := do
  let own := source.join name
  let spec ← (itemAt disk own).mapError .config
  return node name own spec (← gatherBelow disk own spec depth)

theorem gatherBelow_succ (disk : Disk) (source : Path) (parent : Option ItemSpec) (depth : Nat) :
    gatherBelow disk source parent (depth + 1) =
      (childNames disk source parent).mapError .io >>= (·.mapM (readNode disk source depth)) := rfl

theorem readNode_eq_ok_iff {disk : Disk} {source : Path} {depth : Nat} {n : String}
    {t : ContentTree} :
    readNode disk source depth n = .ok t ↔ ∃ spec children, itemAt disk (source.join n) = .ok spec ∧
      gatherBelow disk (source.join n) spec depth = .ok children ∧
      t = node n (source.join n) spec children := by
  constructor
  · intro h
    obtain ⟨spec, hspec, h⟩ := Except.bind_eq_ok_iff.1 h
    obtain ⟨children, hc, h⟩ := Except.bind_eq_ok_iff.1 h
    cases h
    exact ⟨spec, children, Except.mapError_eq_ok_iff.1 hspec, hc, rfl⟩
  · rintro ⟨spec, children, hspec, hc, rfl⟩
    exact Except.bind_eq_ok_iff.2 ⟨spec, Except.mapError_eq_ok_iff.2 hspec,
      Except.bind_eq_ok_iff.2 ⟨children, hc, rfl⟩⟩

theorem name_of_readNode {disk : Disk} {source : Path} {depth : Nat} {n : String} {t : ContentTree}
    (h : readNode disk source depth n = .ok t) : t.name = n := by
  obtain ⟨spec, children, -, -, rfl⟩ := readNode_eq_ok_iff.1 h
  rfl

theorem gatherBelow_wellNamed {disk : Disk} (hw : disk.WellFormed) (depth : Nat) {source : Path}
    {parent : Option ItemSpec} {ts : List ContentTree}
    (h : gatherBelow disk source parent depth = .ok ts) :
    (ts.map name).Nodup ∧ (∀ t ∈ ts, IsName t.name) ∧ AllWellNamed ts := by
  induction depth generalizing source parent ts with
  | zero =>
    cases h
    exact ⟨.nil, by simp, trivial⟩
  | succ depth ih =>
    rw [gatherBelow_succ] at h
    obtain ⟨names, hnames, h⟩ := Except.bind_eq_ok_iff.1 h
    obtain ⟨hnodup, hall⟩ := childNames_wellNamed hw (Except.mapError_eq_ok_iff.1 hnames)
    have hsame : ts.map name = names := map_eq_of_mapM h fun n t ht => name_of_readNode ht
    refine ⟨hsame ▸ hnodup, fun t ht => hall _ ?_, .of_forall fun t ht => ?_⟩
    · rw [← hsame]
      exact List.mem_map_of_mem ht
    · obtain ⟨n, -, hn⟩ := exists_mem_of_mapM h ht
      obtain ⟨spec, children, -, hc, rfl⟩ := readNode_eq_ok_iff.1 hn
      exact ih hc

/-- The tree that is gathered from a disk. -/
theorem gather_wellNamed {disk : Disk} (hw : disk.WellFormed) {source : Path} {tree : ContentTree}
    (h : gather disk source = .ok tree) : tree.WellNamed ∧ tree.spec = none := by
  unfold gather at h
  split at h
  · obtain ⟨children, hc, h⟩ := Except.bind_eq_ok_iff.1 h
    cases h
    exact ⟨gatherBelow_wellNamed hw _ hc, rfl⟩
  · cases h

end ContentTree

end StaticSite
