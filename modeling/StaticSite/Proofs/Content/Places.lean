import Mathlib.Data.List.Induction
import Mathlib.Data.List.Pairwise
import Mathlib.Data.String.Basic
import StaticSite.Proofs.Content.Pages

/-!
# The places of nodes

The nodes of a content tree are counted depth first, each node before those below it and these
before its siblings. A node's place has its index in this count, that of the node above it, and the
names that lead to it. Every place but the root's is right below another one (`mem_placesFrom_iff`),
the names that lead to a place find its node and no other chain of names does (`find?_iff_place`),
and where siblings stand in the order of their names, places stand in the lexicographic order of
their chains (`places_sorted`).
-/

namespace StaticSite

open StaticSite.Path

/-- A node of a content tree, with what stands below it, and where it is in the tree. -/
structure Place where
  index : Nat
  /-- The index of the node above it. -/
  parent : Option Nat
  /-- The names that lead to it. -/
  chain : List String
  node : ContentTree

namespace ContentTree

mutual

/-- The places of a node, which has the given number, parent and chain, and of those below it. -/
def placesFrom (index : Nat) (parent : Option Nat) (chain : List String) : ContentTree → List Place
  | node name source spec children =>
    ⟨index, parent, chain, node name source spec children⟩ ::
      placesBelow index chain (index + 1) children

/-- The places of siblings and of what is below them, where the first one has the index `start`. -/
def placesBelow (parent : Nat) (above : List String) (start : Nat) : List ContentTree → List Place
  | [] => []
  | t :: rest => placesFrom start (some parent) (above ++ [t.name]) t ++
      placesBelow parent above (start + t.size) rest

end

/-- The places of all nodes of a tree, in the order of their indices. -/
def places (tree : ContentTree) : List Place :=
  tree.placesFrom 0 none []

/-- The places of siblings. -/
def placesBeside (parent : Nat) (above : List String) (start : Nat) : List ContentTree → List Place
  | [] => []
  | t :: rest => ⟨start, some parent, above ++ [t.name], t⟩ ::
      placesBeside parent above (start + t.size) rest

end ContentTree

/-- The places right below a place. -/
def Place.below (p : Place) : List Place :=
  ContentTree.placesBeside p.index p.chain (p.index + 1) p.node.children

namespace ContentTree

variable {parent start index : Nat} {up : Option Nat} {above names : List String}
  {t u : ContentTree} {ts : List ContentTree} {p q : Place}

/-! ## Indices -/

theorem size_eq (t : ContentTree) : t.size = 1 + sizeAll t.children := by
  obtain ⟨name, source, spec, children⟩ := t
  rw [size]
  rfl

theorem placesFrom_eq (index : Nat) (up : Option Nat) (above : List String) (t : ContentTree) :
    t.placesFrom index up above =
      ⟨index, up, above, t⟩ :: placesBelow index above (index + 1) t.children := by
  obtain ⟨name, source, spec, children⟩ := t
  rw [placesFrom]
  rfl

mutual

theorem index_placesFrom (index : Nat) (up : Option Nat) (above : List String) :
    ∀ t : ContentTree, (t.placesFrom index up above).map Place.index = List.range' index t.size
  | node name source spec children => by
    rw [placesFrom, List.map_cons, index_placesBelow, size, Nat.add_comm 1, List.range'_succ]

theorem index_placesBelow (parent : Nat) (above : List String) (start : Nat) :
    ∀ ts : List ContentTree,
      (placesBelow parent above start ts).map Place.index = List.range' start (sizeAll ts)
  | [] => rfl
  | t :: rest => by
    rw [placesBelow, List.map_append, index_placesFrom, index_placesBelow, sizeAll,
      List.range'_append_1]

end

theorem length_placesFrom (index : Nat) (up : Option Nat) (above : List String) (t : ContentTree) :
    (t.placesFrom index up above).length = t.size := by
  rw [← List.length_map (f := Place.index), index_placesFrom, List.length_range']

theorem index_places (tree : ContentTree) : tree.places.map Place.index = List.range tree.size := by
  rw [places, index_placesFrom, List.range_eq_range']

/-- The place at an index is the place with this index. -/
theorem getElem?_places {tree : ContentTree} {i : Nat} :
    tree.places[i]? = some p ↔ p ∈ tree.places ∧ p.index = i := by
  have hindex {j : Nat} {q : Place} (h : tree.places[j]? = some q) : q.index = j := by
    have hj := congrArg (·[j]?) (index_places tree)
    simp only [List.getElem?_map, h, Option.map_some] at hj
    obtain ⟨hlt, hj⟩ := List.getElem?_eq_some_iff.1 hj.symm
    exact hj.symm.trans (List.getElem_range hlt)
  constructor
  · exact fun h => ⟨List.mem_of_getElem? h, hindex h⟩
  · rintro ⟨hp, rfl⟩
    obtain ⟨j, hj⟩ := List.getElem?_of_mem hp
    rwa [hindex hj]

theorem eq_of_index_eq {tree : ContentTree} (hp : p ∈ tree.places) (hq : q ∈ tree.places)
    (h : p.index = q.index) : p = q :=
  Option.some.inj ((getElem?_places.2 ⟨hp, h⟩).symm.trans (getElem?_places.2 ⟨hq, rfl⟩))

/-- The indices of siblings ascend, and are behind `start`. -/
theorem index_placesBeside (parent : Nat) (above : List String) (start : Nat)
    (ts : List ContentTree) :
    (placesBeside parent above start ts).Pairwise (fun p q => p.index < q.index) ∧
      ∀ p ∈ placesBeside parent above start ts, start ≤ p.index := by
  induction ts generalizing start with
  | nil => exact ⟨.nil, fun _ hp => by cases hp⟩
  | cons t rest ih =>
    obtain ⟨hsorted, hbehind⟩ := ih (start + t.size)
    have hsize := size_eq t
    refine ⟨.cons (fun q hq => ?_) hsorted, fun q hq => ?_⟩
    · have := hbehind q hq
      show start < q.index
      omega
    · rcases List.mem_cons.1 hq with rfl | hq
      · exact Nat.le_refl start
      · have := hbehind q hq
        omega

theorem parent_of_mem_placesBeside (hp : p ∈ placesBeside parent above start ts) :
    p.parent = some parent ∧ p.chain = above ++ [p.node.name] ∧ p.node ∈ ts := by
  induction ts generalizing start with
  | nil => cases hp
  | cons t rest ih =>
    rcases List.mem_cons.1 hp with rfl | hp
    · exact ⟨rfl, rfl, List.mem_cons_self⟩
    · obtain ⟨hparent, hchain, hmem⟩ := ih hp
      exact ⟨hparent, hchain, List.mem_cons_of_mem t hmem⟩

theorem node_placesBeside (parent : Nat) (above : List String) (start : Nat)
    (ts : List ContentTree) :
    (placesBeside parent above start ts).map Place.node = ts := by
  induction ts generalizing start with
  | nil => rfl
  | cons t rest ih => rw [placesBeside, List.map_cons, ih]

end ContentTree

namespace Place

open ContentTree

variable {p q : Place}

theorem parent_of_mem_below (h : p ∈ q.below) : p.parent = some q.index :=
  (parent_of_mem_placesBeside h).1

theorem chain_of_mem_below (h : p ∈ q.below) : p.chain = q.chain ++ [p.node.name] :=
  (parent_of_mem_placesBeside h).2.1

theorem node_mem_of_mem_below (h : p ∈ q.below) : p.node ∈ q.node.children :=
  (parent_of_mem_placesBeside h).2.2

theorem index_lt_of_mem_below (h : p ∈ q.below) : q.index < p.index :=
  (index_placesBeside _ _ _ _).2 p h

theorem node_below (p : Place) : p.below.map Place.node = p.node.children :=
  node_placesBeside _ _ _ _

theorem exists_mem_below {c : ContentTree} (h : c ∈ p.node.children) :
    ∃ q ∈ p.below, q.node = c := by
  rw [← node_below] at h
  exact List.mem_map.1 h

end Place

namespace ContentTree

variable {parent start index : Nat} {up : Option Nat} {above names : List String}
  {t u : ContentTree} {ts : List ContentTree} {p q : Place}

/-! ## Places below places -/

theorem placesBeside_subset (hp : p ∈ placesBeside parent above start ts) :
    p ∈ placesBelow parent above start ts := by
  induction ts generalizing start with
  | nil => cases hp
  | cons t rest ih =>
    rw [placesBelow, placesFrom_eq]
    rcases List.mem_cons.1 hp with rfl | hp
    · exact List.mem_append_left _ List.mem_cons_self
    · exact List.mem_append_right _ (ih hp)

mutual

theorem exists_of_mem_placesFrom {index : Nat} {up : Option Nat} {above : List String} :
    ∀ {t : ContentTree} {p : Place}, p ∈ t.placesFrom index up above →
      p = ⟨index, up, above, t⟩ ∨ ∃ q ∈ t.placesFrom index up above, p ∈ q.below
  | node name source spec children, p, hp => by
    rw [placesFrom] at hp ⊢
    rcases List.mem_cons.1 hp with rfl | hp
    · exact .inl rfl
    · rcases exists_of_mem_placesBelow hp with hp | ⟨q, hq, hp⟩
      · exact .inr ⟨_, List.mem_cons_self, hp⟩
      · exact .inr ⟨q, List.mem_cons_of_mem _ hq, hp⟩

theorem exists_of_mem_placesBelow {parent : Nat} {above : List String} {start : Nat} :
    ∀ {ts : List ContentTree} {p : Place}, p ∈ placesBelow parent above start ts →
      p ∈ placesBeside parent above start ts ∨ ∃ q ∈ placesBelow parent above start ts, p ∈ q.below
  | [], p, hp => by cases hp
  | t :: rest, p, hp => by
    rw [placesBelow] at hp ⊢
    rcases List.mem_append.1 hp with hp | hp
    · rcases exists_of_mem_placesFrom hp with rfl | ⟨q, hq, hp⟩
      · exact .inl List.mem_cons_self
      · exact .inr ⟨q, List.mem_append_left _ hq, hp⟩
    · rcases exists_of_mem_placesBelow hp with hp | ⟨q, hq, hp⟩
      · exact .inl (List.mem_cons_of_mem _ hp)
      · exact .inr ⟨q, List.mem_append_right _ hq, hp⟩

end

theorem exists_placesFrom (hp : p ∈ placesBelow parent above start ts) :
    ∃ t ∈ ts, ∃ index, p ∈ t.placesFrom index (some parent) (above ++ [t.name]) := by
  induction ts generalizing start with
  | nil => cases hp
  | cons t rest ih =>
    rw [placesBelow] at hp
    rcases List.mem_append.1 hp with hp | hp
    · exact ⟨t, List.mem_cons_self, start, hp⟩
    · obtain ⟨u, hu, hp⟩ := ih hp
      exact ⟨u, List.mem_cons_of_mem t hu, hp⟩

mutual

theorem below_subset_placesFrom {index : Nat} {up : Option Nat} {above : List String} :
    ∀ {t : ContentTree} {p q : Place}, q ∈ t.placesFrom index up above → p ∈ q.below →
      p ∈ t.placesFrom index up above
  | node name source spec children, p, q, hq, hp => by
    rw [placesFrom] at hq ⊢
    refine List.mem_cons_of_mem _ ?_
    rcases List.mem_cons.1 hq with rfl | hq
    · exact placesBeside_subset hp
    · exact below_subset_placesBelow hq hp

theorem below_subset_placesBelow {parent : Nat} {above : List String} {start : Nat} :
    ∀ {ts : List ContentTree} {p q : Place}, q ∈ placesBelow parent above start ts → p ∈ q.below →
      p ∈ placesBelow parent above start ts
  | [], p, q, hq, _ => by cases hq
  | t :: rest, p, q, hq, hp => by
    rw [placesBelow] at hq ⊢
    rcases List.mem_append.1 hq with hq | hq
    · exact List.mem_append_left _ (below_subset_placesFrom hq hp)
    · exact List.mem_append_right _ (below_subset_placesBelow hq hp)

end

/-- A place is that of the node where the count starts or right below another place. -/
theorem mem_placesFrom_iff : p ∈ t.placesFrom index up above ↔
    p = ⟨index, up, above, t⟩ ∨ ∃ q ∈ t.placesFrom index up above, p ∈ q.below := by
  constructor
  · exact exists_of_mem_placesFrom
  · rintro (rfl | ⟨q, hq, hp⟩)
    · rw [placesFrom_eq]
      exact List.mem_cons_self
    · exact below_subset_placesFrom hq hp

/-- The place of the root of a tree. -/
def rootPlace (tree : ContentTree) : Place :=
  ⟨0, none, [], tree⟩

theorem mem_places_iff {tree : ContentTree} :
    p ∈ tree.places ↔ p = tree.rootPlace ∨ ∃ q ∈ tree.places, p ∈ q.below :=
  mem_placesFrom_iff

/-- What is so at the root, and right below each place where it is so, is so at all places. -/
theorem places_induction {tree : ContentTree} {motive : Place → Prop} (root : motive tree.rootPlace)
    (below : ∀ q ∈ tree.places, motive q → ∀ p ∈ q.below, motive p) :
    ∀ p ∈ tree.places, motive p := by
  intro p
  induction hi : p.index using Nat.strong_induction_on generalizing p with
  | _ i ih =>
    intro hp
    rcases mem_places_iff.1 hp with rfl | ⟨q, hq, hpq⟩
    · exact root
    · have hlt : q.index < i := hi ▸ Place.index_lt_of_mem_below hpq
      exact below q hq (ih q.index hlt q rfl hq) p hpq

/-! ## Chains -/

/-- The only item that satisfies a condition is found by it. -/
theorem find?_of_unique {α : Type} {p : α → Bool} {a : α} {items : List α} (ha : a ∈ items)
    (hp : p a = true) (hu : ∀ b ∈ items, p b = true → b = a) : items.find? p = some a := by
  cases hfound : items.find? p with
  | none => exact absurd hp (List.find?_eq_none.1 hfound a ha)
  | some b => rw [hu b (List.mem_of_find?_eq_some hfound) (List.find?_some hfound)]

theorem find?_name (hn : (ts.map name).Nodup) (ht : t ∈ ts) :
    ts.find? (·.name == t.name) = some t :=
  find?_of_unique ht (by simp) fun _ hu he => List.inj_on_of_nodup_map hn hu ht (by simpa using he)

theorem find?_append (t : ContentTree) (names more : List String) :
    t.find? (names ++ more) = (t.find? names).bind (·.find? more) := by
  induction names generalizing t with
  | nil => rfl
  | cons n rest ih =>
    rw [List.cons_append, find?, find?, Option.bind_assoc]
    exact congrArg _ (funext fun c => ih c)

theorem find?_singleton (t : ContentTree) (n : String) :
    t.find? [n] = t.children.find? (·.name == n) := by
  rw [find?]
  cases t.children.find? (·.name == n) <;> rfl

/-- The chain of a place leads to its node. -/
theorem find?_chain {tree : ContentTree} (hw : tree.WellNamed) :
    ∀ p ∈ tree.places, tree.find? p.chain = some p.node ∧ p.node.WellNamed := by
  refine places_induction ⟨rfl, hw⟩ fun q _ ⟨hfind, hwell⟩ p hp => ?_
  have hmem := Place.node_mem_of_mem_below hp
  rw [Place.chain_of_mem_below hp, find?_append, hfind, Option.bind_some, find?_singleton,
    find?_name hwell.nodup hmem]
  exact ⟨rfl, hwell.of_mem hmem⟩

/-- The chains of names that lead to nodes are those of the places. -/
theorem find?_iff_place {tree : ContentTree} (hw : tree.WellNamed) :
    tree.find? names = some u ↔ ∃ p ∈ tree.places, p.chain = names ∧ p.node = u := by
  constructor
  · induction names using List.reverseRecOn generalizing u with
    | nil =>
      rintro ⟨⟩
      exact ⟨tree.rootPlace, mem_places_iff.2 (.inl rfl), rfl, rfl⟩
    | append_singleton init n ih =>
      intro h
      rw [find?_append] at h
      obtain ⟨above, habove, h⟩ := Option.bind_eq_some_iff.1 h
      obtain ⟨q, hq, rfl, rfl⟩ := ih habove
      rw [find?_singleton] at h
      obtain ⟨p, hp, rfl⟩ := Place.exists_mem_below (List.mem_of_find?_eq_some h)
      have hn : p.node.name = n := by simpa using List.find?_some h
      exact ⟨p, mem_places_iff.2 (.inr ⟨q, hq, hp⟩), hn ▸ Place.chain_of_mem_below hp, rfl⟩
  · rintro ⟨p, hp, rfl, rfl⟩
    exact (find?_chain hw p hp).1

theorem isName_chain {tree : ContentTree} (hw : tree.WellNamed) :
    ∀ p ∈ tree.places, ∀ n ∈ p.chain, IsName n := by
  refine places_induction (fun n hn => by cases hn) fun q hq hnames p hp => ?_
  rw [Place.chain_of_mem_below hp]
  exact List.forall_mem_append.2 ⟨hnames, List.forall_mem_singleton.2
    ((find?_chain hw q hq).2.isName _ (Place.node_mem_of_mem_below hp))⟩

/-! ## The order of chains -/

/-- The names of the children ascend. -/
def IsSorted (t : ContentTree) : Prop :=
  (t.children.map name).Pairwise (· < ·)

theorem lt_append_cons (above : List String) (n : String) (rest : List String) :
    above < above ++ n :: rest := by
  have : above ++ [] < above ++ n :: rest := List.append_left_lt (List.nil_lt_cons n rest)
  rwa [List.append_nil] at this

mutual

theorem placesFrom_sorted (index : Nat) (up : Option Nat) (above : List String) :
    ∀ t : ContentTree, (∀ p ∈ t.placesFrom index up above, p.node.IsSorted) →
      (t.placesFrom index up above).Pairwise (fun p q => p.chain < q.chain) ∧
        ∀ p ∈ t.placesFrom index up above, above <+: p.chain
  | node name source spec children, hs => by
    rw [placesFrom] at hs ⊢
    obtain ⟨hsorted, hbelow⟩ := placesBelow_sorted index above (index + 1) children
      (hs _ List.mem_cons_self) fun p hp => hs p (List.mem_cons_of_mem _ hp)
    refine ⟨.cons (fun q hq => ?_) hsorted, fun p hp => ?_⟩
    · obtain ⟨c, -, rest, hc⟩ := hbelow q hq
      rw [hc]
      exact lt_append_cons above c.name rest
    · rcases List.mem_cons.1 hp with rfl | hp
      · exact List.prefix_rfl
      · obtain ⟨c, -, rest, hc⟩ := hbelow p hp
        exact ⟨_, hc.symm⟩

theorem placesBelow_sorted (parent : Nat) (above : List String) (start : Nat) :
    ∀ ts : List ContentTree, (ts.map name).Pairwise (· < ·) →
      (∀ p ∈ placesBelow parent above start ts, p.node.IsSorted) →
      (placesBelow parent above start ts).Pairwise (fun p q => p.chain < q.chain) ∧
        ∀ p ∈ placesBelow parent above start ts, ∃ t ∈ ts, ∃ rest, p.chain = above ++ t.name :: rest
  | [], _, _ => ⟨.nil, fun _ hp => by cases hp⟩
  | t :: rest, hnames, hs => by
    rw [placesBelow] at hs ⊢
    obtain ⟨hfirst, hnames⟩ := List.pairwise_cons.1 hnames
    obtain ⟨hsorted, hbelow⟩ := placesFrom_sorted start (some parent) (above ++ [t.name]) t
      fun p hp => hs p (List.mem_append_left _ hp)
    obtain ⟨hsorted', hbelow'⟩ := placesBelow_sorted parent above (start + t.size) rest hnames
      fun p hp => hs p (List.mem_append_right _ hp)
    refine ⟨List.pairwise_append.2 ⟨hsorted, hsorted', fun p hp q hq => ?_⟩, fun p hp => ?_⟩
    · obtain ⟨names, hp⟩ := hbelow p hp
      obtain ⟨u, hu, names', hq⟩ := hbelow' q hq
      rw [← hp, hq, List.append_assoc]
      exact List.append_left_lt (List.cons_lt_cons_iff.2 (.inl (hfirst _ (List.mem_map_of_mem hu))))
    · rcases List.mem_append.1 hp with hp | hp
      · obtain ⟨names, hp⟩ := hbelow p hp
        exact ⟨t, List.mem_cons_self, names, by rw [← hp, List.append_assoc, List.singleton_append]⟩
      · obtain ⟨u, hu, names, hp⟩ := hbelow' p hp
        exact ⟨u, List.mem_cons_of_mem t hu, names, hp⟩

end

/-- Where siblings stand in the order of their names, places stand in the lexicographic order of
their chains: each before those below it, and these before its siblings. -/
theorem places_sorted {tree : ContentTree} (hs : ∀ p ∈ tree.places, p.node.IsSorted) :
    tree.places.Pairwise fun p q => p.chain < q.chain :=
  (placesFrom_sorted 0 none [] tree hs).1

theorem eq_of_chain_eq {tree : ContentTree} (hs : ∀ p ∈ tree.places, p.node.IsSorted)
    (hp : p ∈ tree.places) (hq : q ∈ tree.places) (h : p.chain = q.chain) : p = q := by
  by_contra hne
  have : Std.Symm fun p q : Place => p.chain ≠ q.chain := ⟨fun _ _ h he => h he.symm⟩
  have hdiffer : tree.places.Pairwise fun p q => p.chain ≠ q.chain :=
    (places_sorted hs).imp fun {p q} hlt (he : p.chain = q.chain) => List.lt_irrefl _ (he ▸ hlt)
  exact hdiffer.forall hp hq hne h

/-! ## Gathered trees -/

/-- The children of a node of a gathered tree: their names ascend, and each is a directory of this
name in that of the node. -/
structure IsListed (t : ContentTree) : Prop where
  sorted : t.IsSorted
  source : ∀ c ∈ t.children, c.source = t.source.join c.name

theorem childNames_sorted {disk : Disk} (hw : disk.WellFormed) {source : Path}
    {parent : Option ItemSpec} {names : List String}
    (h : childNames disk source parent = .ok names) :
    names.Pairwise (· < ·) := by
  obtain ⟨place, -, rfl⟩ := childNames_eq_ok_iff.1 h
  have hle : (disk.namesIn place).Pairwise fun a b => decide (a ≤ b) = true := by
    rw [namesIn_eq]
    refine pairwise_sortBy (fun hab hbc => ?_) (fun a b => ?_) _
    · exact decide_eq_true ((of_decide_eq_true hab).trans (of_decide_eq_true hbc))
    · simpa using le_total a b
  refine ((hle.and (namesIn_nodup hw place)).imp fun ⟨hab, hne⟩ => ?_).filter _
  exact lt_of_le_of_ne (of_decide_eq_true hab) hne

theorem gatherBelow_listed {disk : Disk} (hw : disk.WellFormed) (depth : Nat) {source : Path}
    {parent : Option ItemSpec} (h : gatherBelow disk source parent depth = .ok ts) :
    (ts.map name).Pairwise (· < ·) ∧ (∀ t ∈ ts, t.source = source.join t.name) ∧
      ∀ t ∈ ts, ∀ index up above, ∀ p ∈ t.placesFrom index up above, p.node.IsListed := by
  induction depth generalizing source parent ts with
  | zero =>
    cases h
    exact ⟨.nil, by simp, by simp⟩
  | succ depth ih =>
    rw [gatherBelow_succ] at h
    obtain ⟨names, hnames, h⟩ := Except.bind_eq_ok_iff.1 h
    have hsorted := childNames_sorted hw (Except.mapError_eq_ok_iff.1 hnames)
    have hsame : ts.map name = names := map_eq_of_mapM h fun n t ht => name_of_readNode ht
    refine ⟨hsame ▸ hsorted, fun t ht => ?_, fun t ht index up above p hp => ?_⟩
    · obtain ⟨n, -, hn⟩ := exists_mem_of_mapM h ht
      obtain ⟨spec, children, -, -, rfl⟩ := readNode_eq_ok_iff.1 hn
      rfl
    · obtain ⟨n, -, hn⟩ := exists_mem_of_mapM h ht
      obtain ⟨spec, children, -, hc, rfl⟩ := readNode_eq_ok_iff.1 hn
      obtain ⟨hs, hsource, hbelow⟩ := ih hc
      rw [placesFrom] at hp
      rcases List.mem_cons.1 hp with rfl | hp
      · exact ⟨hs, hsource⟩
      · obtain ⟨t, ht, _, hp⟩ := exists_placesFrom hp
        exact hbelow t ht _ _ _ p hp

theorem gather_listed {disk : Disk} (hw : disk.WellFormed) {source : Path} {tree : ContentTree}
    (h : gather disk source = .ok tree) :
    tree.source = source ∧ tree.name = "" ∧ ∀ p ∈ tree.places, p.node.IsListed := by
  unfold gather at h
  split at h
  · obtain ⟨children, hc, h⟩ := Except.bind_eq_ok_iff.1 h
    cases h
    obtain ⟨hs, hsource, hbelow⟩ := gatherBelow_listed hw _ hc
    refine ⟨rfl, rfl, fun p hp => ?_⟩
    rw [places, placesFrom] at hp
    rcases List.mem_cons.1 hp with rfl | hp
    · exact ⟨hs, hsource⟩
    · obtain ⟨t, ht, _, hp⟩ := exists_placesFrom hp
      exact hbelow t ht _ _ _ p hp
  · cases h

/-- The directory of a place is reached from that of the root by its chain. -/
theorem source_of_place {tree : ContentTree} (hl : ∀ p ∈ tree.places, p.node.IsListed) :
    ∀ p ∈ tree.places, p.node.source = p.chain.foldl Path.join tree.source := by
  refine places_induction rfl fun q hq hsource p hp => ?_
  rw [Place.chain_of_mem_below hp, List.foldl_append, ← hsource]
  exact (hl q hq).source _ (Place.node_mem_of_mem_below hp)

end ContentTree

end StaticSite
