import StaticSite.Content.Arena
import StaticSite.Proofs.Content.Places
import StaticSite.Proofs.Content.View

/-!
# What an arena holds

While nodes are added below a node, the ones above it lack their children. What is added is known
all the same: it is the rows of the places of the trees that are gathered there, behind the nodes
that the arena had (`run_gatherBelow`). So an arena is the rows of the places of a gathered tree
(`gather_eq`), and what it says of its nodes follows from what is known of places
(`gather_isSound`).
-/

namespace StaticSite

open ContentTree StaticSite.Path

/-- The node of a place in an arena. -/
def Place.row (p : Place) : ContentNode where
  name := p.node.name
  parent := p.parent
  source := p.node.source
  spec := p.node.spec
  children := Arena.listed (p.below.map Place.index)

/-- The arena with the nodes of a tree. -/
def ContentTree.arena (tree : ContentTree) : Arena :=
  tree.places.map Place.row

namespace Arena

variable {disk : Disk} {depth parent i : Nat} {source : Path} {arena : Arena} {node : ContentNode}
  {names : List String}

/-! ## Adding nodes -/

theorem setChildren_append (arena rest : Arena) (node : ContentNode)
    (children : Option (List Nat)) :
    (arena ++ node :: rest).setChildren arena.length children =
      arena ++ { node with children } :: rest := by
  induction arena with
  | nil => rfl
  | cons first arena ih => exact congrArg (first :: ·) ih

/-- Reads that add to an arena what is gathered below one of its nodes. -/
def AddsBelow (disk : Disk) (depth : Nat) (readBelow : Nat → Gathering (Option (List Nat))) :
    Prop :=
  ∀ (i : Nat) (arena : Arena) (node : ContentNode) (above : List String), arena[i]? = some node →
    (readBelow i).run arena =
      (ContentTree.gatherBelow disk node.source node.spec depth).map fun ts =>
      (listed ((placesBeside i above arena.length ts).map Place.index),
        arena ++ (placesBelow i above arena.length ts).map Place.row)

/-- A node is added with those below it behind it, and has them for its children. -/
theorem run_addNode {readBelow : Nat → Gathering (Option (List Nat))}
    (h : AddsBelow disk depth readBelow)
    (parent : Nat) (source : Path) (name : String) (arena : Arena) (above : List String) :
    (addNode disk parent source readBelow name).run arena =
      (readNode disk source depth name).map fun t =>
        (arena.length,
          arena ++ (t.placesFrom arena.length (some parent)
            (above ++ [t.name])).map Place.row) := by
  unfold addNode readNode
  simp only [StateT.run_bind, StateT.run_lift, bind_assoc, pure_bind]
  cases (itemAt disk (source.join name)).mapError ContentError.config with
  | error cause => rfl
  | ok spec =>
    let new : ContentNode := ⟨name, some parent, source.join name, spec, none⟩
    have hnew : (arena ++ [new])[arena.length]? = some new := by simp
    have hlength : (arena ++ [new]).length = arena.length + 1 := by simp
    show ((readBelow arena.length).run (arena ++ [new]) >>= _) =
      Except.map _ (ContentTree.gatherBelow disk (source.join name) spec depth >>= _)
    rw [h arena.length (arena ++ [new]) new (above ++ [name]) hnew, hlength]
    cases ContentTree.gatherBelow disk new.source new.spec depth with
    | error cause => rfl
    | ok ts =>
      show Except.ok (arena.length, setChildren arena.length _ (arena ++ [new] ++ _)) = _
      rw [List.append_assoc, List.singleton_append, setChildren_append]
      rfl

/-- What is added for a list of names is what is gathered for each of them. -/
theorem run_addNodes {readBelow : Nat → Gathering (Option (List Nat))}
    (h : AddsBelow disk depth readBelow)
    (parent : Nat) (source : Path) (names : List String) (arena : Arena) (above : List String) :
    (names.mapM (addNode disk parent source readBelow)).run arena =
      (names.mapM (readNode disk source depth)).map fun ts =>
        ((placesBeside parent above arena.length ts).map Place.index,
          arena ++ (placesBelow parent above arena.length ts).map Place.row) := by
  induction names generalizing arena with
  | nil =>
    show Except.ok _ = Except.ok _
    simp [placesBeside, placesBelow]
  | cons name rest ih =>
    rw [List.mapM_cons, List.mapM_cons, StateT.run_bind,
      run_addNode h parent source name arena above]
    cases readNode disk source depth name with
    | error cause => rfl
    | ok t =>
      have hlength : (arena ++ (t.placesFrom arena.length (some parent) (above ++ [t.name])).map
          Place.row).length = arena.length + t.size := by
        rw [List.length_append, List.length_map, length_placesFrom]
      show ((rest.mapM (addNode disk parent source readBelow)).run _ >>= _) =
        Except.map _ (rest.mapM (readNode disk source depth) >>= _)
      rw [ih, hlength]
      cases rest.mapM (readNode disk source depth) with
      | error cause => rfl
      | ok ts =>
        show Except.ok (_, _) = Except.ok (_, _)
        simp [placesBeside, placesBelow]

theorem run_gatherBelow (disk : Disk) (depth : Nat) :
    AddsBelow disk depth (gatherBelow disk depth) := by
  induction depth with
  | zero =>
    intro i arena node above _
    show Except.ok _ = Except.ok _
    simp [placesBeside, placesBelow, listed]
  | succ depth ih =>
    intro i arena node above hnode
    rw [gatherBelow, gatherBelow_succ, StateT.run_bind, StateT.run_get, pure_bind]
    dsimp only
    rw [hnode]
    dsimp only
    rw [StateT.run_bind, StateT.run_lift]
    cases (childNames disk node.source node.spec).mapError ContentError.io with
    | error cause => rfl
    | ok names =>
      show ((names.mapM (addNode disk i node.source (gatherBelow disk depth))).run arena >>= _) =
        Except.map _ (names.mapM (readNode disk node.source depth))
      rw [run_addNodes ih i node.source names arena above]
      cases names.mapM (readNode disk node.source depth) with
      | error cause => rfl
      | ok ts => rfl

/-- An arena holds the nodes of the tree that is gathered, and cannot be gathered where the tree
cannot. -/
theorem gather_eq (disk : Disk) (source : Path) :
    gather disk source = (ContentTree.gather disk source).map ContentTree.arena := by
  unfold gather ContentTree.gather
  split
  · let root : ContentNode := ⟨"", none, source, none, none⟩
    show ((gatherBelow disk (depthLimit disk) 0).run [root] >>= _) = _
    rw [run_gatherBelow disk (depthLimit disk) 0 [root] root [] rfl]
    cases ContentTree.gatherBelow disk root.source root.spec (depthLimit disk) with
    | error cause => rfl
    | ok ts => rfl
  · rfl

/-! ## The nodes of an arena -/

/-- The names that lead from the root to a node, read off from the nodes above it. -/
inductive IsPath (arena : Arena) : Nat → List String → Prop
  | root : IsPath arena 0 []
  | step {i parent : Nat} {node : ContentNode} {names : List String}
    (above : IsPath arena parent names)
    (here : arena[i]? = some node) (link : node.parent = some parent) :
    IsPath arena i (names ++ [node.name])

/-- What a gathered arena says of the content in a directory. -/
structure IsSound (arena : Arena) (source : Path) : Prop where
  /-- The root is the first node. -/
  root : ∃ node, arena[0]? = some node ∧ node.name = "" ∧ node.parent = none ∧ node.spec = none ∧
    node.source = source
  /-- Every other node stands behind its parent and is the directory of its name there. -/
  parent : ∀ (i : Nat) (node : ContentNode), 0 < i → arena[i]? = some node →
    ∃ j above, node.parent = some j ∧ j < i ∧ arena[j]? = some above ∧
      node.source = above.source.join node.name
  /-- A node is once among the children of its parent, and among those of no other node. -/
  once : ∀ (i : Nat) (node : ContentNode), arena[i]? = some node →
    ∀ j, (arena.children j).count i = if node.parent = some j then 1 else 0
  /-- No list of children is empty. -/
  nonempty : ∀ node ∈ arena, node.children ≠ some []
  /-- Children are nodes whose names ascend. -/
  sorted : ∀ i, ∃ nodes : List ContentNode, (arena.children i).map (arena[·]?) = nodes.map some ∧
    (nodes.map ContentNode.name).Pairwise (· < ·)
  /-- The names that lead to a node are the ones by which it is found, and there is one such chain
  of names for each node. -/
  find : ∀ (names : List String) (i : Nat), arena.find? names = some i ↔ IsPath arena i names
  path : ∀ i < arena.length,
    ∃ names, IsPath arena i names ∧ ∀ other, IsPath arena i other → other = names

section Sound

variable {tree : ContentTree} {p : Place}

theorem arena_getElem? :
    tree.arena[i]? = some node ↔ ∃ p ∈ tree.places, p.index = i ∧ p.row = node := by
  rw [ContentTree.arena, List.getElem?_map, Option.map_eq_some_iff]
  exact exists_congr fun p => by rw [getElem?_places, and_assoc]

theorem arena_getElem?_index (hp : p ∈ tree.places) : tree.arena[p.index]? = some p.row :=
  arena_getElem?.2 ⟨p, hp, rfl, rfl⟩

theorem getD_listed (nodes : List Nat) : (listed nodes).getD [] = nodes := by
  cases nodes <;> rfl

theorem children_index (hp : p ∈ tree.places) :
    tree.arena.children p.index = p.below.map Place.index := by
  rw [children, arena_getElem?_index hp]
  exact getD_listed _

theorem mem_places_of_below {q : Place} (hp : p ∈ tree.places) (hq : q ∈ p.below) :
    q ∈ tree.places :=
  mem_places_iff.2 (.inr ⟨p, hp, hq⟩)

theorem places_of_children {j : Nat} (h : i ∈ tree.arena.children j) :
    ∃ q ∈ tree.places, q.index = j ∧ ∃ p ∈ q.below, p.index = i := by
  cases hnode : tree.arena[j]? with
  | none =>
    rw [children, hnode] at h
    cases h
  | some node =>
    obtain ⟨q, hq, rfl, -⟩ := arena_getElem?.1 hnode
    rw [children_index hq] at h
    exact ⟨q, hq, rfl, List.mem_map.1 h⟩

theorem nodup_children (tree : ContentTree) (j : Nat) : (tree.arena.children j).Nodup := by
  cases hnode : tree.arena[j]? with
  | none =>
    rw [children, hnode]
    exact .nil
  | some node =>
    obtain ⟨q, hq, rfl, -⟩ := arena_getElem?.1 hnode
    rw [children_index hq]
    exact List.pairwise_map.2 ((index_placesBeside _ _ _ _).1.imp fun hlt => Nat.ne_of_lt hlt)

/-- A node is among the children of its parent only. -/
theorem mem_children_iff (hp : p ∈ tree.places) {j : Nat} :
    p.index ∈ tree.arena.children j ↔ p.parent = some j := by
  constructor
  · intro h
    obtain ⟨q, hq, rfl, c, hc, hi⟩ := places_of_children h
    rw [← eq_of_index_eq (mem_places_of_below hq hc) hp hi]
    exact Place.parent_of_mem_below hc
  · intro h
    rcases mem_places_iff.1 hp with rfl | ⟨q, hq, hpq⟩
    · cases h
    · cases (Place.parent_of_mem_below hpq).symm.trans h
      rw [children_index hq]
      exact List.mem_map_of_mem hpq

/-! ## Chains of names in an arena -/

theorem child?_index (hw : tree.WellNamed) (hp : p ∈ tree.places) {name : String} {c : Nat} :
    tree.arena.child? p.index name = some c ↔ ∃ q ∈ p.below, q.node.name = name ∧ q.index = c := by
  have hname {q : Place} (hq : q ∈ p.below) :
      (tree.arena[q.index]?).any (·.name == name) = true ↔ q.node.name = name := by
    rw [arena_getElem?_index (mem_places_of_below hp hq)]
    exact beq_iff_eq
  have hnodup : (p.below.map fun q => q.node.name).Nodup := by
    have := (find?_chain hw p hp).2.nodup
    rwa [← Place.node_below, List.map_map] at this
  rw [child?, children_index hp]
  constructor
  · intro h
    obtain ⟨q, hq, rfl⟩ := List.mem_map.1 (List.mem_of_find?_eq_some h)
    have hn : (tree.arena[q.index]?).any (·.name == name) = true := by simpa using List.find?_some h
    exact ⟨q, hq, (hname hq).1 hn, rfl⟩
  · rintro ⟨q, hq, hqn, rfl⟩
    refine find?_of_unique (List.mem_map_of_mem hq) ((hname hq).2 hqn) fun c hc hcn => ?_
    obtain ⟨u, hu, rfl⟩ := List.mem_map.1 hc
    rw [List.inj_on_of_nodup_map hnodup hu hq (((hname hu).1 hcn).trans hqn.symm)]

/-- A chain of names finds the node at the place of the chain. -/
theorem find?_iff_place (hw : tree.WellNamed) {names : List String} :
    tree.arena.find? names = some i ↔ ∃ p ∈ tree.places, p.chain = names ∧ p.index = i := by
  induction names using List.reverseRecOn generalizing i with
  | nil =>
    constructor
    · rintro ⟨⟩
      exact ⟨tree.rootPlace, mem_places_iff.2 (.inl rfl), rfl, rfl⟩
    · rintro ⟨p, hp, hchain, rfl⟩
      rcases mem_places_iff.1 hp with rfl | ⟨q, -, hq⟩
      · rfl
      · simp [Place.chain_of_mem_below hq] at hchain
  | append_singleton init n ih =>
    rw [find?, List.foldlM_append]
    show (tree.arena.find? init >>= fun j => _) = some i ↔ _
    rw [Option.bind_eq_bind, Option.bind_eq_some_iff]
    simp only [List.foldlM_cons, List.foldlM_nil, bind_pure]
    constructor
    · rintro ⟨j, hj, hc⟩
      obtain ⟨q, hq, rfl, rfl⟩ := ih.1 hj
      obtain ⟨p, hp, rfl, rfl⟩ := (child?_index hw hq).1 hc
      exact ⟨p, mem_places_of_below hq hp, Place.chain_of_mem_below hp, rfl⟩
    · rintro ⟨p, hp, hchain, rfl⟩
      rcases mem_places_iff.1 hp with rfl | ⟨q, hq, hpq⟩
      · simp [rootPlace] at hchain
      · rw [Place.chain_of_mem_below hpq] at hchain
        obtain ⟨hinit, hn⟩ := List.append_inj' hchain rfl
        exact ⟨q.index, ih.2 ⟨q, hq, hinit, rfl⟩,
          (child?_index hw hq).2 ⟨p, hpq, List.singleton_inj.1 hn, rfl⟩⟩

theorem isPath_iff_place {names : List String} :
    IsPath tree.arena i names ↔ ∃ p ∈ tree.places, p.chain = names ∧ p.index = i := by
  constructor
  · intro h
    induction h with
    | root => exact ⟨tree.rootPlace, mem_places_iff.2 (.inl rfl), rfl, rfl⟩
    | step above here link ih =>
      obtain ⟨q, hq, rfl, rfl⟩ := ih
      obtain ⟨p, hp, rfl, rfl⟩ := arena_getElem?.1 here
      have hbelow : p.index ∈ tree.arena.children q.index := (mem_children_iff hp).2 link
      rw [children_index hq] at hbelow
      obtain ⟨p', hp', hi⟩ := List.mem_map.1 hbelow
      obtain rfl := eq_of_index_eq (mem_places_of_below hq hp') hp hi
      exact ⟨p', hp, Place.chain_of_mem_below hp', rfl⟩
  · rintro ⟨p, hp, rfl, rfl⟩
    refine places_induction (motive := fun p => IsPath tree.arena p.index p.chain) .root
      (fun q hq ih p hp => ?_) p hp
    rw [Place.chain_of_mem_below hp]
    exact .step ih (arena_getElem?_index (mem_places_of_below hq hp)) (Place.parent_of_mem_below hp)

/-- The children of a node in an arena are those of its place. -/
theorem map_children (hp : p ∈ tree.places) : (tree.arena.children p.index).map (tree.arena[·]?) =
    (p.below.map Place.row).map some := by
  rw [children_index hp, List.map_map, List.map_map]
  exact List.map_congr_left fun q hq => arena_getElem?_index (mem_places_of_below hp hq)

/-- The arena of a tree in which each node has a name beside its siblings, which stand in the order
of their names. -/
theorem isSound_of_places (hw : tree.WellNamed) (hl : ∀ p ∈ tree.places, p.node.IsListed)
    (hname : tree.name = "") (hspec : tree.spec = none) : tree.arena.IsSound tree.source where
  root := by
    have hroot : tree.rootPlace ∈ tree.places := mem_places_iff.2 (.inl rfl)
    exact ⟨_, arena_getElem?_index hroot, hname, rfl, hspec, rfl⟩
  parent i node hi hnode := by
    obtain ⟨p, hp, rfl, rfl⟩ := arena_getElem?.1 hnode
    rcases mem_places_iff.1 hp with rfl | ⟨q, hq, hpq⟩
    · exact absurd hi (Nat.lt_irrefl 0)
    · exact ⟨q.index, q.row, Place.parent_of_mem_below hpq, Place.index_lt_of_mem_below hpq,
        arena_getElem?_index hq, (hl q hq).source _ (Place.node_mem_of_mem_below hpq)⟩
  once i node hnode j := by
    obtain ⟨p, hp, rfl, rfl⟩ := arena_getElem?.1 hnode
    rw [(nodup_children tree j).count]
    simp only [mem_children_iff hp]
    rfl
  nonempty node hnode := by
    obtain ⟨p, -, rfl⟩ := List.mem_map.1 hnode
    show listed (p.below.map Place.index) ≠ some []
    cases p.below.map Place.index <;> simp [listed]
  sorted i := by
    cases hnode : tree.arena[i]? with
    | none =>
      refine ⟨[], ?_, .nil⟩
      rw [children, hnode]
      rfl
    | some node =>
      obtain ⟨p, hp, rfl, -⟩ := arena_getElem?.1 hnode
      refine ⟨p.below.map Place.row, map_children hp, ?_⟩
      have hs := (hl p hp).sorted
      rw [IsSorted, ← Place.node_below] at hs
      rwa [List.map_map] at hs ⊢
  find names i := (find?_iff_place hw).trans isPath_iff_place.symm
  path i hi := by
    obtain ⟨node, hnode⟩ : ∃ node, tree.arena[i]? = some node := ⟨_, List.getElem?_eq_getElem hi⟩
    obtain ⟨p, hp, rfl, -⟩ := arena_getElem?.1 hnode
    refine ⟨p.chain, isPath_iff_place.2 ⟨p, hp, rfl, rfl⟩, fun other hother => ?_⟩
    obtain ⟨q, hq, rfl, hi⟩ := isPath_iff_place.1 hother
    rw [eq_of_index_eq hq hp hi]

end Sound

/-- The arena that is gathered from a disk holds the nodes of the gathered tree: its first node is
the root, without parent and specification; every other one stands behind its parent, in the
directory of its name there, and is exactly once in exactly one list of children, that of its
parent; lists of children are not empty and have ascending names; and each node is found by the
names on its path from the root, which is the only one. -/
theorem gather_isSound (hw : disk.WellFormed) (h : gather disk source = .ok arena) :
    arena.IsSound source ∧ ∃ tree, ContentTree.gather disk source = .ok tree ∧
    arena = tree.arena := by
  rw [gather_eq] at h
  obtain ⟨tree, htree, rfl⟩ := Except.map_eq_ok_iff.1 h
  obtain ⟨hnamed, hspec⟩ := gather_wellNamed hw htree
  obtain ⟨rfl, hname, hlisted⟩ := gather_listed hw htree
  exact ⟨isSound_of_places hnamed hlisted hname hspec, tree, htree, rfl⟩

/-- The root, the directories `blog` and `blog/post`, and `update`. -/
theorem gather_isSound_blog : ∃ arena, gather blogDisk ⟨"/c"⟩ = .ok arena ∧
    arena.map (fun node => (node.name, node.parent, node.children)) =
      [("", none, some [1, 3]), ("blog", some 0, some [2]), ("post", some 1, none),
        ("update", some 0, none)] ∧ arena.IsSound ⟨"/c"⟩ := by
  have hgathered : (gather blogDisk ⟨"/c"⟩).toOption.map (fun arena =>
      arena.map fun node => (node.name, node.parent, node.children)) =
      some [("", none, some [1, 3]), ("blog", some 0, some [2]), ("post", some 1, none),
        ("update", some 0, none)] := by
    decide +kernel
  obtain ⟨arena, harena, hrows⟩ := Option.map_eq_some_iff.1 hgathered
  have harena := Except.toOption_eq_some_iff.1 harena
  exact ⟨arena, harena, hrows, (gather_isSound blogDisk_wellFormed harena).1⟩

end Arena

end StaticSite
