import Mathlib.Data.List.Perm.Basic
import Mathlib.Logic.Relation
import StaticSite.Proofs.Task
import StaticSite.Template.Run
import StaticSite.Template.Sort

/-!
# Sorting by a comparison that may fail

A run by comparisons of items (`Decides`) either succeeds after comparisons that all did, or is over
with the first that fails, whose reason and state it has. Such are insertion, merging and sorting,
and what they yield arranges the items by whatever relations the answers stand for (`Arranges`): the
same items, in order, with those of no order between them as they were (`Decides.sortBy`). Nothing
is asked of the answers for the items to be the same, since they stand for the relations that hold
always.
-/

namespace StaticSite.Template

variable {α β γ : Type}

/-! ## Arrangements -/

/-- The same items, of which those that are not apart stand as they did. -/
structure Rearranges (lt : α → α → Prop) (xs ys : List α) : Prop where
  perm : ys.Perm xs
  stable : ∀ p : α → Bool, (∀ a b, p a = true → p b = true → ¬ lt a b) → ys.filter p = xs.filter p

/-- The same items in an order. -/
structure Arranges (le lt : α → α → Prop) (xs ys : List α) : Prop extends Rearranges lt xs ys where
  sorted : ys.Pairwise le

/-- Relations that the answers of a comparison stand for: a strict one for the answer that the first
item comes before the second, the other one for the answer that it does not. -/
structure Agree (le lt : α → α → Prop) : Prop where
  trans : ∀ a b c, le a b → le b c → le a c
  le_of_lt : ∀ a b, lt a b → le a b
  lt_of_lt_of_le : ∀ a b c, lt a b → le b c → lt a c

section Arrangements

variable {le lt : α → α → Prop} {x y : α} {xs ys zs : List α}

theorem Rearranges.refl (lt : α → α → Prop) (xs : List α) : Rearranges lt xs xs :=
  ⟨.refl _, fun _ _ => rfl⟩

namespace Arranges

theorem of_sorted (h : xs.Pairwise le) : Arranges le lt xs xs :=
  ⟨.refl lt xs, h⟩

/-- An item that comes before all others may be put in front of their arrangement. -/
theorem cons (h : Arranges le lt xs ys) (first : ∀ z ∈ xs, le x z) :
    Arranges le lt (x :: xs) (x :: ys) where
  perm := h.perm.cons x
  sorted := List.pairwise_cons.2 ⟨fun z hz => first z (h.perm.mem_iff.1 hz), h.sorted⟩
  stable p hp := by rw [List.filter_cons, List.filter_cons, h.stable p hp]

/-- An item that comes before all others, and is apart from those that it passes, may be put in
front of their arrangement. -/
theorem cons_append (h : Arranges le lt (xs ++ zs) ys) (first : ∀ z ∈ xs ++ zs, le y z)
    (passed : ∀ z ∈ xs, lt y z) : Arranges le lt (xs ++ y :: zs) (y :: ys) where
  perm := (h.perm.cons y).trans List.perm_middle.symm
  sorted := List.pairwise_cons.2 ⟨fun z hz => first z (h.perm.mem_iff.1 hz), h.sorted⟩
  stable p hp := by
    rw [List.filter_append, List.filter_cons, List.filter_cons, h.stable p hp, List.filter_append]
    split
    · rename_i hy
      -- what passes the test with it was not passed by it
      have none : xs.filter p = [] :=
        List.filter_eq_nil_iff.2 fun z hz hpz => hp y z hy hpz (passed z hz)
      rw [none]
      rfl
    · rfl

theorem reverse (h : Arranges (flip le) (flip lt) xs.reverse ys) :
    Arranges le lt xs ys.reverse where
  perm := (List.reverse_perm ys).trans (h.perm.trans (List.reverse_perm xs))
  sorted := List.pairwise_reverse.2 h.sorted
  stable p hp := by
    rw [List.filter_reverse, h.stable p fun a b ha hb => hp b a hb ha, ← List.filter_reverse,
      List.reverse_reverse]

theorem trans_append {us vs : List α} (h : Arranges le lt (us ++ vs) ys) (hu : Rearranges lt xs us)
    (hv : Rearranges lt zs vs) : Arranges le lt (xs ++ zs) ys where
  perm := h.perm.trans (hu.perm.append hv.perm)
  sorted := h.sorted
  stable p hp := by
    rw [h.stable p hp, List.filter_append, List.filter_append, hu.stable p hp, hv.stable p hp]

end Arranges

end Arrangements

/-! ## Runs by comparisons -/

section Comparisons

variable (ask : α → α → Run β) (items : List α)

/-- A successful comparison of two items leads from one state to another. -/
def Compared (s t : State) : Prop :=
  ∃ a ∈ items, ∃ b ∈ items, ∃ answer, (ask a b).run.run s = (.ok answer, t)

/-- Any number of successful comparisons of items. -/
abbrev Consulted : State → State → Prop :=
  Relation.ReflTransGen (Compared ask items)

/-- A comparison of two items fails. -/
def ComparisonFails (s : State) (fault : Fault) (t : State) : Prop :=
  ∃ a ∈ items, ∃ b ∈ items, (ask a b).run.run s = (.error fault, t)

end Comparisons

section Runs

variable (less : α → α → Run Bool) (items : List α) (inv : State → Prop)

/-- From states with the invariant a run yields what it should after successful comparisons, or ends
with the first comparison that fails. -/
def Decides (x : Run γ) (post : γ → Prop) : Prop :=
  ∀ s, inv s →
    (∃ c t, x.run.run s = (.ok c, t) ∧ Consulted less items s t ∧ inv t ∧ post c) ∨
    ∃ t fault u, Consulted less items s t ∧ inv t ∧ ComparisonFails less items t fault u ∧
      x.run.run s = (.error fault, u)

/-- While the invariant holds, the answers on items stand for the relations. -/
structure Answers (le lt : α → α → Prop) : Prop extends Agree le lt where
  sound : ∀ a ∈ items, ∀ b ∈ items, ∀ s t answer, inv s → (less a b).run.run s = (.ok answer, t) →
    inv t ∧ if answer = true then lt a b else le b a

namespace Decides

variable {less items inv} {x : Run γ} {post : γ → Prop}

theorem pure {c : γ} (h : post c) : Decides less items inv (Pure.pure c : Run γ) post :=
  fun s hs => .inl ⟨c, s, rfl, .refl, hs, h⟩

theorem bind {δ : Type} {f : γ → Run δ} {goal : δ → Prop} (hx : Decides less items inv x post)
    (hf : ∀ c, post c → Decides less items inv (f c) goal) :
    Decides less items inv (x >>= f) goal := by
  intro s hs
  rw [Task.run_bind]
  obtain ⟨c, t, run, consulted, ht, hc⟩ | ⟨t, fault, u, consulted, ht, fails, run⟩ := hx s hs
  · rw [run]
    obtain ⟨d, u, run', more, rest⟩ | ⟨u, fault, v, more, rest⟩ := hf c hc t ht
    · exact .inl ⟨d, u, run', consulted.trans more, rest⟩
    · exact .inr ⟨u, fault, v, consulted.trans more, rest⟩
  · rw [run]
    exact .inr ⟨t, fault, u, consulted, ht, fails, rfl⟩

theorem ite {c : Prop} [Decidable c] {y : Run γ} (hx : c → Decides less items inv x post)
    (hy : ¬ c → Decides less items inv y post) :
    Decides less items inv (if c then x else y) post := by
  split
  · rename_i h
    exact hx h
  · rename_i h
    exact hy h

theorem mono {goal : γ → Prop} (h : Decides less items inv x post) (weaker : ∀ c, post c → goal c) :
    Decides less items inv x goal := by
  intro s hs
  obtain ⟨c, t, run, consulted, ht, hc⟩ | failed := h s hs
  · exact .inl ⟨c, t, run, consulted, ht, weaker c hc⟩
  · exact .inr failed

variable {le lt : α → α → Prop} (h : Answers less items inv le lt)

include h

theorem compare {a b : α} (ha : a ∈ items) (hb : b ∈ items) :
    Decides less items inv (less a b) fun answer => if answer = true then lt a b else le b a := by
  intro s hs
  rcases run : (less a b).run.run s with ⟨fault | answer, t⟩
  · exact .inr ⟨s, fault, t, .refl, hs, ⟨a, ha, b, hb, run⟩, rfl⟩
  · have compared : Compared less items s t := ⟨a, ha, b, hb, answer, run⟩
    exact .inl ⟨answer, t, rfl, .single compared, h.sound a ha b hb s t answer hs run⟩

/-- The sorted list is held in reverse, so that its order is the converse one. -/
theorem insertBack {x : α} (hx : x ∈ items) : ∀ sorted : List α, (∀ y ∈ sorted, y ∈ items) →
    sorted.Pairwise (flip le) →
    Decides less items inv (insertBack less x sorted) (Arranges (flip le) (flip lt) (x :: sorted))
  | [], _, _ => pure (.of_sorted (List.pairwise_singleton _ x))
  | y :: rest, among, hsorted => by
    obtain ⟨hy, hrest⟩ := List.forall_mem_cons.1 among
    obtain ⟨below, hsorted'⟩ := List.pairwise_cons.1 hsorted
    refine bind (compare h hx hy) fun answer relation => ite (fun before => ?_) fun after => ?_
    · rw [if_pos before] at relation
      refine bind (insertBack hx rest hrest hsorted') fun out inserted => pure ?_
      have inserted : Arranges (flip le) (flip lt) ([x] ++ rest) out := inserted
      have passed : ∀ z ∈ [x], flip lt y z := List.forall_mem_singleton.2 relation
      have first : ∀ z ∈ [x] ++ rest, flip le y z :=
        List.forall_mem_cons.2 ⟨h.le_of_lt x y relation, below⟩
      have arranged := inserted.cons_append first passed
      exact arranged
    · rw [if_neg after] at relation
      refine pure (.of_sorted (List.pairwise_cons.2 ⟨?_, hsorted⟩))
      refine List.forall_mem_cons.2 ⟨relation, fun z hz => ?_⟩
      exact h.trans z y x (below z hz) relation

theorem insertAll : ∀ (sorted xs : List α), (∀ y ∈ sorted, y ∈ items) → (∀ x ∈ xs, x ∈ items) →
    sorted.Pairwise (flip le) →
    Decides less items inv (insertAll less sorted xs)
      (Arranges (flip le) (flip lt) (xs.reverse ++ sorted))
  | sorted, [], _, _, hsorted => pure (.of_sorted hsorted)
  | sorted, x :: rest, among, hxs, hsorted => by
    obtain ⟨hx, hrest⟩ := List.forall_mem_cons.1 hxs
    refine bind (insertBack h hx sorted among hsorted) fun next inserted => ?_
    have among' : ∀ y ∈ next, y ∈ items := fun y hy =>
      List.forall_mem_cons.2 ⟨hx, among⟩ y (inserted.perm.mem_iff.1 hy)
    refine mono (insertAll next rest among' hrest inserted.sorted) fun out arranged => ?_
    rw [List.reverse_cons, List.append_assoc]
    exact arranged.trans_append (.refl _ _) inserted.toRearranges

/-- The fuel lasts until one of the lists is empty. -/
theorem mergeBy : ∀ (fuel : Nat) (xs ys : List α), xs.length + ys.length ≤ fuel →
    (∀ x ∈ xs, x ∈ items) → (∀ y ∈ ys, y ∈ items) → xs.Pairwise le → ys.Pairwise le →
    Decides less items inv (mergeBy less fuel xs ys) (Arranges le lt (xs ++ ys))
  | 0, [], ys, _, _, _, _, hys => pure (.of_sorted hys)
  | 0, _ :: _, _, enough, _, _, _, _ => by simp at enough
  | _ + 1, [], ys, _, _, _, _, hys => pure (.of_sorted hys)
  | _ + 1, x :: xs, [], _, _, _, hxs, _ => pure (by rw [List.append_nil]; exact .of_sorted hxs)
  | fuel + 1, x :: xs, y :: ys, enough, amongX, amongY, hxs, hys => by
    obtain ⟨hx, amongX'⟩ := List.forall_mem_cons.1 amongX
    obtain ⟨hy, amongY'⟩ := List.forall_mem_cons.1 amongY
    obtain ⟨belowX, hxs'⟩ := List.pairwise_cons.1 hxs
    obtain ⟨belowY, hys'⟩ := List.pairwise_cons.1 hys
    simp only [List.length_cons] at enough
    refine bind (compare h hy hx) fun answer relation => ite (fun before => ?_) fun after => ?_
    · rw [if_pos before] at relation
      have passed : ∀ z ∈ x :: xs, lt y z := List.forall_mem_cons.2
        ⟨relation, fun z hz => h.lt_of_lt_of_le y x z relation (belowX z hz)⟩
      have first : ∀ z ∈ x :: xs ++ ys, le y z := List.forall_mem_append.2
        ⟨fun z hz => h.le_of_lt y z (passed z hz), belowY⟩
      refine bind (mergeBy fuel (x :: xs) ys (by simp only [List.length_cons]; omega) amongX amongY'
        hxs hys') fun out merged => pure ?_
      exact .cons_append merged first passed
    · rw [if_neg after] at relation
      have first : ∀ z ∈ xs ++ y :: ys, le x z := List.forall_mem_append.2
        ⟨belowX, List.forall_mem_cons.2
          ⟨relation, fun z hz => h.trans x y z relation (belowY z hz)⟩⟩
      refine bind (mergeBy fuel xs (y :: ys) (by simp only [List.length_cons]; omega) amongX' amongY
        hxs' hys) fun out merged => pure ?_
      exact .cons merged first

theorem sortWithin : ∀ (fuel : Nat) (xs : List α), xs.length < fuel → (∀ x ∈ xs, x ∈ items) →
    Decides less items inv (sortWithin less fuel xs) (Arranges le lt xs)
  | 0, _, enough, _ => absurd enough (Nat.not_lt_zero _)
  | fuel + 1, xs, enough, among => by
    refine ite (fun short => ?_) fun long => ?_
    · refine bind (insertAll h [] xs (fun _ hy => nomatch hy) among .nil) fun out inserted =>
        pure ?_
      rw [List.append_nil] at inserted
      exact inserted.reverse
    · have halves := List.take_append_drop (xs.length / 2) xs
      rw [insertionLimit] at long
      refine bind (sortWithin fuel (xs.take (xs.length / 2)) (by rw [List.length_take]; omega)
        fun x hx => among x (List.mem_of_mem_take hx)) fun left hleft => ?_
      refine bind (sortWithin fuel (xs.drop (xs.length / 2)) (by rw [List.length_drop]; omega)
        fun x hx => among x (List.mem_of_mem_drop hx)) fun right hright => ?_
      have lengths : left.length + right.length = xs.length := by
        rw [hleft.perm.length_eq, hright.perm.length_eq, ← List.length_append, halves]
      refine mono (mergeBy h xs.length left right (Nat.le_of_eq lengths)
        (fun x hx => among x (List.mem_of_mem_take (hleft.perm.mem_iff.1 hx)))
        (fun x hx => among x (List.mem_of_mem_drop (hright.perm.mem_iff.1 hx)))
        hleft.sorted hright.sorted) fun out merged => ?_
      have arranged := merged.trans_append hleft.toRearranges hright.toRearranges
      rwa [halves] at arranged

theorem sortBy : Decides less items inv (sortBy less items) (Arranges le lt items) :=
  sortWithin h (items.length + 1) items (Nat.lt_succ_self _) fun _ hx => hx

end Decides

end Runs

end StaticSite.Template
