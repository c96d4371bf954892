import Mathlib.Data.List.Sort
import StaticSite.Sorting

/-!
# Sorted lists and steps in another order

Sorting by insertion is the library's insertion sort (`sortBy_eq`).

A list of steps is run one after the other. Where two steps that do not have to keep their order can
change places, a run of a list gives a run of every other list of the same steps in which those that
have to keep their order do (`Reorderable.reorder`): what the steps give is the same, and so is
where the runs end as far as a relation between states tells.
-/

namespace StaticSite

/-! ## Sorting -/

section Sorting

variable {α : Type} {before : α → α → Bool}

theorem sortBy_eq (before : α → α → Bool) (items : List α) :
    sortBy before items = items.insertionSort (before · · = true) := by
  have insert (a : α) (sorted : List α) :
      insertSorted before a sorted = sorted.orderedInsert (before · · = true) a := by
    induction sorted with
    | nil => rfl
    | cons b rest ih => rw [insertSorted, ih, List.orderedInsert_cons]
  induction items with
  | nil => rfl
  | cons a rest ih =>
    rw [List.insertionSort_cons, ← ih, ← insert]
    rfl

theorem perm_sortBy (before : α → α → Bool) (items : List α) :
    (sortBy before items).Perm items := by
  rw [sortBy_eq]
  exact List.perm_insertionSort _ items

theorem mem_sortBy {a : α} {items : List α} : a ∈ sortBy before items ↔ a ∈ items :=
  (perm_sortBy before items).mem_iff

theorem pairwise_sortBy
    (trans : ∀ {a b c}, before a b = true → before b c = true → before a c = true)
    (total : ∀ a b, (before a b || before b a) = true) (items : List α) :
    (sortBy before items).Pairwise fun a b => before a b = true := by
  rw [sortBy_eq]
  have : Std.Total fun a b => before a b = true := ⟨fun a b => by simpa using total a b⟩
  have : IsTrans α fun a b => before a b = true := ⟨fun _ _ _ => trans⟩
  exact List.pairwise_insertionSort _ items

end Sorting

/-! ## Steps -/

section Steps

variable {ι α σ : Type} {step : ι → σ → α → σ → Prop} {s s' t u : σ} {i : ι}
  {first rest l o : List ι} {as : List α}

/-- The runs of a list of steps: where they start, what the steps give, and where they end. -/
inductive Runs (step : ι → σ → α → σ → Prop) : σ → List ι → List α → σ → Prop
  | nil (s : σ) : Runs step s [] [] s
  | cons {s t u : σ} {i : ι} {a : α} {rest : List ι} {as : List α} (first : step i s a t)
    (tail : Runs step t rest as u) : Runs step s (i :: rest) (a :: as) u

/-- Steps between valid states of which a first one and a second one can change places if each of
them may stand before the other one. -/
structure Reorderable (step : ι → σ → α → σ → Prop) (valid : σ → Prop) (sim : σ → σ → Prop)
    (before : ι → ι → Prop) : Prop where
  refl {s : σ} : valid s → sim s s
  trans {s t u : σ} : sim s t → sim t u → sim s u
  keeps {s t : σ} {i : ι} {a : α} : valid s → step i s a t → valid t
  respects {s s' t : σ} {i : ι} {a : α} : sim s s' → step i s a t → ∃ t', step i s' a t' ∧ sim t t'
  swap {s t u : σ} {i j : ι} {a b : α} : valid s → before i j → before j i → step i s a t →
    step j t b u → ∃ t' u', step j s b t' ∧ step i t' a u' ∧ sim u u'

namespace Reorderable

variable {valid : σ → Prop} {sim : σ → σ → Prop} {before : ι → ι → Prop}

theorem respects_runs (h : Reorderable step valid sim before) (hs : sim s s')
    (hr : Runs step s l as t) : ∃ t', Runs step s' l as t' ∧ sim t t' := by
  induction hr generalizing s' with
  | nil s => exact ⟨s', .nil s', hs⟩
  | cons first tail ih =>
    obtain ⟨m, hm, hsim⟩ := h.respects hs first
    obtain ⟨t', ht, hsim'⟩ := ih hsim
    exact ⟨t', .cons hm ht, hsim'⟩

/-- A step that may stand before all those that were run before it can be run first. -/
theorem run_first (h : Reorderable step valid sim before) (hv : valid s)
    (hb : ∀ j ∈ first, before i j ∧ before j i) (hr : Runs step s (first ++ i :: rest) as u) :
    ∃ bs u', Runs step s (i :: (first ++ rest)) bs u' ∧ bs.Perm as ∧ sim u u' := by
  induction first generalizing s as with
  | nil =>
    cases hr with
    | cons head tail =>
      obtain ⟨u', ht, hsim⟩ := h.respects_runs (h.refl (h.keeps hv head)) tail
      exact ⟨_, u', .cons head ht, .refl _, hsim⟩
  | cons j first ih =>
    cases hr with
    | @cons _ t _ _ b _ as head tail =>
      obtain ⟨bs, u', hrun, hperm, hsim⟩ :=
        ih (h.keeps hv head) (fun k hk => hb k (List.mem_cons_of_mem j hk)) tail
      cases hrun with
      | @cons _ m _ _ a _ bs second tail =>
        obtain ⟨hij, hji⟩ := hb j List.mem_cons_self
        obtain ⟨t', m', hfirst, hsecond, hm⟩ := h.swap hv hji hij head second
        obtain ⟨u'', htail, hu⟩ := h.respects_runs hm tail
        refine ⟨a :: b :: bs, u'', .cons hfirst (.cons hsecond htail), ?_, h.trans hsim hu⟩
        exact (List.Perm.swap b a bs).trans (hperm.cons b)

/-- A run of a list gives a run of each list of the same steps in which steps that have to keep
their order do. -/
theorem reorder (h : Reorderable step valid sim before) (hv : valid s) (hr : Runs step s l as u)
    (hl : l.Pairwise before) (ho : o.Pairwise before) (hp : o.Perm l) :
    ∃ bs u', Runs step s o bs u' ∧ bs.Perm as ∧ sim u u' := by
  induction o generalizing s l as u with
  | nil =>
    obtain rfl := List.nil_perm.1 hp
    obtain ⟨u', ht, hsim⟩ := h.respects_runs (h.refl hv) hr
    exact ⟨as, u', ht, .refl _, hsim⟩
  | cons i o ih =>
    obtain ⟨hi, ho⟩ := List.pairwise_cons.1 ho
    obtain ⟨first, rest, rfl⟩ := List.append_of_mem (hp.subset List.mem_cons_self)
    have hrest : o.Perm (first ++ rest) :=
      (List.perm_cons i).1 (hp.trans List.perm_middle)
    -- what stood before the first step of the other list may stand behind it there
    have hb : ∀ j ∈ first, before i j ∧ before j i := fun j hj =>
      ⟨hi j (hrest.symm.subset (List.mem_append_left _ hj)),
        (List.pairwise_append.1 hl).2.2 j hj i List.mem_cons_self⟩
    obtain ⟨bs, u', hrun, hperm, hsim⟩ := h.run_first hv hb hr
    have hl' : (first ++ rest).Pairwise before :=
      hl.sublist ((List.sublist_cons_self i rest).append_left first)
    cases hrun with
    | cons head tail =>
      obtain ⟨cs, u'', htail, hperm', hsim'⟩ := ih (h.keeps hv head) tail hl' ho hrest
      exact ⟨_, u'', .cons head htail, (hperm'.cons _).trans hperm, h.trans hsim hsim'⟩

end Reorderable

end Steps

end StaticSite
