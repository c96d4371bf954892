import StaticSite.Proofs.Template.Sorting
import StaticSite.Template.Eval

/-!
# Sorting arrays

Arrays are sorted by a callback, which is code of the page, or by the texts of their items. A sort
that notes the first failing call, takes its items for equal from then on and fails in the end is
the sort that stops there (`reporting_sortBy`). `sort_arranges` says what both kinds of sorting
yield: the same items whatever the callback answers, and a stable sort of them if its answers are
those of an order.
-/

namespace StaticSite.Template

variable {α β γ : Type}

/-! ## Noting failures -/

/-- A run that notes a failure and goes on. -/
abbrev Noting := StateT (Option Fault) (StateM State)

/-- Compares two items unless an earlier comparison has failed, after which none comes before
another. -/
def noting (less : α → α → Run Bool) (a b : α) : Noting Bool := fun noted s =>
  match noted with
  | some fault => ((false, some fault), s)
  | none =>
    match (less a b).run.run s with
    | (.ok answer, t) => ((answer, none), t)
    | (.error fault, t) => ((false, some fault), t)

/-- Fails in the end with what was noted. -/
def reporting (y : Noting β) : Run β :=
  ExceptT.mk fun s =>
    match (y.run none).run s with
    | ((b, none), t) => (.ok b, t)
    | ((_, some fault), t) => (.error fault, t)

/-- The first run does as the second one does up to a failure, and nothing after it. -/
structure Notes (y : Noting β) (x : Run β) : Prop where
  ok : ∀ s b t, x.run.run s = (.ok b, t) → (y.run none).run s = ((b, none), t)
  error : ∀ s fault t, x.run.run s = (.error fault, t) →
    ∃ b, (y.run none).run s = ((b, some fault), t)
  noted : ∀ fault s, ∃ b, (y.run (some fault)).run s = ((b, some fault), s)

namespace Notes

theorem run_bind (y : Noting β) (g : β → Noting γ) (noted : Option Fault) (s : State) :
    ((y >>= g).run noted).run s =
      (((g ((y.run noted).run s).1.1).run ((y.run noted).run s).1.2).run ((y.run noted).run s).2) :=
  rfl

theorem pure (b : β) : Notes (Pure.pure b) (Pure.pure b) where
  ok _ _ _ h := by
    cases h
    rfl
  error _ _ _ h := nomatch h
  noted _ _ := ⟨b, rfl⟩

theorem bind {y : Noting β} {x : Run β} {g : β → Noting γ} {f : β → Run γ} (h : Notes y x)
    (hf : ∀ b, Notes (g b) (f b)) : Notes (y >>= g) (x >>= f) where
  ok s c u run := by
    obtain ⟨b, t, first, rest⟩ := Task.run_bind_eq_ok.1 run
    rw [run_bind, h.ok s b t first]
    exact (hf b).ok t c u rest
  error s fault u run := by
    rw [run_bind]
    rw [Task.run_bind] at run
    rcases first : x.run.run s with ⟨_ | b, t⟩
    · rw [first] at run
      cases run
      obtain ⟨b, noted⟩ := h.error s fault u first
      rw [noted]
      exact (hf b).noted fault u
    · rw [first] at run
      rw [h.ok s b t first]
      exact (hf b).error t fault u run
  noted fault s := by
    obtain ⟨b, kept⟩ := h.noted fault s
    rw [run_bind, kept]
    exact (hf b).noted fault s

theorem ite {c : Prop} [Decidable c] {y y' : Noting β} {x x' : Run β} (h : Notes y x)
    (h' : Notes y' x') : Notes (if c then y else y') (if c then x else x') := by
  split
  · exact h
  · exact h'

theorem noting (less : α → α → Run Bool) (a b : α) : Notes (noting less a b) (less a b) where
  ok s answer t run := by
    change Template.noting less a b none s = _
    rw [Template.noting, run]
  error s fault t run := by
    refine ⟨false, ?_⟩
    change Template.noting less a b none s = _
    rw [Template.noting, run]
  noted fault s := ⟨false, rfl⟩

variable (less : α → α → Run Bool)

theorem insertBack (x : α) : ∀ sorted,
    Notes (insertBack (Template.noting less) x sorted) (insertBack less x sorted)
  | [] => pure _
  | y :: rest => bind (noting less x y) fun _ =>
      ite (bind (insertBack x rest) fun _ => pure _) (pure _)

theorem insertAll : ∀ sorted xs,
    Notes (insertAll (Template.noting less) sorted xs) (insertAll less sorted xs)
  | _, [] => pure _
  | sorted, x :: rest => bind (insertBack less x sorted) fun next => insertAll next rest

theorem mergeBy : ∀ fuel xs ys,
    Notes (mergeBy (Template.noting less) fuel xs ys) (mergeBy less fuel xs ys)
  | 0, _, _ => pure _
  | _ + 1, [], _ => pure _
  | _ + 1, _ :: _, [] => pure _
  | fuel + 1, x :: xs, y :: ys => bind (noting less y x) fun _ =>
      ite (bind (mergeBy fuel (x :: xs) ys) fun _ => pure _)
        (bind (mergeBy fuel xs (y :: ys)) fun _ => pure _)

theorem sortWithin : ∀ fuel xs,
    Notes (sortWithin (Template.noting less) fuel xs) (sortWithin less fuel xs)
  | 0, _ => pure _
  | fuel + 1, xs => ite (bind (insertAll less [] xs) fun _ => pure _) <|
      bind (sortWithin fuel _) fun _ => bind (sortWithin fuel _) fun _ => mergeBy less _ _ _

theorem run_reporting (y : Noting β) (s : State) : (reporting y).run.run s =
    match (y.run none).run s with
    | ((b, none), t) => (.ok b, t)
    | ((_, some fault), t) => (.error fault, t) := rfl

theorem reporting_eq {y : Noting β} {x : Run β} (h : Notes y x) : reporting y = x := by
  funext s
  change (reporting y).run.run s = x.run.run s
  rw [run_reporting]
  rcases run : x.run.run s with ⟨fault | b, t⟩
  · obtain ⟨b, noted⟩ := h.error s fault t run
    rw [noted]
  · rw [h.ok s b t run]

end Notes

/-- To note the first failure and go on is to stop there. -/
theorem reporting_sortBy (less : α → α → Run Bool) (xs : List α) :
    reporting (sortBy (noting less) xs) = sortBy less xs :=
  (Notes.sortWithin less _ _).reporting_eq

/-! ## Orders of items -/

/-- The same items in an order, of which those that the order does not tell apart stand as they
did. -/
structure StablySorts (le : α → α → Prop) (xs ys : List α) : Prop where
  perm : ys.Perm xs
  sorted : ys.Pairwise le
  stable : ∀ p : α → Bool, (∀ a ∈ xs, ∀ b ∈ xs, p a = true → p b = true → le a b) →
    ys.filter p = xs.filter p

/-- Calls on items succeed and keep the invariant, and the results are negative for those pairs of
which the first comes before the second in a total preorder. -/
structure OrdersBy (call : List Value → Run Value) (items : List Value) (inv : State → Prop)
    (le : Value → Value → Prop) : Prop where
  total : ∀ a ∈ items, ∀ b ∈ items, le a b ∨ le b a
  trans : ∀ a ∈ items, ∀ b ∈ items, ∀ c ∈ items, le a b → le b c → le a c
  answers : ∀ a ∈ items, ∀ b ∈ items, ∀ s, inv s →
    ∃ v t, (call [a, b]).run.run s = (.ok v, t) ∧ inv t ∧ (v.toNumber < 0.0 ↔ ¬ le b a)

/-- A preorder of some items in which all else comes after them. -/
def within (items : List α) (le : α → α → Prop) (a b : α) : Prop :=
  b ∉ items ∨ a ∈ items ∧ le a b

section Orders

variable {items : List α} {le : α → α → Prop} {a b : α}

theorem within_iff (ha : a ∈ items) (hb : b ∈ items) : within items le a b ↔ le a b := by
  simp [within, ha, hb]

theorem within_total (total : ∀ a ∈ items, ∀ b ∈ items, le a b ∨ le b a) (a b : α) :
    within items le a b ∨ within items le b a := by
  by_cases ha : a ∈ items
  · by_cases hb : b ∈ items
    · rw [within_iff ha hb, within_iff hb ha]
      exact total a ha b hb
    · exact .inl (.inl hb)
  · exact .inr (.inl ha)

theorem within_trans (trans : ∀ a ∈ items, ∀ b ∈ items, ∀ c ∈ items, le a b → le b c → le a c)
    (a b c : α) : within items le a b → within items le b c → within items le a c := by
  rintro hab (hc | ⟨hb, hbc⟩)
  · exact .inl hc
  · obtain hb' | ⟨ha, hab⟩ := hab
    · exact absurd hb hb'
    · by_cases hc : c ∈ items
      · exact .inr ⟨ha, trans a ha b hb c hc hab hbc⟩
      · exact .inl hc

/-- In a total preorder what does not come after comes before. -/
theorem Agree.of_total (total : ∀ a b, le a b ∨ le b a)
    (trans : ∀ a b c, le a b → le b c → le a c) :
    Agree le fun a b => ¬ le b a where
  trans := trans
  le_of_lt a b h := (total a b).resolve_right h
  lt_of_lt_of_le a b c h hbc hca := h (trans b c a hbc hca)

open scoped Classical in
theorem StablySorts.of_arranges {ys : List α}
    (h : Arranges (within items le) (fun a b => ¬ within items le b a) items ys) :
    StablySorts le items ys where
  perm := h.perm
  sorted := h.sorted.imp_of_mem fun ha hb hab =>
    (within_iff (h.perm.mem_iff.1 ha) (h.perm.mem_iff.1 hb)).1 hab
  stable p hp := by
    -- a test of all values that passes only items
    have among {zs : List α} (hz : ∀ z ∈ zs, z ∈ items) :
        zs.filter (fun z => p z && decide (z ∈ items)) = zs.filter p :=
      List.filter_congr fun z h => by rw [decide_eq_true (hz z h), Bool.and_true]
    rw [← among fun z hz => h.perm.mem_iff.1 hz, ← among fun z hz => hz]
    refine h.stable _ fun a b ha hb apart => apart ?_
    rw [Bool.and_eq_true, decide_eq_true_iff] at ha hb
    rw [within_iff hb.2 ha.2]
    exact hp b hb.2 a ha.2 hb.1 ha.1

end Orders

/-! ## Sorting by a callback -/

section Callbacks

variable {call : List Value → Run Value} {items : List Value}

/-- What a call of a callback on two items yields. -/
abbrev onPair (call : List Value → Run Value) (a b : Value) : Run Value :=
  call [a, b]

theorem callbackLess_eq_ok {a b : Value} {s t : State} {answer : Bool} :
    (callbackLess call a b).run.run s = (.ok answer, t) ↔
      ∃ v, (onPair call a b).run.run s = (.ok v, t) ∧ answer = decide (v.toNumber < 0.0) := by
  rw [callbackLess, Task.run_bind_eq_ok]
  constructor
  · rintro ⟨v, u, run, answered⟩
    cases answered
    exact ⟨v, run, rfl⟩
  · rintro ⟨v, run, rfl⟩
    exact ⟨v, t, run, rfl⟩

theorem callbackLess_eq_error {a b : Value} {s t : State} {fault : Fault} :
    (callbackLess call a b).run.run s = (.error fault, t) ↔
      (onPair call a b).run.run s = (.error fault, t) := by
  rw [callbackLess, Task.run_bind]
  rcases (onPair call a b).run.run s with ⟨other | v, u⟩
  · constructor
    · intro h
      cases h
      rfl
    · intro h
      cases h
      rfl
  · constructor
    · intro h
      cases h
    · intro h
      cases h

theorem consulted_of_callbackLess {s t : State} (h : Consulted (callbackLess call) items s t) :
    Consulted (onPair call) items s t := by
  refine Relation.ReflTransGen.mono ?_ s t h
  rintro u v ⟨a, ha, b, hb, answer, run⟩
  obtain ⟨v, run, -⟩ := callbackLess_eq_ok.1 run
  exact ⟨a, ha, b, hb, v, run⟩

theorem fails_of_callbackLess {s t : State} {fault : Fault}
    (h : ComparisonFails (callbackLess call) items s fault t) :
    ComparisonFails (onPair call) items s fault t := by
  obtain ⟨a, ha, b, hb, run⟩ := h
  exact ⟨a, ha, b, hb, callbackLess_eq_error.1 run⟩

/-- Of any answers nothing is known but that they are answers. -/
theorem answers_always (less : α → α → Run Bool) (xs : List α) :
    Answers less xs (fun _ => True) (fun _ _ => True) fun _ _ => True where
  trans _ _ _ _ _ := trivial
  le_of_lt _ _ _ := trivial
  lt_of_lt_of_le _ _ _ _ _ := trivial
  sound _ _ _ _ _ _ answer _ _ := ⟨trivial, by cases answer <;> trivial⟩

theorem OrdersBy.answers_of {inv : State → Prop} {le : Value → Value → Prop}
    (h : OrdersBy call items inv le) :
    Answers (callbackLess call) items inv (within items le) fun a b => ¬ within items le b a where
  toAgree := .of_total (within_total h.total) (within_trans h.trans)
  sound a ha b hb s t answer hs run := by
    obtain ⟨v, called, rfl⟩ := callbackLess_eq_ok.1 run
    obtain ⟨w, u, answered, hu, sign⟩ := h.answers a ha b hb s hs
    cases called.symm.trans answered
    refine ⟨hu, ?_⟩
    split
    · rename_i negative
      rw [within_iff hb ha]
      exact sign.1 (of_decide_eq_true negative)
    · rename_i other
      rw [within_iff hb ha]
      exact Classical.not_not.1 fun before => other (decide_eq_true (sign.2 before))

theorem OrdersBy.not_fails {inv : State → Prop} {le : Value → Value → Prop}
    (h : OrdersBy call items inv le) {s t : State} {fault : Fault} (hs : inv s) :
    ¬ ComparisonFails (onPair call) items s fault t := by
  rintro ⟨a, ha, b, hb, failed⟩
  obtain ⟨v, u, run, -⟩ := h.answers a ha b hb s hs
  cases failed.symm.trans run

end Callbacks

/-! ## Sorting by texts -/

/-- The first text does not come after the second. -/
def textLe (a b : Value) : Bool :=
  !(decide (b.toText < a.toText))

theorem textLe_iff (a b : Value) : textLe a b = true ↔ a.toText ≤ b.toText := by
  rw [textLe, Bool.not_eq_true', decide_eq_false_iff_not, String.not_lt]

theorem sortByText_stablySorts (items : List Value) :
    StablySorts (fun a b => a.toText ≤ b.toText) items (sortByText items) := by
  have trans (a b c : Value) (h : textLe a b = true) (h' : textLe b c = true) : textLe a c = true :=
    (textLe_iff a c).2 (String.le_trans ((textLe_iff a b).1 h) ((textLe_iff b c).1 h'))
  have total (a b : Value) : (textLe a b || textLe b a) = true := by
    rw [Bool.or_eq_true, textLe_iff, textLe_iff]
    exact String.le_total _ _
  have perm : (sortByText items).Perm items := List.mergeSort_perm _ _
  refine ⟨perm, (List.pairwise_mergeSort trans total items).imp fun h => (textLe_iff _ _).1 h, ?_⟩
  intro p hp
  -- items of no order between them are a sorted part of the list, and such a part stays one
  have ties : (items.filter p).Pairwise (textLe · · = true) :=
    List.pairwise_of_forall_mem_list fun a ha b hb =>
      (textLe_iff a b).2 (hp a (List.mem_of_mem_filter ha) b (List.mem_of_mem_filter hb)
        (List.of_mem_filter ha) (List.of_mem_filter hb))
  have part : (items.filter p).Sublist (sortByText items) :=
    List.sublist_mergeSort trans total ties List.filter_sublist
  have kept := part.filter p
  simp only [List.filter_filter, Bool.and_self] at kept
  exact (kept.eq_of_length (perm.filter p).length_eq.symm).symm

/-! ## The method -/

section Method

variable (ref : Nat) (items : List Value) (args : List Arg)

/-- Sorting an array yields a new one of the given items; before it is made the state is `t`. -/
def SortsTo (s : State) (ys : List Value) (t : State) : Prop :=
  (callMethod (.array ref items) "sort" args).run.run s =
    (.ok (.array t.next ys), { t with next := t.next + 1 })

theorem callMethod_sort :
    callMethod (.array ref items) "sort" args = sortItems items args >>= Run.newArray := rfl

variable {ref items args}

theorem sortsTo_of_sortItems {s t : State} {ys : List Value}
    (h : (sortItems items args).run.run s = (.ok ys, t)) : SortsTo ref items args s ys t := by
  rw [SortsTo, callMethod_sort, Task.run_bind, h]
  rfl

variable {call : List Value → Run Value} {s : State} {inv : State → Prop}

/-- What the sorting of a list does is done by the method. -/
theorem callMethod_sort_of_decides (ref : Nat) (rest : List Arg) {post : List Value → Prop}
    (hs : inv s)
    (h : Decides (callbackLess call) items inv (sortBy (callbackLess call) items) post) :
    (∃ ys t, post ys ∧ Consulted (onPair call) items s t ∧
      SortsTo ref items (.callback call :: rest) s ys t) ∨
    ∃ t fault u, Consulted (onPair call) items s t ∧ inv t ∧
      ComparisonFails (onPair call) items t fault u ∧
      (callMethod (.array ref items) "sort" (.callback call :: rest)).run.run s =
        (.error fault, u) := by
  obtain ⟨ys, t, run, consulted, -, hys⟩ | ⟨t, fault, u, consulted, ht, fails, run⟩ := h s hs
  · exact .inl ⟨ys, t, hys, consulted_of_callbackLess consulted, sortsTo_of_sortItems run⟩
  · refine .inr ⟨t, fault, u, consulted_of_callbackLess consulted, ht, fails_of_callbackLess fails,
      ?_⟩
    have stops : (sortItems items (.callback call :: rest)).run.run s = (.error fault, u) := run
    rw [callMethod_sort, Task.run_bind, stops]

theorem kept_of_consulted {P : State → Prop}
    (keeps : ∀ a ∈ items, ∀ b ∈ items, ∀ u, P u → P ((onPair call a b).run.run u).2)
    {t : State} (h : Consulted (onPair call) items s t) (hs : P s) : P t := by
  induction h with
  | refl => exact hs
  | tail _ last ih =>
    obtain ⟨a, ha, b, hb, v, run⟩ := last
    have kept := keeps a ha b hb _ ih
    rwa [run] at kept

end Method

/-- A sort by a callback fails as the first failing call on two items does, or yields the same items
in a new array; what the calls leave as it is, so does the sort. Calls that answer by a total
preorder sort stably by it, and so do the items' texts where there is no callback. The failure may
as well be noted until the end. -/
theorem sort_arranges (ref : Nat) (items : List Value) :
    (∀ call rest s,
      (∃ ys t, ys.Perm items ∧ Consulted (onPair call) items s t ∧
        SortsTo ref items (.callback call :: rest) s ys t) ∨
      ∃ t fault u, Consulted (onPair call) items s t ∧
      ComparisonFails (onPair call) items t fault u ∧
        (callMethod (.array ref items) "sort" (.callback call :: rest)).run.run s =
          (.error fault, u)) ∧
    (∀ call rest s name,
      (∀ a ∈ items, ∀ b ∈ items, ∀ u,
        ((call [a, b]).run.run u).2.scope.get? name = u.scope.get? name) →
      ((callMethod (.array ref items) "sort"
        (.callback call :: rest)).run.run s).2.scope.get? name = s.scope.get? name) ∧
    (∀ call rest s inv le, OrdersBy call items inv le → inv s →
      ∃ ys t, StablySorts le items ys ∧ Consulted (onPair call) items s t ∧
        SortsTo ref items (.callback call :: rest) s ys t) ∧
    (∀ args s, (∀ call rest, args ≠ .callback call :: rest) →
      ∃ ys, StablySorts (fun a b => a.toText ≤ b.toText) items ys ∧ SortsTo ref items args s ys s) ∧
    ∀ call rest, sortItems items (.callback call :: rest) =
      reporting (sortBy (noting (callbackLess call)) items) := by
  have outcome (call : List Value → Run Value) (rest : List Arg) (s : State) :=
    callMethod_sort_of_decides ref rest (s := s) trivial
      (Decides.sortBy (answers_always (callbackLess call) items))
  refine ⟨fun call rest s => ?callback, fun call rest s name keeps => ?unchanged,
    fun call rest s inv le orders hs => ?order, fun args s none => ?texts,
    fun call rest => (reporting_sortBy _ _).symm⟩
  case callback =>
    obtain ⟨ys, t, arranged, success⟩ | ⟨t, fault, u, consulted, -, failure⟩ := outcome call rest s
    · exact .inl ⟨ys, t, arranged.perm, success⟩
    · exact .inr ⟨t, fault, u, consulted, failure⟩
  case unchanged =>
    have kept {t : State} (h : Consulted (onPair call) items s t) :
        t.scope.get? name = s.scope.get? name :=
      kept_of_consulted (P := fun u => u.scope.get? name = s.scope.get? name)
        (fun a ha b hb u hu => (keeps a ha b hb u).trans hu) h rfl
    obtain ⟨ys, t, -, consulted, sorts⟩ | ⟨t, fault, u, consulted, -, ⟨a, ha, b, hb, fails⟩, run⟩ :=
      outcome call rest s
    · rw [show (callMethod _ _ _).run.run s = _ from sorts]
      exact kept (t := t) consulted
    · have last := keeps a ha b hb t
      rw [show (call [a, b]).run.run t = _ from fails] at last
      rw [run]
      exact last.trans (kept consulted)
  case order =>
    obtain ⟨ys, t, arranged, success⟩ | ⟨t, fault, u, -, ht, fails, -⟩ :=
      callMethod_sort_of_decides ref rest hs (Decides.sortBy orders.answers_of)
    · exact ⟨ys, t, .of_arranges arranged, success⟩
    · exact absurd fails (orders.not_fails ht)
  case texts =>
    refine ⟨sortByText items, sortByText_stablySorts items, sortsTo_of_sortItems ?_⟩
    unfold sortItems
    split
    · exact absurd rfl (none _ _)
    · rfl

/-- The callback `(a, b) => a - b`. -/
def difference : List Value → Run Value :=
  invoke ["a", "b"] (eval (.binary .sub (.name "a") (.name "b")))

theorem run_difference (a b : Value) (s : State) :
    (difference [a, b]).run.run s = (.ok (.number (a.toNumber - b.toNumber)), s) := rfl

/-- Of these the last two are equal as numbers, and no two as texts. -/
def mixedItems : List Value :=
  [.number 2.0, .bool true, .number 1.0]

theorem difference_ordersBy :
    OrdersBy difference mixedItems (fun _ => True) fun a b => a.toNumber ≤ b.toNumber where
  total := by decide +kernel
  trans := by decide +kernel
  answers a ha b hb s _ := by
    have sign : ∀ a ∈ mixedItems, ∀ b ∈ mixedItems,
        a.toNumber - b.toNumber < 0.0 ↔ ¬ b.toNumber ≤ a.toNumber := by
      decide +kernel
    exact ⟨_, s, run_difference a b s, trivial, sign a ha b hb⟩

theorem sort_arranges_of_difference :
    let s : State := ⟨.ofFrame [("xs", .array 0 mixedItems)], 1, []⟩
    (∃ ys t, StablySorts (fun a b => a.toNumber ≤ b.toNumber) mixedItems ys ∧
      Consulted (onPair difference) mixedItems s t ∧
      SortsTo 0 mixedItems [.callback difference] s ys t) ∧
    ((callMethod (.array 0 mixedItems) "sort" [.callback difference]).run.run s).2.scope.get? "xs" =
      s.scope.get? "xs" ∧
    ∃ ys, StablySorts (fun a b => a.toText ≤ b.toText) mixedItems ys ∧
      SortsTo 0 mixedItems [] s ys s := by
  intro s
  obtain ⟨-, unchanged, ordered, texts, -⟩ := sort_arranges 0 mixedItems
  refine ⟨ordered difference [] s _ _ difference_ordersBy trivial,
    unchanged difference [] s "xs" ?_, texts [] s fun _ _ => nofun⟩
  intro a _ b _ u
  rw [run_difference]

end StaticSite.Template
