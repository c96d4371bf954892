import StaticSite.Proofs.Template.Leaves

/-!
# Readers go on

`Parse.Takes n m P p` says that `p`, run on items of which the first `n` are tokens, takes at least
`m` of them and yields a result with `P`. Expressions take at least one item (`expression_takes`),
and so do statements (`statement_takes`), whose loop headers hold no leaves (`Stmt.IsTidy`).
-/

namespace StaticSite.Template

mutual

/-- The header of each loop has no leaves. -/
def Stmt.IsTidy : Stmt → Prop
  | .branch _ yes no => yes.IsTidy ∧ no.IsTidy
  | .forOf _ _ body | .forIn _ _ body | .whileLoop _ body => body.IsTidy
  | .forLoop start _ step body => start.leaves = [] ∧ step.leaves = [] ∧ body.IsTidy
  | .block body => AllTidy body
  | _ => True

/-- All of some statements are tidy. -/
def AllTidy : List Stmt → Prop
  | [] => True
  | s :: rest => s.IsTidy ∧ AllTidy rest

end

/-- A declaration, an assignment, an expression or nothing. -/
structure Stmt.IsSimple (s : Stmt) : Prop where
  leaves : s.leaves = []
  tidy : s.IsTidy

/-! ## Rules for readers -/

theorem CodeFirst.le_length {n : Nat} {items : List Item} (h : CodeFirst n items) :
    n ≤ items.length := by
  cases n with
  | zero => exact Nat.zero_le _
  | succ n =>
    obtain ⟨t, ht⟩ := h n (Nat.lt_succ_self n)
    exact (List.getElem?_eq_some_iff.1 ht).1

theorem length_dropSemicolons (items : List Item) :
    (dropSemicolons items).length ≤ items.length := by
  fun_induction dropSemicolons items with
  | case1 rest ih => exact Nat.le_succ_of_le ih
  | case2 => exact Nat.le_refl _

theorem length_of_arrowParams {items rest : List Item} {params : List String}
    (h : arrowParams items = some (params, rest)) : rest.length ≤ items.length := by
  fun_induction arrowParams items generalizing params with
  | case1 rest =>
    cases h
    simp only [List.length_cons]
    omega
  | case2 s rest =>
    cases h
    simp only [List.length_cons]
    omega
  | case3 s rest ih =>
    obtain ⟨⟨more, after⟩, hr, he⟩ := Option.map_eq_some_iff.1 h
    cases he
    have := ih hr
    simp only [List.length_cons]
    omega
  | case4 => cases h

namespace Parse

variable {α β : Type} {n m m' : Nat} {P : α → Prop} {Q : β → Prop}

/-- On items of which the first `n` are code, a reader that takes at least `m` of them, and whose
results have a property. -/
def Takes (n m : Nat) (P : α → Prop) (p : Parse α) : Prop :=
  ∀ items, CodeFirst n items → ∀ a rest, p.run items = .ok (a, rest) →
    rest.length + m ≤ items.length ∧ P a

/-- A reader that takes at least `m` items. -/
abbrev TakesSome (n m : Nat) (p : Parse α) : Prop :=
  Takes n m (fun _ => True) p

theorem Takes.pure {a : α} (h : P a) : Takes n 0 P (Pure.pure a : Parse α) := by
  intro items _ b rest hr
  cases hr
  exact ⟨Nat.le_refl _, h⟩

theorem Takes.fail (cause : Malformed) : Takes n m P (Parse.fail cause : Parse α) := by
  intro items _ a rest hr
  cases hr

theorem Takes.failFound (cause : String → Malformed) :
    Takes n m P (Parse.failFound cause : Parse α) := by
  intro items _ a rest hr
  cases hr

theorem Takes.mono {p : Parse α} {n' : Nat} (h : Takes n m P p) (hn : n ≤ n') (hm : m' ≤ m) :
    Takes n' m' P p := by
  intro items hc a rest hr
  obtain ⟨hl, hp⟩ := h items (fun i hi => hc i (by omega)) a rest hr
  exact ⟨by omega, hp⟩

theorem Takes.imp {p : Parse α} {R : α → Prop} (h : Takes n m P p) (hP : ∀ a, P a → R a) :
    Takes n m R p :=
  fun items hc a rest hr => (h items hc a rest hr).imp_right (hP a)

theorem Takes.any {p : Parse α} (h : Takes n m P p) : Takes n 0 P p :=
  h.mono (Nat.le_refl _) (Nat.zero_le _)

/-- Going on behind a reader. -/
theorem Takes.before {p : Parse α} {k : α → Parse β} (hp : Takes n m P p)
    (hk : ∀ a, P a → Takes 0 0 Q (k a)) : Takes n m Q (p >>= k) := by
  intro items hc b rest hr
  obtain ⟨a, mid, ha, hb⟩ := run_bind_eq_ok.1 hr
  obtain ⟨hl, hP⟩ := hp items hc a mid ha
  obtain ⟨hl', hQ⟩ := hk a hP mid (.zero mid) b rest hb
  exact ⟨by omega, hQ⟩

theorem Takes.ite {c : Prop} [Decidable c] {p q : Parse α} (hp : Takes n m P p)
    (hq : Takes n m P q) :
    Takes n m P (if c then p else q) := by
  split
  · exact hp
  · exact hq

theorem Looks.takes {l : α → Nat} {p : Parse α} {k : α → Parse β} (hp : Looks n l p)
    (hk : ∀ a, Takes (l a) m Q (k a)) : Takes n m Q (p >>= k) := by
  intro items hc b rest hr
  obtain ⟨a, mid, ha, hb⟩ := run_bind_eq_ok.1 hr
  obtain ⟨rfl, hm⟩ := hp items hc a mid ha
  exact hk a mid hm b rest hb

theorem Takes.tokenAt {k : Option Token → Parse β} (hs : ∀ t, Takes (n + 1) m Q (k (some t)))
    (hn : Takes n m Q (k none)) : Takes n m Q (tokenAt n >>= k) :=
  looks_tokenAt.takes fun
    | some t => hs t
    | none => hn

theorem Takes.skip {k : Unit → Parse β} {count : Nat} (hk : Takes (n - count) m Q (k ()))
    (h : count ≤ n := by omega) : Takes n (m + count) Q (skip count >>= k) := by
  intro items hc b rest hr
  obtain ⟨a, mid, ha, hb⟩ := run_bind_eq_ok.1 hr
  cases ha
  have hd : CodeFirst (n - count) (items.drop count) :=
    CodeFirst.drop (by rwa [Nat.add_sub_cancel' h])
  obtain ⟨hl, hQ⟩ := hk _ hd b rest hb
  have := hc.le_length
  rw [List.length_drop] at hl
  exact ⟨by omega, hQ⟩

/-- Stepping over items that may be missing. -/
theorem Takes.skipAny {k : Unit → Parse β} {count : Nat} (hk : Takes 0 0 Q (k ())) :
    Takes n 0 Q (Parse.skip count >>= k) := by
  intro items hc b rest hr
  obtain ⟨a, mid, ha, hb⟩ := run_bind_eq_ok.1 hr
  cases ha
  obtain ⟨hl, hQ⟩ := hk _ (.zero _) b rest hb
  rw [List.length_drop] at hl
  exact ⟨by omega, hQ⟩

theorem eat_takes (mark : Mark) : TakesSome 0 0 (eat mark) := by
  refine (looks_sees mark).takes fun found => ?_
  cases found
  · exact .pure trivial
  · exact .skipAny (.pure trivial)

theorem expect_takes (mark : Mark) : TakesSome 0 0 (expect mark) :=
  (eat_takes mark).before fun _ _ => .ite (.pure trivial) (.failFound _)

theorem expectName_takes : TakesSome 0 1 expectName := by
  refine Takes.tokenAt (fun t => ?_) (.failFound _)
  split
  · exact .skip (.pure trivial)
  · exact .failFound _

theorem listTo_takes {close : Mark} {item : Parse α} (hi : TakesSome 0 0 item) (fuel : Nat) :
    TakesSome 0 0 (listTo close item fuel) := by
  induction fuel with
  | zero => exact .fail _
  | succ fuel ih =>
    exact (eat_takes close).before fun _ _ => .ite (.pure trivial) <|
      hi.before fun _ _ => (eat_takes .comma).before fun _ _ =>
        .ite (ih.before fun _ _ => .pure trivial) <|
          (expect_takes close).before fun _ _ => .pure trivial

theorem lift_takes (x : Except Malformed α) : TakesSome 0 0 (liftM x : Parse α) := by
  intro items _ a rest hr
  cases x with
  | error e => cases hr
  | ok b =>
    cases hr
    exact ⟨Nat.le_refl _, trivial⟩

end Parse

open Parse

/-! ## Expressions -/

theorem chain_takes {ops : Operators} {operand : Parse Expr} (ho : TakesSome 0 0 operand)
    (fuel : Nat) (left : Expr) : TakesSome 0 0 (chain ops operand fuel left) := by
  induction fuel generalizing left with
  | zero => exact .pure trivial
  | succ fuel ih =>
    refine Takes.tokenAt (fun t => ?_) (.pure trivial)
    split
    · split
      · exact .skipAny (ho.before fun _ _ => ih _)
      · exact .pure trivial
    · exact .pure trivial

theorem level_takes {operand : Parse Expr} {m : Nat} (ho : TakesSome 0 m operand)
    (ops : Operators) :
    TakesSome 0 m (level operand ops) :=
  ho.before fun _ _ => looks_get.takes fun _ =>
    chain_takes ho.any _ _

theorem operation_takes {operand : Parse Expr} {m : Nat} (ho : TakesSome 0 m operand) :
    TakesSome 0 m (operation operand) := by
  unfold operation
  induction levels generalizing operand with
  | nil => exact ho
  | cons ops rest ih => exact ih (level_takes ho ops)

theorem field_takes {expression : Parse Expr} (he : TakesSome 0 0 expression) :
    TakesSome 0 0 (field expression) := by
  have value (key : String) : TakesSome 0 0 (do
      if ← eat .colon then return (key, ← expression) else return (key, Expr.name key)) :=
    (eat_takes .colon).before fun _ _ => .ite (he.before fun _ _ => .pure trivial) (.pure trivial)
  refine Takes.tokenAt (fun t => ?_) ?_
  · split
    case h_4 =>
      intro items _ a rest hr
      cases hr
    all_goals
      rw [pure_bind]
      exact .skipAny (value _)
  · intro items _ a rest hr
    cases hr

theorem arrowBody_takes {expression : Parse Expr} (he : TakesSome 0 0 expression)
    (params : List String) :
    TakesSome 0 0 (arrowBody expression params) :=
  (looks_sees .openBrace).takes fun _ =>
    .ite (.fail _) (.mono (he.before fun _ _ => .pure trivial) (Nat.zero_le _) (Nat.le_refl _))

theorem updateOf_takes (up : Bool) (e : Expr) : TakesSome 1 1 (updateOf up e) := by
  unfold updateOf
  split
  · exact .skip (.pure trivial)
  · exact .fail _

mutual

theorem expression_takes : ∀ fuel, TakesSome 0 1 (expression fuel)
  | 0 => .failFound _
  | fuel + 1 => by
    have he : TakesSome 0 0 (expression fuel) :=
      (expression_takes fuel).any
    unfold expression
    exact (operation_takes (unary_takes fuel)).before fun _ _ =>
      (eat_takes .question).before fun _ _ =>
      .ite (he.before fun _ _ => (expect_takes .colon).before fun _ _ =>
        he.before fun _ _ => .pure trivial) (.pure trivial)

theorem unary_takes : ∀ fuel, TakesSome 0 1 (unary fuel)
  | 0 => .failFound _
  | fuel + 1 => by
    have operand (op : UnaryOp) : TakesSome 0 0 (do return Expr.unary op (← unary fuel)) :=
      (unary_takes fuel).any.before fun _ _ => .pure trivial
    have step (up : Bool) : TakesSome 0 0 (do return Expr.update (← expectName) up true) :=
      expectName_takes.any.before fun _ _ => .pure trivial
    have plain : TakesSome 0 1 (do suffixes fuel (← primary fuel)) :=
      (primary_takes fuel).before fun e _ => suffixes_takes fuel e
    unfold unary
    refine Takes.tokenAt (fun t => ?_) plain
    split
    · exact .skip (operand .not)
    · exact .skip (operand .negate)
    · exact .skip (operand .plus)
    · exact .skip (operand .typeOf)
    · exact .skip (step true)
    · exact .skip (step false)
    · exact plain.mono (Nat.zero_le _) (Nat.le_refl _)

theorem suffixes_takes : ∀ fuel e, TakesSome 0 0 (suffixes fuel e)
  | 0, _ => .failFound _
  | fuel + 1, e => by
    have he : TakesSome 0 0 (expression fuel) :=
      (expression_takes fuel).any
    have member (optional : Bool) :
        TakesSome 0 0 (do suffixes fuel (.member e (← expectName) optional)) :=
      expectName_takes.any.before fun _ _ => suffixes_takes fuel _
    have index (optional : Bool) : TakesSome 0 0 (do
        let key ← expression fuel
        expect .closeBracket
        suffixes fuel (.index e key optional)) :=
      he.before fun _ _ => (expect_takes _).before fun _ _ => suffixes_takes fuel _
    unfold suffixes
    refine Takes.tokenAt (fun t => ?_) (.pure trivial)
    split
    · exact .skipAny (member false)
    · exact .skipAny ((eat_takes _).before fun _ _ => .ite (index true) (member true))
    · exact .skipAny (index false)
    · exact .skipAny ((listTo_takes he fuel).before fun _ _ => suffixes_takes fuel _)
    · exact (updateOf_takes true e).any
    · exact (updateOf_takes false e).any
    · exact .pure trivial

theorem primary_takes : ∀ fuel, TakesSome 0 1 (primary fuel)
  | 0 => .failFound _
  | fuel + 1 => by
    have he : TakesSome 0 0 (expression fuel) :=
      (expression_takes fuel).any
    unfold primary
    refine Takes.tokenAt (fun t => ?_) (.failFound _)
    split
    · exact .skip (.pure trivial)
    · exact .skip (.pure trivial)
    · exact .skip (lift_takes _)
    · refine Takes.tokenAt (fun t => ?_) (.skip (.pure trivial))
      split
      · exact .mono (.skip (arrowBody_takes he _)) (Nat.le_refl _) (Nat.le_add_left 1 1)
      · exact .skip (.pure trivial)
    · intro items hc a rest hr
      obtain ⟨got, mid, hg, hr⟩ := run_bind_eq_ok.1 hr
      cases hg
      split at hr
      · rename_i params behind hp
        obtain ⟨hl, -⟩ := arrowBody_takes he params behind (.zero behind) a rest hr
        have := length_of_arrowParams hp
        have := hc.le_length
        rw [List.length_drop] at *
        exact ⟨by omega, trivial⟩
      · have group : TakesSome 1 1 (do
            skip 1
            let e ← expression fuel
            expect .closeParen
            return e) :=
          .skip (he.before fun _ _ => (expect_takes _).before fun _ _ => .pure trivial)
        exact group items hc a rest hr
    · exact .skip ((listTo_takes he fuel).before fun _ _ => .pure trivial)
    · exact .skip ((listTo_takes (field_takes he) fuel).before fun _ _ => .pure trivial)
    · exact .failFound _

end

/-! ## Statements -/

/-- A clause of a loop header, which may be missing. -/
theorem Parse.Takes.clause {α : Type} {n m : Nat} {P : α → Prop} {parse : Parse α}
    (h : Takes n m P parse) (stop : Mark) :
    Takes n 0 (fun o => ∀ a ∈ o, P a) (Template.clause stop parse) :=
  (looks_sees_far stop).takes fun _ =>
    .ite (.pure (by simp)) (h.any.before fun _ ha => .pure (by simpa))

section Forms

variable {expression : Parse Expr} (he : TakesSome 0 1 expression)

include he

theorem bindings_takes : ∀ fuel, TakesSome 0 0 (bindings expression fuel)
  | 0 => .fail _
  | fuel + 1 => by
    have more (name : String) (value : Option Expr) : TakesSome 0 0 (do
        if ← eat .comma then return (name, value) :: (← bindings expression fuel)
        else return [(name, value)]) :=
      (eat_takes .comma).before fun _ _ =>
        .ite ((bindings_takes fuel).before fun _ _ => .pure trivial) (.pure trivial)
    exact expectName_takes.any.before fun _ _ => (eat_takes .assign).before fun _ _ =>
      .ite (he.any.before fun _ _ => more _ _) (more _ _)

theorem declaration_takes (fuel : Nat) : Takes 1 1 Stmt.IsSimple (declaration expression fuel) :=
  .skip ((bindings_takes he fuel).before fun _ _ => .pure ⟨rfl, trivial⟩)

theorem simpleStatement_takes : Takes 0 1 Stmt.IsSimple (simpleStatement expression) := by
  refine looks_assignment.takes fun target => ?_
  cases target with
  | some target =>
    have assigned : Takes 2 2 Stmt.IsSimple (do
        skip 2
        return .assign target.1 target.2 (← expression)) :=
      .skip (he.any.before fun _ _ => .pure ⟨rfl, trivial⟩)
    exact assigned.mono (by simp) (by decide)
  | none =>
    refine he.before fun e _ => (looks_tokenAt_far 0).takes fun t => ?_
    split
    · exact .ite (.fail _) (.pure ⟨rfl, trivial⟩)
    · exact .pure ⟨rfl, trivial⟩

end Forms

theorem terminated_takes {n m : Nat} {p : Parse Stmt} (h : Takes n m Stmt.IsTidy p) :
    Takes n m Stmt.IsTidy (terminated p) :=
  h.before fun _ hs => (eat_takes .semicolon).before fun _ _ => .pure hs

/-- The branch behind `else`, which is looked for behind semicolons. -/
theorem elseBranch_takes {statement : Parse Stmt} (hs : Takes 0 0 Stmt.IsTidy statement)
    {test : Expr} {yes : Stmt} (hy : yes.IsTidy) : Takes 0 0 Stmt.IsTidy (do
      let behind ← get
      set (dropSemicolons behind)
      if ← seesName "else" then
        skip 1
        return .branch test yes (← statement)
      else
        set behind
        return .branch test yes .empty) := by
  intro items _ s rest hr
  rcases run_elseBranch hr with ⟨hsees, hr⟩ | ⟨rfl, rfl⟩
  · obtain ⟨-, hc⟩ := looks_seesName "else" _ (.zero _) _ _ hsees
    have tail : Takes 1 0 Stmt.IsTidy (do
        skip 1
        return Stmt.branch test yes (← statement)) :=
      .skipAny (hs.before fun no hn => .pure ⟨hy, hn⟩)
    obtain ⟨hl, ht⟩ := tail _ hc s rest hr
    have := length_dropSemicolons items
    exact ⟨by omega, ht⟩
  · exact ⟨Nat.le_refl _, hy, trivial⟩

/-- Going on behind the first item. -/
theorem Parse.Takes.setTail {α : Type} {P : α → Prop} {k : PUnit → Parse α} {item : Item}
    {tail items rest : List Item} {a : α} (hk : Takes 0 0 P (k ⟨⟩))
    (hr : (set tail >>= k).run items = .ok (a, rest)) :
    rest.length + 1 ≤ (item :: tail).length ∧ P a := by
  obtain ⟨hl, ha⟩ := hk tail (.zero tail) a rest hr
  exact ⟨Nat.succ_le_succ hl, ha⟩

mutual

theorem statement_takes : ∀ fuel, Takes 0 1 Stmt.IsTidy (statement fuel)
  | 0 => .fail _
  | fuel + 1 => by
    have he := expression_takes fuel
    have hs := (statement_takes fuel).any
    have simple := simpleStatement_takes he
    intro items hc s rest hr
    unfold statement at hr
    obtain ⟨got, mid, hg, hr⟩ := run_bind_eq_ok.1 hr
    cases hg
    split at hr
    · cases hr
    · cases hr
      exact ⟨Nat.le_refl _, trivial⟩
    · cases hr
      exact ⟨Nat.le_refl _, trivial⟩
    · cases hr
      exact ⟨Nat.le_refl _, trivial⟩
    · refine Takes.setTail ?_ hr
      exact (blockBody_takes fuel).before fun _ hb => .pure hb
    · refine Takes.setTail ?_ hr
      exact (expect_takes _).before fun _ _ => he.any.before fun test _ =>
        (expect_takes _).before fun _ _ =>
        hs.before fun yes hy => elseBranch_takes hs hy
    · refine Takes.setTail ?_ hr
      refine (expect_takes _).before fun _ _ => looks_seesDeclarator.takes fun declared => ?_
      have offset : (if declared then 1 else 0) = declared.toNat := by cases declared <;> rfl
      rw [offset]
      refine looks_iteration.takes fun found => ?_
      cases found with
      | some isOf =>
        exact .skipAny <| expectName_takes.any.before fun _ _ =>
          .skipAny <| he.any.before fun _ _ =>
          (expect_takes _).before fun _ _ => hs.before fun _ hb =>
            .pure (by cases isOf <;> exact hb)
      | none =>
        have first : Takes declared.toNat 1 Stmt.IsSimple
            (if declared then declaration (expression fuel) fuel
              else simpleStatement (expression fuel)) := by
          cases declared with
          | true => exact declaration_takes he fuel
          | false => exact simple
        refine (first.clause _).before fun start hstart => (expect_takes _).before fun _ _ =>
          (he.clause _).before fun test _ => (expect_takes _).before fun _ _ =>
            (simple.clause _).before fun step hstep => (expect_takes _).before fun _ _ =>
              hs.before fun body hb => .pure ?_
        refine ⟨?_, ?_, hb⟩
        · cases start with
          | none => rfl
          | some start => exact (hstart start rfl).leaves
        · cases step with
          | none => rfl
          | some step => exact (hstep step rfl).leaves
    · refine Takes.setTail ?_ hr
      exact (expect_takes _).before fun _ _ => he.any.before fun _ _ =>
        (expect_takes _).before fun _ _ =>
        hs.before fun _ hb => .pure hb
    · refine Takes.setTail ?_ hr
      exact terminated_takes (.pure trivial)
    · refine Takes.setTail ?_ hr
      exact terminated_takes (.pure trivial)
    · have plain : Takes 0 1 Stmt.IsTidy (do
          if ← seesDeclarator then terminated (declaration (expression fuel) fuel)
          else terminated (simpleStatement (expression fuel))) :=
        looks_seesDeclarator.takes fun
          | true => terminated_takes ((declaration_takes he fuel).imp fun _ h => h.tidy)
          | false => terminated_takes (simple.imp fun _ h => h.tidy)
      exact plain _ hc s rest hr

theorem blockBody_takes : ∀ fuel, Takes 0 0 AllTidy (blockBody fuel)
  | 0 => .fail _
  | fuel + 1 => by
    unfold blockBody
    exact looks_get.takes fun _ => .ite (.fail _) <| (eat_takes _).before fun _ _ =>
      .ite (.pure trivial) <| (statement_takes fuel).any.before fun _ hs =>
        (blockBody_takes fuel).before fun _ hb => .pure ⟨hs, hb⟩

end

end StaticSite.Template
