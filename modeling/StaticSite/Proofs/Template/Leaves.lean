import StaticSite.Proofs.Except
import StaticSite.Template.Parser

/-!
# The leaves of a template

The literal texts and the output directives are the leaves of a template. They stand among the items
that are read (`leavesOf`) and in the statements that are made of them (`Stmt.leaves`). Reading
keeps them: `Parse.Reads n pre f p` says that `p`, run on items of which the first `n` are tokens,
after the leaves `pre` were read, yields a result with the leaves `f a` and leaves the others behind
it; a reader that meets no leaf at all satisfies `Parse.Keeps n`. Expressions keep the items' leaves
(`expression_keeps`), and each statement takes its own, in order (`statement_reads`). The main
result is `leaf_isFrom_of_parse`: the leaves of a parsed template come from the segments of its
source.
-/

namespace StaticSite.Template

/-- A literal text or an output directive. -/
inductive Leaf where
  | text (s : String)
  | output (how : Writing) (e : Expr)

/-- The leaf of an item, unless it is code. -/
def Item.leaf? : Item → Option Leaf
  | .code _ => none
  | .text s => some (.text s)
  | .output how e => some (.output how e)

/-- The leaves of some items. -/
def leavesOf (items : List Item) : List Leaf :=
  items.filterMap Item.leaf?

mutual

/-- The leaves of a statement, in the order of the source. -/
def Stmt.leaves : Stmt → List Leaf
  | .text s => [.text s]
  | .output how e => [.output how e]
  | .branch _ yes no => yes.leaves ++ no.leaves
  | .forOf _ _ body | .forIn _ _ body | .whileLoop _ body => body.leaves
  | .forLoop start _ step body => start.leaves ++ step.leaves ++ body.leaves
  | .block body => leavesOfAll body
  | _ => []

/-- The leaves of some statements. -/
def leavesOfAll : List Stmt → List Leaf
  | [] => []
  | s :: rest => s.leaves ++ leavesOfAll rest

end

@[simp]
theorem leavesOf_nil : leavesOf [] = [] := rfl

@[simp]
theorem leavesOf_code (t : Token) (items : List Item) :
    leavesOf (.code t :: items) = leavesOf items := rfl

@[simp]
theorem leavesOf_text (s : String) (items : List Item) :
    leavesOf (.text s :: items) = .text s :: leavesOf items := rfl

@[simp]
theorem leavesOf_output (how : Writing) (e : Expr) (items : List Item) :
    leavesOf (.output how e :: items) = .output how e :: leavesOf items := rfl

@[simp]
theorem leavesOf_append (xs ys : List Item) : leavesOf (xs ++ ys) = leavesOf xs ++ leavesOf ys :=
  List.filterMap_append

@[simp]
theorem leavesOf_map_code (tokens : List Token) : leavesOf (tokens.map .code) = [] := by
  induction tokens with
  | nil => rfl
  | cons t rest ih => simpa using ih

theorem leavesOf_dropSemicolons (items : List Item) :
    leavesOf (dropSemicolons items) = leavesOf items := by
  fun_induction dropSemicolons items with
  | case1 rest ih => simpa using ih
  | case2 => rfl

theorem leavesOf_of_arrowParams {items rest : List Item} {params : List String}
    (h : arrowParams items = some (params, rest)) : leavesOf rest = leavesOf items := by
  fun_induction arrowParams items generalizing params with
  | case1 rest => cases h; rfl
  | case2 s rest => cases h; rfl
  | case3 s rest ih =>
    obtain ⟨⟨more, after⟩, hr, he⟩ := Option.map_eq_some_iff.1 h
    cases he
    simpa using ih hr
  | case4 => cases h

/-! ## Rules for readers -/

/-- The first `n` items are tokens. -/
def CodeFirst (n : Nat) (items : List Item) : Prop :=
  ∀ i < n, ∃ t, items[i]? = some (.code t)

theorem CodeFirst.zero (items : List Item) : CodeFirst 0 items :=
  fun _ h => absurd h (Nat.not_lt_zero _)

theorem CodeFirst.succ {n : Nat} {items : List Item} {t : Token} (h : CodeFirst n items)
    (ht : items[n]? = some (.code t)) : CodeFirst (n + 1) items := by
  intro i hi
  by_cases he : i = n
  · exact ⟨t, he ▸ ht⟩
  · exact h i (by omega)

theorem CodeFirst.drop {n m : Nat} {items : List Item} (h : CodeFirst (n + m) items) :
    CodeFirst m (items.drop n) := by
  intro i hi
  obtain ⟨t, ht⟩ := h (n + i) (by omega)
  exact ⟨t, by rwa [List.getElem?_drop]⟩

theorem CodeFirst.leavesOf_drop {n : Nat} {items : List Item} (h : CodeFirst n items) :
    leavesOf (items.drop n) = leavesOf items := by
  induction n generalizing items with
  | zero => rfl
  | succ n ih =>
    obtain ⟨t, ht⟩ := h 0 (by omega)
    cases items with
    | nil => simp at ht
    | cons item rest =>
      simp only [List.getElem?_cons_zero, Option.some.injEq] at ht
      subst ht
      have hr : CodeFirst n rest := by
        have := CodeFirst.drop (n := 1) (m := n) (by rwa [Nat.add_comm])
        exact this
      simpa using ih hr

namespace Parse

variable {α β : Type} {n : Nat} {pre : List Leaf}

/-- On items of which the first `n` are code, a reader whose result has, behind `pre`, the leaves of
the items that it takes; `f` gives the leaves of a result. -/
def Reads (n : Nat) (pre : List Leaf) (f : α → List Leaf) (p : Parse α) : Prop :=
  ∀ items, CodeFirst n items → ∀ a rest, p.run items = .ok (a, rest) →
    pre ++ leavesOf items = f a ++ leavesOf rest

/-- A reader that meets no leaf. -/
def Keeps (n : Nat) (p : Parse α) : Prop :=
  Reads n [] (fun _ => []) p

/-- A reader that only looks at the items, the first `n` of which are tokens, and whose answer `a`
shows that the first `m a` are. -/
def Looks (n : Nat) (m : α → Nat) (p : Parse α) : Prop :=
  ∀ items, CodeFirst n items → ∀ a rest, p.run items = .ok (a, rest) →
    rest = items ∧ CodeFirst (m a) items

theorem run_bind_eq_ok {p : Parse α} {k : α → Parse β} {items rest : List Item} {b : β} :
    (p >>= k).run items = .ok (b, rest) ↔
      ∃ a mid, p.run items = .ok (a, mid) ∧ (k a).run mid = .ok (b, rest) := by
  rw [StateT.run_bind]
  cases p.run items with
  | error e => simp [Bind.bind, Except.bind]
  | ok r => exact ⟨fun h => ⟨r.1, r.2, rfl, h⟩, fun ⟨a, mid, hr, h⟩ => by cases hr; exact h⟩

theorem Reads.pure {f : α → List Leaf} {a : α} (h : pre = f a) :
    Reads n pre f (Pure.pure a : Parse α) := by
  intro items _ b rest hr
  cases hr
  rw [h]

theorem Keeps.pure (a : α) : Keeps n (Pure.pure a : Parse α) :=
  Reads.pure rfl

theorem Reads.fail {f : α → List Leaf} (cause : Malformed) :
    Reads n pre f (Parse.fail cause : Parse α) := by
  intro items _ a rest hr
  cases hr

theorem Reads.failFound {f : α → List Leaf} (cause : String → Malformed) :
    Reads n pre f (Parse.failFound cause : Parse α) := by
  intro items _ a rest hr
  cases hr

theorem Reads.mono {f : α → List Leaf} {p : Parse α} {m : Nat} (h : Reads m pre f p) (hm : m ≤ n) :
    Reads n pre f p :=
  fun items hn => h items fun i hi => hn i (by omega)

theorem Reads.bind {f : β → List Leaf} {g : α → List Leaf} {p : Parse α} {k : α → Parse β}
    (hp : Reads n [] g p) (hk : ∀ a, Reads 0 (pre ++ g a) f (k a)) : Reads n pre f (p >>= k) := by
  intro items hn b rest hr
  obtain ⟨a, mid, ha, hb⟩ := run_bind_eq_ok.1 hr
  have h₁ : leavesOf items = g a ++ leavesOf mid := hp items hn a mid ha
  have h₂ := hk a mid (.zero mid) b rest hb
  rw [h₁, ← List.append_assoc, h₂]

theorem Keeps.bind {f : β → List Leaf} {p : Parse α} {k : α → Parse β} (hp : Keeps n p)
    (hk : ∀ a, Reads 0 pre f (k a)) : Reads n pre f (p >>= k) :=
  Reads.bind hp fun a => by simpa using hk a

theorem Reads.ite {f : α → List Leaf} {c : Prop} [Decidable c] {p q : Parse α}
    (hp : Reads n pre f p) (hq : Reads n pre f q) : Reads n pre f (if c then p else q) := by
  split
  · exact hp
  · exact hq

theorem Looks.pure {m : α → Nat} {a : α} (h : m a ≤ n) : Looks n m (Pure.pure a : Parse α) := by
  intro items hn b rest hr
  cases hr
  exact ⟨rfl, fun i hi => hn i (by omega)⟩

theorem Looks.bind {m : α → Nat} {m' : β → Nat} {p : Parse α} {k : α → Parse β} (hp : Looks n m p)
    (hk : ∀ a, Looks (m a) m' (k a)) : Looks n m' (p >>= k) := by
  intro items hn b rest hr
  obtain ⟨a, mid, ha, hb⟩ := run_bind_eq_ok.1 hr
  obtain ⟨rfl, hm⟩ := hp items hn a mid ha
  exact hk a mid hm b rest hb

theorem Looks.reads {m : α → Nat} {f : β → List Leaf} {p : Parse α} {k : α → Parse β}
    (hp : Looks n m p) (hk : ∀ a, Reads (m a) pre f (k a)) : Reads n pre f (p >>= k) := by
  intro items hn b rest hr
  obtain ⟨a, mid, ha, hb⟩ := run_bind_eq_ok.1 hr
  obtain ⟨rfl, hm⟩ := hp items hn a mid ha
  exact hk a mid hm b rest hb

theorem looks_get : Looks n (fun _ => n) (get : Parse (List Item)) := by
  intro items hn a rest hr
  cases hr
  exact ⟨rfl, hn⟩

/-- The number of items that are known to be tokens behind a look at item `n`. -/
def knownBehind (n : Nat) (t : Option Token) : Nat :=
  if t.isSome then n + 1 else n

theorem le_knownBehind (n : Nat) (t : Option Token) : n ≤ knownBehind n t := by
  unfold knownBehind
  split <;> omega

theorem looks_tokenAt : Looks n (knownBehind n) (tokenAt n) := by
  intro items hn a rest hr
  obtain ⟨got, mid, hg, hr⟩ := run_bind_eq_ok.1 hr
  cases hg
  split at hr
  · rename_i t ht
    cases hr
    exact ⟨rfl, hn.succ ht⟩
  · cases hr
    exact ⟨rfl, hn⟩

theorem looks_tokenAt_far (distance : Nat) : Looks n (fun _ => n) (tokenAt distance) := by
  intro items hn a rest hr
  obtain ⟨got, mid, hg, hr⟩ := run_bind_eq_ok.1 hr
  cases hg
  split at hr <;> cases hr <;> exact ⟨rfl, hn⟩

theorem Reads.tokenAt {f : β → List Leaf} {k : Option Token → Parse β}
    (hs : ∀ t, Reads (n + 1) pre f (k (some t))) (hn : Reads n pre f (k none)) :
    Reads n pre f (tokenAt n >>= k) :=
  looks_tokenAt.reads fun
    | some t => hs t
    | none => hn

theorem Reads.skip {f : β → List Leaf} {k : Unit → Parse β} {count : Nat}
    (hk : Reads (n - count) pre f (k ())) (h : count ≤ n := by omega) :
    Reads n pre f (skip count >>= k) := by
  intro items hc b rest hr
  obtain ⟨a, mid, ha, hb⟩ := run_bind_eq_ok.1 hr
  cases ha
  rw [← CodeFirst.leavesOf_drop (n := count) fun i hi => hc i (by omega)]
  refine hk _ (CodeFirst.drop ?_) b rest hb
  rwa [Nat.add_sub_cancel' h]

theorem looks_sees (m : Mark) : Looks 0 Bool.toNat (sees m) := by
  refine looks_tokenAt.bind fun t => ?_
  split
  · exact .pure (Bool.toNat_le _)
  · exact .pure (Nat.zero_le _)

theorem looks_sees_far (m : Mark) : Looks n (fun _ => n) (sees m) := by
  refine (looks_tokenAt_far 0).bind fun t => ?_
  split <;> exact .pure (Nat.le_refl n)

theorem looks_seesName (s : String) : Looks 0 Bool.toNat (seesName s) := by
  refine looks_tokenAt.bind fun t => ?_
  split
  · exact .pure (Bool.toNat_le _)
  · exact .pure (Nat.zero_le _)

theorem looks_seesDeclarator : Looks 0 Bool.toNat seesDeclarator := by
  refine looks_tokenAt.bind fun t => ?_
  split
  · exact .pure (Bool.toNat_le _)
  · exact .pure (Nat.zero_le _)

theorem looks_iteration : Looks n (fun o => if o.isSome then n + 2 else n) (iteration? n) := by
  refine looks_tokenAt.bind fun t => ?_
  cases t with
  | none =>
    refine (looks_tokenAt_far _).bind fun u => ?_
    split
    · rename_i h
      cases h
    · rename_i h
      cases h
    · exact .pure (Nat.le_refl _)
  | some t =>
    refine (looks_tokenAt (n := n + 1)).bind fun u => ?_
    split
    · exact .pure (Nat.le_refl _)
    · exact .pure (Nat.le_refl _)
    · exact .pure (Nat.le_trans (Nat.le_succ n) (le_knownBehind (n + 1) _))

theorem looks_assignment : Looks 0 (fun o => if o.isSome then 2 else 0) assignment? := by
  refine looks_tokenAt.bind fun t => ?_
  cases t with
  | none =>
    refine (looks_tokenAt_far _).bind fun u => ?_
    split
    · rename_i h
      cases h
    · exact .pure (Nat.le_refl _)
  | some t =>
    refine (looks_tokenAt (n := 1)).bind fun u => ?_
    split
    · exact .pure (by simp only [knownBehind]; split <;> simp)
    · exact .pure (Nat.zero_le _)

theorem eat_keeps (m : Mark) : Keeps 0 (eat m) :=
  (looks_sees m).reads fun
    | true => .skip (.pure rfl) (by decide)
    | false => .pure rfl

theorem expect_keeps (m : Mark) : Keeps 0 (expect m) :=
  (eat_keeps m).bind fun _ => .ite (.pure rfl) (.failFound _)

/-- A name that is read is one token. -/
theorem Reads.expectName {f : β → List Leaf} {k : String → Parse β} {m : Nat}
    (hk : ∀ s, Reads m pre f (k s)) : Reads (m + 1) pre f (expectName >>= k) := by
  unfold Parse.expectName
  rw [bind_assoc]
  refine (looks_tokenAt_far 0).reads fun t => ?_
  split
  · rw [bind_assoc]
    refine Reads.skip ?_
    rw [pure_bind]
    exact hk _
  · intro items _ a rest hr
    cases hr

theorem expectName_keeps : Keeps 0 expectName := by
  refine Reads.tokenAt (fun t => ?_) (.failFound _)
  split
  · exact .skip (.pure rfl)
  · exact .failFound _

theorem listTo_keeps {close : Mark} {item : Parse α} (hi : Keeps 0 item) :
    ∀ fuel, Keeps 0 (listTo close item fuel)
  | 0 => .fail _
  | fuel + 1 =>
    (eat_keeps close).bind fun _ => .ite (.pure rfl) <|
      hi.bind fun _ => (eat_keeps .comma).bind fun _ =>
        .ite ((listTo_keeps hi fuel).bind fun _ => .pure rfl) <|
          (expect_keeps close).bind fun _ => .pure rfl

theorem lift_keeps (x : Except Malformed α) : Keeps 0 (liftM x : Parse α) := by
  intro items _ a rest hr
  cases x with
  | error e => cases hr
  | ok b => cases hr; rfl

end Parse

open Parse

/-! ## Expressions -/

theorem chain_keeps {ops : Operators} {operand : Parse Expr} (ho : Keeps 0 operand) :
    ∀ fuel left, Keeps 0 (chain ops operand fuel left)
  | 0, _ => .pure _
  | fuel + 1, left => by
    refine Reads.tokenAt (fun t => ?_) (.pure rfl)
    split
    · split
      · exact .skip (ho.bind fun _ => chain_keeps ho fuel _)
      · exact .pure rfl
    · exact .pure rfl

theorem level_keeps {operand : Parse Expr} (ho : Keeps 0 operand) (ops : Operators) :
    Keeps 0 (level operand ops) :=
  ho.bind fun _ => looks_get.reads fun _ => chain_keeps ho _ _

theorem operation_keeps {operand : Parse Expr} (ho : Keeps 0 operand) :
    Keeps 0 (operation operand) := by
  unfold operation
  induction levels generalizing operand with
  | nil => exact ho
  | cons ops rest ih => exact ih (level_keeps ho ops)

theorem field_keeps {expression : Parse Expr} (he : Keeps 0 expression) :
    Keeps 0 (field expression) := by
  have value (key : String) : Keeps 0 (do
      if ← eat .colon then return (key, ← expression) else return (key, Expr.name key)) :=
    (eat_keeps .colon).bind fun _ => .ite (he.bind fun _ => .pure rfl) (.pure rfl)
  refine Reads.tokenAt (fun t => ?_) ?_
  · split
    · rw [pure_bind]
      exact .skip (value _)
    · rw [pure_bind]
      exact .skip (value _)
    · rw [pure_bind]
      exact .skip (value _)
    · intro items _ a rest hr
      cases hr
  · intro items _ a rest hr
    cases hr

theorem arrowBody_keeps {expression : Parse Expr} (he : Keeps 0 expression) (params : List String) :
    Keeps 0 (arrowBody expression params) :=
  (looks_sees .openBrace).reads fun _ =>
    .ite (.fail _) (Reads.mono (he.bind fun _ => .pure rfl) (Nat.zero_le _))

theorem updateOf_keeps (up : Bool) (e : Expr) : Keeps 1 (updateOf up e) := by
  unfold updateOf
  split
  · exact .skip (.pure rfl)
  · exact .fail _

mutual

theorem expression_keeps : ∀ fuel, Keeps 0 (expression fuel)
  | 0 => .failFound _
  | fuel + 1 => by
    unfold expression
    exact (operation_keeps (unary_keeps fuel)).bind fun _ => (eat_keeps .question).bind fun _ =>
      .ite ((expression_keeps fuel).bind fun _ => (expect_keeps .colon).bind fun _ =>
        (expression_keeps fuel).bind fun _ => .pure rfl) (.pure rfl)

theorem unary_keeps : ∀ fuel, Keeps 0 (unary fuel)
  | 0 => .failFound _
  | fuel + 1 => by
    have operand (op : UnaryOp) : Keeps 0 (do return Expr.unary op (← unary fuel)) :=
      (unary_keeps fuel).bind fun _ => .pure rfl
    have step (up : Bool) : Keeps 0 (do return Expr.update (← expectName) up true) :=
      expectName_keeps.bind fun _ => .pure rfl
    have plain : Keeps 0 (do suffixes fuel (← primary fuel)) :=
      (primary_keeps fuel).bind fun e => suffixes_keeps fuel e
    unfold unary
    refine Reads.tokenAt (fun t => ?_) plain
    split
    · exact .skip (operand .not)
    · exact .skip (operand .negate)
    · exact .skip (operand .plus)
    · exact .skip (operand .typeOf)
    · exact .skip (step true)
    · exact .skip (step false)
    · exact plain.mono (by omega)

theorem suffixes_keeps : ∀ fuel e, Keeps 0 (suffixes fuel e)
  | 0, _ => .failFound _
  | fuel + 1, e => by
    have member (optional : Bool) :
        Keeps 0 (do suffixes fuel (.member e (← expectName) optional)) :=
      expectName_keeps.bind fun _ => suffixes_keeps fuel _
    have index (optional : Bool) : Keeps 0 (do
        let key ← expression fuel
        expect .closeBracket
        suffixes fuel (.index e key optional)) :=
      (expression_keeps fuel).bind fun _ => (expect_keeps _).bind fun _ => suffixes_keeps fuel _
    unfold suffixes
    refine Reads.tokenAt (fun t => ?_) (.pure rfl)
    split
    · exact .skip (member false)
    · exact .skip ((eat_keeps _).bind fun _ => .ite (index true) (member true))
    · exact .skip (index false)
    · exact .skip ((listTo_keeps (expression_keeps fuel) fuel).bind fun _ => suffixes_keeps fuel _)
    · exact updateOf_keeps true e
    · exact updateOf_keeps false e
    · exact .pure rfl

theorem primary_keeps : ∀ fuel, Keeps 0 (primary fuel)
  | 0 => .failFound _
  | fuel + 1 => by
    have he := expression_keeps fuel
    unfold primary
    refine Reads.tokenAt (fun t => ?_) (.failFound _)
    split
    · exact .skip (.pure rfl)
    · exact .skip (.pure rfl)
    · exact .skip (lift_keeps _)
    · refine Reads.tokenAt (fun t => ?_) (.skip (.pure rfl))
      split
      · exact .skip (arrowBody_keeps he _)
      · exact .skip (.pure rfl)
    · intro items hc a rest hr
      obtain ⟨got, mid, hg, hr⟩ := run_bind_eq_ok.1 hr
      cases hg
      split at hr
      · rename_i params behind hp
        rw [← CodeFirst.leavesOf_drop hc, ← leavesOf_of_arrowParams hp]
        exact arrowBody_keeps he params behind (.zero behind) a rest hr
      · have group : Keeps 1 (do
            skip 1
            let e ← expression fuel
            expect .closeParen
            return e) :=
          .skip (he.bind fun _ => (expect_keeps _).bind fun _ => .pure rfl)
        exact group items hc a rest hr
    · exact .skip ((listTo_keeps he fuel).bind fun _ => .pure rfl)
    · exact .skip ((listTo_keeps (field_keeps he) fuel).bind fun _ => .pure rfl)
    · exact .failFound _

end

/-! ## Statements -/

namespace Parse

variable {α : Type} {n : Nat} {pre : List Leaf} {f : α → List Leaf}

theorem Reads.clause {parse : Parse α} (h : Reads n [] f parse) (stop : Mark) :
    Reads n [] (fun o => (o.map f).getD []) (clause stop parse) :=
  (looks_sees_far stop).reads fun _ => .ite (.pure rfl) (Reads.bind h fun a => .pure (by simp))

end Parse

section Forms

variable {expression : Parse Expr} (he : Keeps 0 expression)

include he

theorem bindings_keeps : ∀ fuel, Keeps 0 (bindings expression fuel)
  | 0 => .fail _
  | fuel + 1 => by
    have more (name : String) (value : Option Expr) : Keeps 0 (do
        if ← eat .comma then return (name, value) :: (← bindings expression fuel)
        else return [(name, value)]) :=
      (eat_keeps .comma).bind fun _ =>
        .ite ((bindings_keeps fuel).bind fun _ => .pure rfl) (.pure rfl)
    exact expectName_keeps.bind fun _ => (eat_keeps .assign).bind fun _ =>
      .ite (he.bind fun _ => more _ _) (more _ _)

theorem declaration_reads (fuel : Nat) :
    Reads 1 [] Stmt.leaves (declaration expression fuel) :=
  .skip ((bindings_keeps he fuel).bind fun _ => .pure rfl)

theorem simpleStatement_reads : Reads 0 [] Stmt.leaves (simpleStatement expression) := by
  refine looks_assignment.reads fun target => ?_
  cases target with
  | some target => exact .skip (he.bind fun _ => .pure rfl) (by simp)
  | none =>
    refine he.bind fun e => (looks_tokenAt_far 0).reads fun t => ?_
    split
    · exact .ite (.fail _) (.pure rfl)
    · exact .pure rfl

end Forms

theorem terminated_reads {n : Nat} {p : Parse Stmt} (h : Reads n [] Stmt.leaves p) :
    Reads n [] Stmt.leaves (terminated p) :=
  Reads.bind h fun _ => (eat_keeps .semicolon).bind fun _ => .pure rfl

/-- What stands behind a branch: `else` with another one behind semicolons, or nothing that is
taken. -/
theorem run_elseBranch {statement : Parse Stmt} {test : Expr} {yes s : Stmt}
    {items rest : List Item} (h : (do
      let behind ← get
      set (dropSemicolons behind)
      if ← seesName "else" then
        skip 1
        return .branch test yes (← statement)
      else
        set behind
        return .branch test yes .empty : Parse Stmt).run items = .ok (s, rest)) :
    ((seesName "else").run (dropSemicolons items) = .ok (true, dropSemicolons items) ∧
      (do
        skip 1
        return Stmt.branch test yes (← statement)).run (dropSemicolons items) = .ok (s, rest)) ∨
    s = .branch test yes .empty ∧ rest = items := by
  obtain ⟨behind, mid, hg, h⟩ := run_bind_eq_ok.1 h
  cases hg
  obtain ⟨_, mid, hg, h⟩ := run_bind_eq_ok.1 h
  cases hg
  obtain ⟨found, mid, hg, h⟩ := run_bind_eq_ok.1 h
  obtain ⟨rfl, -⟩ := looks_seesName "else" _ (.zero _) _ _ hg
  cases found with
  | true => exact .inl ⟨hg, h⟩
  | false =>
    cases h
    exact .inr ⟨rfl, rfl⟩

/-- The branch behind `else`, which is looked for behind semicolons that are read again if it is not
there. -/
theorem elseBranch_reads {statement : Parse Stmt} (hs : Reads 0 [] Stmt.leaves statement)
    (test : Expr) (yes : Stmt) : Reads 0 yes.leaves Stmt.leaves (do
      let behind ← get
      set (dropSemicolons behind)
      if ← seesName "else" then
        skip 1
        return .branch test yes (← statement)
      else
        set behind
        return .branch test yes .empty) := by
  intro items _ s rest hr
  rcases run_elseBranch hr with ⟨hsees, hr⟩ | ⟨rfl, rfl⟩
  · obtain ⟨-, hc⟩ := looks_seesName "else" _ (.zero _) _ _ hsees
    have tail : Reads 1 yes.leaves Stmt.leaves (do
        skip 1
        return Stmt.branch test yes (← statement)) :=
      .skip (Reads.bind hs fun no => .pure rfl)
    rw [← leavesOf_dropSemicolons items]
    exact tail _ hc s rest hr
  · simp [Stmt.leaves]

/-- Going on behind the first token. -/
theorem Parse.Reads.setTail {α : Type} {f : α → List Leaf} {k : PUnit → Parse α} {t : Token}
    {tail items rest : List Item} {a : α} (hk : Reads 0 [] f (k ⟨⟩))
    (hr : (set tail >>= k).run items = .ok (a, rest)) :
    [] ++ leavesOf (.code t :: tail) = f a ++ leavesOf rest :=
  hk tail (.zero tail) a rest hr

mutual

theorem statement_reads : ∀ fuel, Reads 0 [] Stmt.leaves (statement fuel)
  | 0 => .fail _
  | fuel + 1 => by
    have he := expression_keeps fuel
    have hs := statement_reads fuel
    have simple := simpleStatement_reads he
    intro items hc s rest hr
    unfold statement at hr
    obtain ⟨got, mid, hg, hr⟩ := run_bind_eq_ok.1 hr
    cases hg
    split at hr
    · cases hr
    · cases hr
      rfl
    · cases hr
      rfl
    · cases hr
      rfl
    · refine Reads.setTail ?_ hr
      exact Reads.bind (blockBody_reads fuel) fun _ => .pure rfl
    · refine Reads.setTail ?_ hr
      exact (expect_keeps _).bind fun _ => he.bind fun test => (expect_keeps _).bind fun _ =>
        Reads.bind hs fun yes => elseBranch_reads hs test yes
    · refine Reads.setTail ?_ hr
      refine (expect_keeps _).bind fun _ => looks_seesDeclarator.reads fun declared => ?_
      have offset : (if declared then 1 else 0) = declared.toNat := by cases declared <;> rfl
      rw [offset]
      refine looks_iteration.reads fun found => ?_
      cases found with
      | some isOf =>
        refine .skip (Reads.mono (m := 2) ?_ (by simp)) (by simp)
        exact Reads.expectName fun _ => .skip <| he.bind fun _ => (expect_keeps _).bind fun _ =>
          Reads.bind hs fun _ => .pure (by cases isOf <;> rfl)
      | none =>
        have first : Reads declared.toNat [] Stmt.leaves
            (if declared then declaration (expression fuel) fuel
              else simpleStatement (expression fuel)) := by
          cases declared with
          | true => exact declaration_reads he fuel
          | false => exact simple
        refine Reads.bind (.clause first _) fun start => (expect_keeps _).bind fun _ =>
          Reads.bind (.clause he _) fun test => (expect_keeps _).bind fun _ =>
            Reads.bind (.clause simple _) fun step => (expect_keeps _).bind fun _ =>
              Reads.bind hs fun body => .pure ?_
        cases start <;> cases test <;> cases step <;> simp [Stmt.leaves]
    · refine Reads.setTail ?_ hr
      exact (expect_keeps _).bind fun _ => he.bind fun _ => (expect_keeps _).bind fun _ =>
        Reads.bind hs fun _ => .pure rfl
    · refine Reads.setTail ?_ hr
      exact terminated_reads (.pure rfl)
    · refine Reads.setTail ?_ hr
      exact terminated_reads (.pure rfl)
    · have plain : Reads 0 [] Stmt.leaves (do
          if ← seesDeclarator then terminated (declaration (expression fuel) fuel)
          else terminated (simpleStatement (expression fuel))) :=
        looks_seesDeclarator.reads fun
          | true => terminated_reads (declaration_reads he fuel)
          | false => terminated_reads simple
      exact plain _ hc s rest hr

theorem blockBody_reads : ∀ fuel, Reads 0 [] leavesOfAll (blockBody fuel)
  | 0 => .fail _
  | fuel + 1 => by
    unfold blockBody
    exact looks_get.reads fun _ => .ite (.fail _) <| (eat_keeps _).bind fun _ => .ite (.pure rfl) <|
      Reads.bind (statement_reads fuel) fun _ => Reads.bind (blockBody_reads fuel) fun _ =>
      .pure rfl

end

/-! ## Templates -/

theorem statements_reads {one : Parse Stmt} (h : Reads 0 [] Stmt.leaves one) :
    ∀ fuel, Reads 0 [] leavesOfAll (statements one fuel)
  | 0 => .pure rfl
  | fuel + 1 =>
    looks_get.reads fun _ => .ite (.pure rfl) <| (looks_sees_far _).reads fun _ => .ite (.fail _) <|
      Reads.bind h fun _ => Reads.bind (statements_reads h fuel) fun _ => .pure rfl

/-- A leaf that stands for a segment of the source. -/
def Leaf.IsFrom (segments : List Segment) : Leaf → Prop
  | .text s => .text s ∈ segments
  | .output how _ => ∃ code, .output how code ∈ segments

theorem leaf_isFrom_of_items {segments : List Segment} {segment : Segment} {items : List Item}
    {leaf : Leaf} (hs : segment ∈ segments) (hi : segment.items = .ok items)
    (hl : leaf ∈ leavesOf items) : leaf.IsFrom segments := by
  unfold Segment.items at hi
  split at hi
  · cases hi
    obtain rfl : leaf = .text _ := by simpa using hl
    exact hs
  · obtain ⟨e, -, he⟩ := Except.bind_eq_ok_iff.1 hi
    cases he
    obtain rfl : leaf = .output _ e := by simpa using hl
    exact ⟨_, hs⟩
  · obtain ⟨tokens, -, ht⟩ := Except.bind_eq_ok_iff.1 hi
    cases ht
    simp at hl

theorem leaf_isFrom_of_parse {source : String} {segments : List Segment} {program : List Stmt}
    (hs : scan source = .ok segments) (hp : parse source = .ok program) {leaf : Leaf}
    (hl : leaf ∈ leavesOfAll program) : leaf.IsFrom segments := by
  unfold parse statementsOf at hp
  rw [hs] at hp
  obtain ⟨_, hok, hp⟩ := Except.bind_eq_ok_iff.1 hp
  cases hok
  obtain ⟨itemss, hi, hp⟩ := Except.bind_eq_ok_iff.1 hp
  obtain ⟨⟨read, rest⟩, hr, he⟩ := Except.map_eq_ok_iff.1 hp
  cases he
  have hleaves := statements_reads (statement_reads _) _ _ (.zero _) _ _ hr
  have hmem : leaf ∈ leavesOf itemss.flatten := by
    rw [List.nil_append] at hleaves
    rw [hleaves]
    exact List.mem_append_left _ hl
  obtain ⟨item, hitem, hleaf⟩ := List.mem_filterMap.1 hmem
  obtain ⟨items, hitems, hin⟩ := List.mem_flatten.1 hitem
  obtain ⟨segment, hseg, hsi⟩ := exists_mem_of_mapM hi hitems
  exact leaf_isFrom_of_items hseg hsi (List.mem_filterMap.2 ⟨item, hin, hleaf⟩)

end StaticSite.Template
