import StaticSite.Proofs.Template.Printer

/-!
# Tokens that denote expressions

`Denotes ts e k` says that the tokens `ts` are read as the expression `e` in places for expressions
up to looseness `k`, whatever stands behind them that does not go on with it. A tighter place may
stand for a looser one (`Denotes.loosen`).
-/

namespace StaticSite.Template

open Parse

variable {α β : Type}

/-! ## What stands behind an expression -/

/-- Some tokens as items. -/
def code (ts : List Token) : List Item :=
  ts.map .code

@[simp]
theorem code_nil : code [] = [] := rfl

@[simp]
theorem code_cons (t : Token) (ts : List Token) : code (t :: ts) = .code t :: code ts := rfl

@[simp]
theorem code_append (ts us : List Token) : code (ts ++ us) = code ts ++ code us :=
  List.map_append

/-- The token at the head of the items. -/
def headToken? : List Item → Option Token
  | .code t :: _ => some t
  | _ => none

/-- What comes next does not go on with an expression of the looseness. -/
def Ends (k : Nat) (rest : List Item) : Prop :=
  ∀ m, headToken? rest = some (.mark m) → k < m.looseness

theorem Ends.mono {k k' : Nat} {rest : List Item} (h : Ends k rest) (hk : k' ≤ k) : Ends k' rest :=
  fun m hm => Nat.lt_of_le_of_lt hk (h m hm)

theorem ends_mark {k : Nat} {m : Mark} (h : k < m.looseness) (rest : List Item) :
    Ends k (.code (.mark m) :: rest) := by
  rintro _ ⟨⟩
  exact h

theorem ends_nil (k : Nat) : Ends k [] := by
  rintro _ ⟨⟩

/-! ## Steps of readers -/

theorem run_bind_of_ok {p : Parse α} {next : α → Parse β} {items rest : List Item} {a : α}
    (h : p.run items = .ok (a, rest)) : (p >>= next).run items = (next a).run rest := by
  rw [StateT.run_bind, h]
  rfl

theorem run_tokenAt_zero (items : List Item) :
    (tokenAt 0).run items = .ok (headToken? items, items) := by
  match items with
  | [] => rfl
  | .code _ :: _ => rfl
  | .text _ :: _ => rfl
  | .output .. :: _ => rfl

theorem run_tokenAt_code (t : Token) (rest : List Item) :
    (tokenAt 0).run (.code t :: rest) = .ok (some t, .code t :: rest) := rfl

theorem run_skip_one (item : Item) (rest : List Item) :
    (skip 1).run (item :: rest) = .ok ((), rest) := rfl

theorem run_expectName (s : String) (rest : List Item) :
    expectName.run (.code (.name s) :: rest) = .ok (s, rest) := rfl

theorem run_sees_of_ne {m : Mark} {items : List Item} (h : headToken? items ≠ some (.mark m)) :
    (sees m).run items = .ok (false, items) := by
  unfold sees
  rw [run_bind_of_ok (run_tokenAt_zero items)]
  split
  · rename_i n hn
    have hne : n ≠ m := by
      rintro rfl
      exact h hn
    rw [beq_eq_false_iff_ne.2 hne]
    rfl
  · rfl

theorem run_eat_of_ne {m : Mark} {items : List Item} (h : headToken? items ≠ some (.mark m)) :
    (eat m).run items = .ok (false, items) := by
  unfold eat
  rw [run_bind_of_ok (run_sees_of_ne h)]
  rfl

theorem run_eat_self (m : Mark) (rest : List Item) :
    (eat m).run (.code (.mark m) :: rest) = .ok (true, rest) := by
  cases m <;> rfl

theorem run_expect (m : Mark) (rest : List Item) :
    (expect m).run (.code (.mark m) :: rest) = .ok ((), rest) := by
  unfold expect
  rw [run_bind_of_ok (run_eat_self m rest)]
  rfl

/-! ## Where loops stop -/

theorem run_chain_of_ends {ops : Operators} {operand : Parse Expr} {rest : List Item}
    (h : ∀ m, headToken? rest = some (.mark m) → ops m = none) (n : Nat) (e : Expr) :
    (chain ops operand n e).run rest = .ok (e, rest) := by
  cases n with
  | zero => rfl
  | succ n =>
    rw [chain, run_bind_of_ok (run_tokenAt_zero rest)]
    split
    · rename_i m hm
      rw [h m hm]
      rfl
    · rfl

theorem run_suffixes_of_ends {rest : List Item} (h : Ends 1 rest) (g : Nat) (e : Expr) :
    (suffixes (g + 1) e).run rest = .ok (e, rest) := by
  rw [suffixes, run_bind_of_ok (run_tokenAt_zero rest)]
  split
  case h_7 => rfl
  all_goals
    rename_i hm
    exact absurd (h _ hm) (by decide)

/-! ## Operators -/

/-- The operators of a level are the marks of one looseness. -/
theorem looseness_of_operator {j : Nat} {ops : Operators} {m : Mark} {make : Expr → Expr → Expr}
    (hj : levels[j]? = some ops) (hm : ops m = some make) : m.looseness = j + 2 := by
  rcases j with _ | _ | _ | _ | _ | _ | j <;> cases hj <;> cases m <;> cases hm <;> rfl

theorem operator_eq_none {j : Nat} {ops : Operators} {m : Mark} (hj : levels[j]? = some ops)
    (hm : j + 2 ≠ m.looseness) : ops m = none := by
  cases h : ops m with
  | none => rfl
  | some make => exact absurd (looseness_of_operator hj h).symm hm

/-- Reads the operators of the `j` tightest levels. -/
def operators (f j : Nat) : Parse Expr :=
  (levels.take j).foldl level (unary f)

theorem operators_succ {f j : Nat} {ops : Operators} (hj : levels[j]? = some ops) :
    operators f (j + 1) = level (operators f j) ops := by
  obtain ⟨hlt, hget⟩ := List.getElem?_eq_some_iff.1 hj
  rw [operators, List.take_succ_eq_append_getElem hlt, List.foldl_append, hget]
  rfl

/-! ## Tokens that denote expressions -/

/-- Whether the mark stands between or behind the expressions of a list. -/
def Mark.separates : Mark → Bool
  | comma | closeParen | closeBracket | closeBrace => true
  | _ => false

/-- How an expression begins: neither with a mark that separates nor with a name before one. -/
def Opens : List Token → Prop
  | [] => False
  | .name _ :: next => ∀ m, next.head? = some (.mark m) → m.separates = false
  | .mark m :: _ => m.separates = false
  | _ => True

theorem Opens.length_pos {ts : List Token} (h : Opens ts) : 0 < ts.length := by
  cases ts with
  | nil => exact h.elim
  | cons _ _ => exact Nat.succ_pos _

theorem Opens.head? {ts : List Token} (h : Opens ts) {m : Mark} (hm : ts.head? = some (.mark m)) :
    m.separates = false := by
  match ts with
  | .mark _ :: _ =>
    cases hm
    exact h

theorem Opens.headToken?_ne {ts : List Token} (h : Opens ts) {close : Mark}
    (hclose : close.separates = true)
    (rest : List Item) : headToken? (code ts ++ rest) ≠ some (.mark close) := by
  match ts with
  | .mark m :: _ =>
    intro he
    cases he
    cases (show close.separates = false from h).symm.trans hclose
  | .name _ :: _ | .number _ :: _ | .string _ :: _ | .template _ :: _ => rintro ⟨⟩

theorem Opens.append {ts more : List Token} (h : Opens ts)
    (hmore : ∀ m, more.head? = some (.mark m) → m.separates = false) : Opens (ts ++ more) := by
  match ts with
  | [.name _] => exact hmore
  | .name _ :: _ :: _ | .mark _ :: _ | .number _ :: _ | .string _ :: _ | .template _ :: _ => exact h

/-- A reader with fuel `f` reads `ts` as `e` where what stands behind them ends expressions of the
looseness. Each token pays for the calls between two of them. -/
def ReadBy (reader : Nat → Parse Expr) (k spare : Nat) (ts : List Token) (e : Expr) : Prop :=
  ∀ f rest, Ends k rest → 4 * ts.length ≤ f + spare →
    (reader f).run (code ts ++ rest) = .ok (e, rest)

/-- What the readers of a place do with tokens. In places for operands they go on with the suffixes
that stand behind them, and in those for operators with the operators of the same level. -/
def IsReadIn (ts : List Token) (e : Expr) : Nat → Prop
  | 0 => ∀ f rest, headToken? rest ≠ some (.mark .arrow) → 4 * ts.length ≤ f + 2 →
    ∃ g, f ≤ g + ts.length ∧ (unary (f + 1)).run (code ts ++ rest) = (suffixes g e).run rest
  | 1 => ReadBy unary 1 1 ts e
  | j + 2 =>
    match levels[j]? with
    | some ops => ∀ f rest, Ends (j + 1) rest → 4 * ts.length ≤ f + 1 →
      ∃ n, rest.length ≤ n ∧ (operators f (j + 1)).run (code ts ++ rest) =
        (chain ops (operators f j) n e).run rest
    | none => ReadBy expression 8 0 ts e

/-- The tokens are read as the expression in places for expressions up to the looseness. -/
structure Denotes (ts : List Token) (e : Expr) (k : Nat) : Prop where
  opens : Opens ts
  read : IsReadIn ts e k

theorem run_expression_of_operation {f : Nat} {items rest : List Item} {e : Expr}
    (hends : Ends 8 rest) (h : (operation (unary f)).run items = .ok (e, rest)) :
    (expression (f + 1)).run items = .ok (e, rest) := by
  have hquestion : headToken? rest ≠ some (.mark .question) :=
    fun he => absurd (hends _ he) (by decide)
  rw [expression, run_bind_of_ok h, run_bind_of_ok (run_eat_of_ne hquestion)]
  rfl

namespace Denotes

variable {ts : List Token} {e : Expr} {k : Nat}

theorem isRead_operator {j : Nat} {ops : Operators} (h : Denotes ts e (j + 2))
    (hops : levels[j]? = some ops) {f : Nat} {rest : List Item} (hends : Ends (j + 1) rest)
    (hf : 4 * ts.length ≤ f + 1) : ∃ n, rest.length ≤ n ∧
      (operators f (j + 1)).run (code ts ++ rest) = (chain ops (operators f j) n e).run rest := by
  have hread := h.read
  rw [IsReadIn, hops] at hread
  exact hread f rest hends hf

theorem readBy_operators (h : Denotes ts e (k + 1)) (hk : k ≤ 6) :
    ReadBy (operators · k) (k + 1) 1 ts e := by
  cases k with
  | zero => exact h.read
  | succ j =>
    intro f rest hends hf
    have hops := List.getElem?_eq_getElem (show j < levels.length from hk)
    obtain ⟨n, -, hrun⟩ := h.isRead_operator hops (hends.mono (Nat.le_succ _)) hf
    exact hrun.trans
      (run_chain_of_ends (fun m hm => operator_eq_none hops (Nat.ne_of_lt (hends m hm))) n e)

theorem readBy_expression (h : Denotes ts e (k + 8)) : ReadBy expression 8 0 ts e :=
  h.read

/-! ### Tighter places -/

theorem isRead_unary (h : Denotes ts e 0) : ReadBy unary 1 1 ts e := by
  intro f rest hends hf
  have hpos := h.opens.length_pos
  obtain ⟨f, rfl⟩ : ∃ f', f = f' + 1 := ⟨f - 1, by omega⟩
  have harrow : headToken? rest ≠ some (.mark .arrow) := fun he => absurd (hends _ he) (by decide)
  obtain ⟨g, hg, hrun⟩ := h.read f rest harrow hf
  obtain ⟨g, rfl⟩ : ∃ g', g = g' + 1 := ⟨g - 1, by omega⟩
  exact hrun.trans (run_suffixes_of_ends hends g e)

theorem isRead_operation (h : Denotes ts e 7) : ReadBy expression 8 0 ts e := by
  intro f rest hends hf
  have hpos := h.opens.length_pos
  obtain ⟨f, rfl⟩ : ∃ f', f = f' + 1 := ⟨f - 1, by omega⟩
  exact run_expression_of_operation hends
    (h.readBy_operators (Nat.le_refl _) f rest (hends.mono (by decide)) hf)

theorem loosen (h : Denotes ts e k) : Denotes ts e (k + 1) where
  opens := h.opens
  read := by
    cases k with
    | zero => exact h.isRead_unary
    | succ k =>
      show IsReadIn ts e (k + 2)
      rw [IsReadIn]
      cases hops : levels[k]? with
      | some ops =>
        intro f rest hends hf
        have hlt : k < 6 := (List.getElem?_eq_some_iff.1 hops).1
        refine ⟨rest.length, Nat.le_refl _, ?_⟩
        rw [operators_succ hops, level,
          run_bind_of_ok (h.readBy_operators (Nat.le_of_lt hlt) f rest hends hf)]
        rfl
      | none =>
        have hge : 6 ≤ k := List.getElem?_eq_none_iff.1 hops
        obtain ⟨k, rfl⟩ : ∃ i, k = i + 6 := ⟨k - 6, by omega⟩
        cases k with
        | zero => exact h.isRead_operation
        | succ k => exact h.readBy_expression

theorem mono {k' : Nat} (h : Denotes ts e k) (hk : k ≤ k') : Denotes ts e k' := by
  induction hk with
  | refl => exact h
  | step _ ih => exact ih.loosen

end Denotes

end StaticSite.Template
