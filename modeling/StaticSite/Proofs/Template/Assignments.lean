import StaticSite.Proofs.Template.Constructs
import StaticSite.Proofs.Template.Scopes

/-!
# Compound assignments

`x += e` evaluates `e` and then reads `x`, while `x = x + (e)` reads `x` and then evaluates `e`. So
both succeed or both fail, and they are one and the same run as long as `e` leaves the value of `x`
alone (`compoundAssignment_expands`), which it does if it has no `x++`, `--x` and the like, also not
in an arrow (`Run.moves_of_notMem_stepped`). With `x += x++` they differ
(`compoundAssignment_differs`).
-/

namespace StaticSite.Template

open Parse

/-! ## The value of a variable -/

namespace Scope

/-- The scopes have as many frames, and each the same value of a name, if any. -/
structure SameValue (name : String) (s s' : Scope) : Prop where
  inner : s'.inner.map (Fields.get? · name) = s.inner.map (Fields.get? · name)
  base : Fields.get? s'.base name = Fields.get? s.base name

variable {name : String} {s s' : Scope}

instance : IsPreorder Scope (SameValue name) where
  refl _ := ⟨rfl, rfl⟩
  trans _ _ _ h h' := ⟨h'.inner.trans h.inner, h'.base.trans h.base⟩

theorem SameValue.pop (h : SameValue name s s') : SameValue name s.pop s'.pop where
  inner := by
    show s'.inner.tail.map (Fields.get? · name) = s.inner.tail.map (Fields.get? · name)
    rw [List.map_tail, List.map_tail, h.inner]
  base := h.base

theorem SameValue.get?_eq (h : SameValue name s s') : s'.get? name = s.get? name := by
  have frames (t : Scope) : t.get? name =
      (t.inner.map (Fields.get? · name) ++ [Fields.get? t.base name]).findSome? id := by
    simp [get?, List.findSome?_append, List.findSome?_map]
  rw [frames, frames, h.inner, h.base]

/-- Assigning another name keeps the value. -/
theorem sameValue_assign {other : String} (h : other ≠ name) (s : Scope) (v : Value) :
    SameValue name s (s.assign other v) := by
  have writes (f : Frame) : Fields.get? (Fields.insert other v f) name = Fields.get? f name :=
    Fields.get?_insert_of_ne h.symm v f
  unfold assign
  split
  · rename_i inner hi
    exact ⟨map_of_assignIn (fun f _ => writes f) hi, rfl⟩
  · exact ⟨rfl, writes s.base⟩

end Scope

/-- Stepping another variable keeps the value. -/
theorem Run.moves_stepName {name other : String} (h : other ≠ name) (up first : Bool) (s : State) :
    Run.Moves (Scope.SameValue name) (stepName other up first) s :=
  (Run.moves_lookup other s).bind fun _ _ _ =>
    Run.Moves.bind (Scope.sameValue_assign h _ _) fun _ _ _ => .pure _

/-- An expression that does not step a variable keeps its value in every frame, whether it yields a
value or fails. -/
theorem Run.moves_of_notMem_stepped {name : String} {e : Expr} (h : name ∉ e.stepped) (s : State) :
    Run.Moves (Scope.SameValue name) (eval e) s := by
  let L : Run.BasicLogic := .moving (R := Scope.SameValue name) fun h => h.pop
  have steps : L.Steps e.stepped := fun other hm up first =>
    Run.moves_stepName (ne_of_mem_of_not_mem hm h) up first
  exact Run.BasicLogic.eval e steps s

/-! ## Runs of assignments -/

/-- The operator with which an assignment joins the old value of its variable and the assigned
one. -/
def AssignOp.operator? : AssignOp → Option BinaryOp
  | .set => none
  | .add => some .add
  | .sub => some .sub

/-- A compound assignment written out, as in `x = x + (e)`. -/
def Stmt.expansion (name : String) (bop : BinaryOp) (e : Expr) : Stmt :=
  .assign name .set (.binary bop (.name name) e)

section Runs

variable {limit : Nat} {name : String} {op : AssignOp} {bop : BinaryOp} {e : Expr} {s s' : State}
  {v old : Value} {fault : Fault}

theorem run_lookup_of_some (h : s.scope.get? name = some v) :
    (Run.lookup name).run.run s = (.ok v, s) := by
  unfold Run.lookup
  rw [Task.run_bind, show (Run.scope).run.run s = (.ok s.scope, s) from rfl]
  simp only [h]
  rfl

theorem run_lookup_of_none (h : s.scope.get? name = none) :
    (Run.lookup name).run.run s = (.error (.undefinedName name), s) := by
  unfold Run.lookup
  rw [Task.run_bind, show (Run.scope).run.run s = (.ok s.scope, s) from rfl]
  simp only [h]
  rfl

/-- A name is assigned a value. -/
def State.assign (s : State) (name : String) (v : Value) : State :=
  { s with scope := s.scope.assign name v }

theorem run_assign_of_error (h : (eval e).run.run s = (.error fault, s')) :
    (exec limit (.assign name op e)).run.run s = (.error fault, s') := by
  rw [exec, Task.run_bind, h]

theorem run_set (h : (eval e).run.run s = (.ok v, s')) :
    (exec limit (.assign name .set e)).run.run s = (.ok .normal, s'.assign name v) := by
  rw [exec, Task.run_bind, h]
  rfl

theorem assigned_of_operator? (h : op.operator? = some bop) (v : Value) :
    assigned name op v = do return bop.apply (← Run.lookup name) v := by
  cases op <;> cases h <;> rfl

/-- A compound assignment reads its variable in the state that the assigned expression leaves. -/
theorem run_compound_of_some (hop : op.operator? = some bop) (h : (eval e).run.run s = (.ok v, s'))
    (hold : s'.scope.get? name = some old) : (exec limit (.assign name op e)).run.run s =
      (.ok .normal, s'.assign name (bop.apply old v)) := by
  rw [exec, Task.run_bind, h]
  dsimp only
  rw [assigned_of_operator? hop, Task.run_bind, Task.run_bind, run_lookup_of_some hold]
  rfl

theorem run_compound_of_none (hop : op.operator? = some bop) (h : (eval e).run.run s = (.ok v, s'))
    (hold : s'.scope.get? name = none) : (exec limit (.assign name op e)).run.run s =
      (.error (.undefinedName name), s') := by
  rw [exec, Task.run_bind, h]
  dsimp only
  rw [assigned_of_operator? hop, Task.run_bind, Task.run_bind, run_lookup_of_none hold]

theorem run_operation (h : s.scope.get? name = some old) :
    (eval (.binary bop (.name name) e)).run.run s =
    (do return bop.apply old (← eval e) : Run Value).run.run s := by
  rw [eval, eval, Task.run_bind, run_lookup_of_some h]

theorem run_expansion_of_none (h : s.scope.get? name = none) :
    (exec limit (.expansion name bop e)).run.run s = (.error (.undefinedName name), s) := by
  refine run_assign_of_error ?_
  rw [eval, eval, Task.run_bind, run_lookup_of_none h]

/-- The expansion of a compound assignment reads its variable in the state before the assignment. -/
theorem run_expansion_of_ok (hold : s.scope.get? name = some old)
    (h : (eval e).run.run s = (.ok v, s')) :
    (exec limit (.expansion name bop e)).run.run s =
      (.ok .normal, s'.assign name (bop.apply old v)) := by
  refine run_set ?_
  rw [run_operation hold, Task.run_bind, h]
  rfl

theorem run_expansion_of_error (hold : s.scope.get? name = some old)
    (h : (eval e).run.run s = (.error fault, s')) :
    (exec limit (.expansion name bop e)).run.run s = (.error fault, s') := by
  refine run_assign_of_error ?_
  rw [run_operation hold, Task.run_bind, h]

end Runs

/-! ## Reading assignments -/

section Reading

variable {m : Mark} {op : AssignOp} {bop : BinaryOp} {name : String} {ts : List Token} {e : Expr}
  {f : Nat} {rest : List Item}

theorem run_simpleStatement_assign (hm : assignOp? m = some op) (name : String) (h : Denotes ts e 9)
    (hends : Ends 8 rest) (hf : 4 * ts.length ≤ f) :
    (simpleStatement (expression f)).run (code (.name name :: .mark m :: ts) ++ rest) =
      .ok (.assign name op e, rest) := by
  have target : assignment?.run (code (.name name :: .mark m :: ts) ++ rest) =
      .ok (some (name, op), code (.name name :: .mark m :: ts) ++ rest) := by
    show Except.ok ((assignOp? m).map (name, ·), _) = _
    rw [hm]
    rfl
  rw [simpleStatement, run_bind_of_ok target]
  show ((skip 2 >>= fun _ => _ : Parse Stmt).run _) = _
  rw [run_bind_of_ok (show (skip 2).run _ = .ok ((), code ts ++ rest) from rfl),
    run_bind_of_ok (h.readBy_expression f rest hends hf)]
  rfl

/-- The name, the operator and the expression in parentheses denote the operation. -/
theorem denotes_operation (hop : op.operator? = some bop) (hname : IsVariable name)
    (h : Denotes ts e 9) :
    Denotes (.name name :: .mark bop.mark :: grouped ts) (.binary bop (.name name) e) 9 := by
  have left : Denotes [.name name] (.name name) 0 := by
    have hn := denotes_name (s := name) fun he => hname.notKeyword (he ▸ by decide)
    rwa [nameExpr_of_isVariable hname] at hn
  refine (denotes_binary bop (left.mono (Nat.zero_le _))
    ((denotes_grouped h).mono (Nat.zero_le _))).mono ?_
  cases op <;> cases hop <;> decide

end Reading

/-! ## Expansions -/

section Expansions

variable {op : AssignOp} {bop : BinaryOp} {name : String} {s s' : State} {v : Value}

/-- Expressions neither give a variable its first value nor take its value away. -/
theorem isSome_get?_of_eval {e : Expr} (name : String) {outcome : Except Fault Value}
    (h : (eval e).run.run s = (outcome, s')) : (s'.scope.get? name).isSome ↔
    (s.scope.get? name).isSome := by
  have same : Scope.SameNames s.scope s'.scope := by
    have hs := eval_moves e s
    rwa [Run.Moves, h] at hs
  have visible (t : Scope) :
      (t.get? name).isSome ↔ (∃ p ∈ t.inner.map Fields.has, p name = true) ∨
      Fields.has t.base name := by
    rw [Scope.isSome_get?]
    simp
  rw [visible, visible, same.inner, same.base]

/-- With a value for the variable, both statements fail as the assigned expression does, or the one
uses the value that the variable has after the expression and the other the value before it. -/
theorem run_assignments_of_some {old : Value} (hop : op.operator? = some bop)
    (hold : s.scope.get? name = some old) (limit : Nat) (e : Expr) :
    let compound := (exec limit (.assign name op e)).run.run s
    let expanded := (exec limit (.expansion name bop e)).run.run s
    (∃ fault s', (eval e).run.run s = (.error fault, s') ∧ compound = (.error fault, s') ∧
      expanded = (.error fault, s')) ∨
    ∃ v s' new, (eval e).run.run s = (.ok v, s') ∧ s'.scope.get? name = some new ∧
      compound = (.ok .normal, s'.assign name (bop.apply new v)) ∧
      expanded = (.ok .normal, s'.assign name (bop.apply old v)) := by
  intro compound expanded
  rcases he : (eval e).run.run s with ⟨fault | v, s'⟩
  · exact .inl ⟨fault, s', rfl, run_assign_of_error he, run_expansion_of_error hold he⟩
  · have visible : (s'.scope.get? name).isSome := by
      rw [isSome_get?_of_eval name he, hold]
      rfl
    obtain ⟨new, hnew⟩ := Option.isSome_iff_exists.1 visible
    exact .inr ⟨v, s', new, rfl, hnew, run_compound_of_some hop he hnew,
      run_expansion_of_ok hold he⟩

/-- Without a value for the variable, both statements fail, the expansion before the assigned
expression. -/
theorem run_assignments_of_none (hop : op.operator? = some bop) (hold : s.scope.get? name = none)
    (limit : Nat) (e : Expr) :
    (∃ fault, (exec limit (.assign name op e)).run.run s = (.error fault, ((eval e).run.run s).2)) ∧
      (exec limit (.expansion name bop e)).run.run s = (.error (.undefinedName name), s) := by
  refine ⟨?_, run_expansion_of_none hold⟩
  rcases he : (eval e).run.run s with ⟨fault | v, s'⟩
  · exact ⟨fault, run_assign_of_error he⟩
  · have hidden : s'.scope.get? name = none := by
      have hv := isSome_get?_of_eval name he
      rw [hold] at hv
      simpa using hv
    exact ⟨.undefinedName name, run_compound_of_none hop he hidden⟩

end Expansions

/-- The text of a compound assignment and the one of its expansion are read as they should. Both
statements succeed or both fail. If the variable has a value, they have the same outcome, they do
the same as long as the assigned expression leaves that value as it was, and otherwise the one uses
the value after the expression and the other the value before it. An expression leaves the value of
every variable that it does not step. If the variable has no value, both fail, the expansion at once
and the compound assignment after the expression. -/
theorem compoundAssignment_expands {m : Mark} {op : AssignOp} {bop : BinaryOp}
    (hm : assignOp? m = some op) (hop : op.operator? = some bop) (name : String) (e : Expr) :
    (∀ ts f rest, IsVariable name → Denotes ts e 9 → Ends 8 rest → 4 * (ts.length + 4) ≤ f →
      (simpleStatement (expression f)).run (code (.name name :: .mark m :: ts) ++ rest) =
        .ok (.assign name op e, rest) ∧
      (simpleStatement (expression f)).run
        (code (.name name :: .mark .assign :: .name name :: .mark bop.mark :: grouped ts) ++ rest) =
        .ok (.expansion name bop e, rest)) ∧
    ∀ limit s,
      let assigned := (eval e).run.run s
      let compound := (exec limit (.assign name op e)).run.run s
      let expanded := (exec limit (.expansion name bop e)).run.run s
      compound.1.isOk = expanded.1.isOk ∧
      (name ∉ e.stepped → assigned.2.scope.get? name = s.scope.get? name) ∧
      (∀ old, s.scope.get? name = some old → compound.1 = expanded.1 ∧
        (assigned.2.scope.get? name = some old → compound = expanded) ∧
        ∀ v s', assigned = (.ok v, s') → ∃ new, s'.scope.get? name = some new ∧
          compound = (.ok .normal, s'.assign name (bop.apply new v)) ∧
          expanded = (.ok .normal, s'.assign name (bop.apply old v))) ∧
      (s.scope.get? name = none → expanded = (.error (.undefinedName name), s) ∧
        compound.2 = assigned.2) := by
  refine ⟨fun ts f rest hname hts hends hf => ⟨?_, ?_⟩, fun limit s => ?_⟩
  · exact run_simpleStatement_assign hm name hts hends (by omega)
  · refine run_simpleStatement_assign (m := .assign) rfl name
      (denotes_operation hop hname hts) hends ?_
    simp only [grouped, List.length_cons, List.length_append, List.length_nil]
    omega
  · intro assigned compound expanded
    have leaves (h : name ∉ e.stepped) : assigned.2.scope.get? name = s.scope.get? name :=
      (Run.moves_of_notMem_stepped h s).get?_eq
    rcases hold : s.scope.get? name with _ | old
    · obtain ⟨⟨fault, hc⟩, hx⟩ := run_assignments_of_none hop hold limit e
      have outcome : compound.1.isOk = expanded.1.isOk := by
        rw [show compound = _ from hc, show expanded = _ from hx]
        rfl
      exact ⟨outcome, fun h => (leaves h).trans hold,
        fun _ ho => (Option.some_ne_none _ ho.symm).elim, fun _ => ⟨hx, congrArg Prod.snd hc⟩⟩
    · have unset (h : some old = none) :
          expanded = (.error (.undefinedName name), s) ∧ compound.2 = assigned.2 :=
        (Option.some_ne_none old h).elim
      rcases run_assignments_of_some hop hold limit e with
        ⟨fault, s', he, hc, hx⟩ | ⟨v, s', new, he, hnew, hc, hx⟩
      · have same : compound = expanded := hc.trans hx.symm
        refine ⟨congrArg (·.1.isOk) same, fun h => (leaves h).trans hold, ?_, unset⟩
        refine fun _ _ => ⟨congrArg Prod.fst same, fun _ => same, fun v s' hok => ?_⟩
        cases he.symm.trans hok
      · have outcome : compound.1 = expanded.1 :=
          (congrArg Prod.fst hc).trans (congrArg Prod.fst hx).symm
        refine ⟨congrArg Except.isOk outcome, fun h => (leaves h).trans hold, ?_, unset⟩
        rintro _ ⟨⟩
        refine ⟨outcome, fun kept => ?_, fun v' s'' hok => ?_⟩
        · rw [show assigned = _ from he, hnew] at kept
          cases kept
          exact hc.trans hx.symm
        · cases he.symm.trans hok
          exact ⟨new, hnew, hc, hx⟩

/-- Stepping another variable in the assigned expression. -/
theorem compoundAssignment_expands_stepping_other :
    let s : State := ⟨⟨[[("y", .number 2)]], [("x", .number 1)]⟩, 0, []⟩
    let e : Expr := .update "y" true false
    let compound := (exec 5 (.assign "x" .sub e)).run.run s
    assignOp? .minusAssign = some .sub ∧ AssignOp.sub.operator? = some .sub ∧
      compound = (exec 5 (.expansion "x" .sub e)).run.run s ∧
      (compound.2.scope.get? "x").map Value.toText = some "-1" ∧
      (compound.2.scope.get? "y").map Value.toText = some "3" := by
  intro s e compound
  obtain ⟨-, runs⟩ := compoundAssignment_expands (m := .minusAssign) rfl rfl "x" e
  obtain ⟨-, leaves, valued, -⟩ := runs 5 s
  obtain ⟨-, same, -⟩ := valued (.number 1) rfl
  exact ⟨rfl, rfl, same ((leaves (by decide)).trans rfl), rfl, rfl⟩

/-- Stepping the variable itself. -/
theorem compoundAssignment_differs :
    let s : State := ⟨⟨[], [("x", .number 1)]⟩, 0, []⟩
    let e : Expr := .update "x" true false
    let value (a : Stmt) := (((exec 5 a).run.run s).2.scope.get? "x").map Value.toText
    value (.assign "x" .add e) = some "3" ∧ value (.expansion "x" .add e) = some "2" :=
  ⟨rfl, rfl⟩

end StaticSite.Template
