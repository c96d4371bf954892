import Mathlib.Logic.Relation
import StaticSite.Proofs.Task
import StaticSite.Template.Eval

/-!
# Where a run comes to

A statement runs parts of itself: a branch one of its two sides, a block its statements, a loop its
body in each round and the header of a three-part one (`PartAt`). All loops run rounds in turn, for
the items that are left or as long as a test holds (`Run.inTurn`, with an equation of `exec` for
each loop). Hence `Reaches limit program s depth t s'`: run from `s`, the statements `program` come
to run `t` in `s'`, inside `depth` loop bodies. The relation speaks of what begins to run, whatever
it ends in.
-/

namespace StaticSite.Template

/-! ## Frames -/

/-- The state when a block is entered. -/
def State.push (s : State) : State :=
  { s with scope := s.scope.push }

/-- The state when a block is left. -/
def State.pop (s : State) : State :=
  { s with scope := s.scope.pop }

/-- The state in which a round for an item begins its body. -/
def State.enter (s : State) (binding : String) (v : Value) : State :=
  { s.push with scope := s.push.scope.declare binding v }

section Rounds

variable {α ι : Type}

theorem Run.run_inFrame (x : Run α) (s : State) :
    (Run.inFrame x).run.run s = ((x.run.run s.push).1, (x.run.run s.push).2.pop) := rfl

/-! ## Rounds -/

/-- Runs a step for each item in turn until one answers `false`, and `last` when none does. -/
def Run.inTurn (step : ι → Run Bool) (last : Run Unit) : List ι → Run Unit
  | [] => last
  | i :: rest => do
    if ← step i then Run.inTurn step last rest

/-- A step for the first item after which the others follow. -/
inductive Run.Turn (step : ι → Run Bool) : List ι × State → List ι × State → Prop where
  | mk {i : ι} {rest : List ι} {s s' : State} (h : (step i).run.run s = (.ok true, s')) :
      Run.Turn step (i :: rest, s) (rest, s')

/-- Some rounds of a loop one after the other. -/
abbrev Run.Turns (step : ι → Run Bool) : List ι × State → List ι × State → Prop :=
  Relation.ReflTransGen (Run.Turn step)

theorem Run.inTurn_cons (step : ι → Run Bool) (last : Run Unit) (i : ι) (rest : List ι) :
    Run.inTurn step last (i :: rest) =
      step i >>= fun goesOn => if goesOn then Run.inTurn step last rest else pure () := rfl

/-- After some turns a run goes on as one of the items that are left. -/
theorem Run.run_inTurn_of_turns {step : ι → Run Bool} {last : Run Unit} {p q : List ι × State}
    (h : Run.Turns step p q) :
    (Run.inTurn step last p.1).run.run p.2 = (Run.inTurn step last q.1).run.run q.2 := by
  induction h with
  | refl => rfl
  | tail _ ht ih =>
    rw [ih]
    obtain ⟨h⟩ := ht
    rw [Run.inTurn_cons, Task.run_bind, h]
    rfl

end Rounds

/-- A round of `for … of` and `for … in`. -/
def eachRound (binding : String) (body : Run Flow) (v : Value) : Run Bool := do
  let flow ← Run.inFrame do
    Run.onScope (·.declare binding v)
    body
  return flow ≠ .break

/-- A round of a three-part `for`. -/
def forRound (limit : Nat) (test : Option Expr) (step body : Stmt) : Run Bool := do
  if ← evalTest test then
    if (← exec limit body) = .break then return false
    else
      let _ ← exec limit step
      return true
  else return false

/-- A round of `while`. -/
def whileRound (limit : Nat) (test : Expr) (body : Stmt) : Run Bool := do
  if (← eval test).isTruthy then return (← exec limit body) ≠ .break
  else return false

theorem forEach_eq_inTurn (binding : String) (body : Run Flow) (items : List Value) :
    forEach binding body items = Run.inTurn (eachRound binding body) (pure ()) items := by
  induction items with
  | nil => rfl
  | cons v rest ih =>
    rw [forEach, Run.inTurn_cons, eachRound, bind_assoc, ih]
    refine bind_congr fun flow => ?_
    cases flow <;> simp

theorem repeatWhile_eq_inTurn (round : Run Bool) (limit : Nat) :
    Run.repeatWhile round limit =
      Run.inTurn (fun _ => round) (Run.fail .exhausted) (List.replicate limit ()) := by
  induction limit with
  | zero => rfl
  | succ limit ih =>
    rw [Run.repeatWhile, ih]
    rfl

section Equations

variable (limit : Nat)

theorem exec_forOf (binding : String) (source : Expr) (body : Stmt) :
    exec limit (.forOf binding source body) = do
      let items ← eval source >>= iterate
      Run.inTurn (eachRound binding (exec limit body)) (pure ()) items
      return .normal := by
  rw [exec, bind_assoc]
  simp only [forEach_eq_inTurn]

theorem exec_forIn (binding : String) (source : Expr) (body : Stmt) :
    exec limit (.forIn binding source body) = do
      let v ← eval source
      Run.inTurn (eachRound binding (exec limit body)) (pure ()) (v.ownKeys.map .string)
      return .normal := by
  rw [exec]
  simp only [forEach_eq_inTurn]

theorem exec_forLoop (start : Stmt) (test : Option Expr) (step body : Stmt) :
    exec limit (.forLoop start test step body) = Run.inFrame do
      let _ ← exec limit start
      Run.inTurn (fun _ => forRound limit test step body) (Run.fail .exhausted)
        (List.replicate limit ())
      return .normal := by
  rw [exec]
  simp only [repeatWhile_eq_inTurn]
  rfl

theorem exec_whileLoop (test : Expr) (body : Stmt) :
    exec limit (.whileLoop test body) = do
      Run.inTurn (fun _ => whileRound limit test body) (Run.fail .exhausted)
        (List.replicate limit ())
      return .normal := by
  rw [exec]
  simp only [repeatWhile_eq_inTurn]
  rfl

theorem execAll_singleton (s : Stmt) : execAll limit [s] = exec limit s := by
  rw [execAll]
  refine (bind_congr fun flow => ?_).trans (bind_pure (exec limit s))
  split
  · rename_i h
    rw [execAll, h]
  · rfl

end Equations

/-! ## Parts -/

/-- The loop that runs from the first state begins its body in the second one, in one of its
rounds. -/
inductive BodyAt (limit : Nat) : Stmt → State → Stmt → State → Prop where
  | forOf {binding : String} {source : Expr} {body : Stmt} {s s₁ s₂ : State}
      {items rest : List Value}
      {v : Value} (hi : (eval source >>= iterate).run.run s = (.ok items, s₁))
      (ht : Run.Turns (eachRound binding (exec limit body)) (items, s₁) (v :: rest, s₂)) :
      BodyAt limit (.forOf binding source body) s body (s₂.enter binding v)
  | forIn {binding : String} {source : Expr} {body : Stmt} {s s₁ s₂ : State} {rest : List Value}
      {v key : Value} (hv : (eval source).run.run s = (.ok v, s₁))
      (ht : Run.Turns (eachRound binding (exec limit body)) (v.ownKeys.map .string, s₁)
        (key :: rest, s₂)) :
      BodyAt limit (.forIn binding source body) s body (s₂.enter binding key)
  | forLoop {start : Stmt} {test : Option Expr} {step body : Stmt} {s s₁ s₂ s₃ : State}
      {flow : Flow} {rest : List Unit} (hs : (exec limit start).run.run s.push = (.ok flow, s₁))
      (ht : Run.Turns (fun _ => forRound limit test step body) (List.replicate limit (), s₁)
        (() :: rest, s₂))
      (hc : (evalTest test).run.run s₂ = (.ok true, s₃)) :
      BodyAt limit (.forLoop start test step body) s body s₃
  | whileLoop {test : Expr} {body : Stmt} {s s₁ s₂ : State} {rest : List Unit} {v : Value}
      (ht : Run.Turns (fun _ => whileRound limit test body) (List.replicate limit (), s)
        (() :: rest, s₁))
      (hv : (eval test).run.run s₁ = (.ok v, s₂)) (hc : v.isTruthy) :
      BodyAt limit (.whileLoop test body) s body s₂

/-- The statement that runs from the first state begins to run some of its own in the second one.
The number is one for the body of a loop and zero for all else. -/
inductive PartAt (limit : Nat) : Stmt → State → Nat → List Stmt → State → Prop where
  | branch {test : Expr} {yes no : Stmt} {s s' : State} {v : Value}
      (hv : (eval test).run.run s = (.ok v, s')) :
      PartAt limit (.branch test yes no) s 0 [if v.isTruthy then yes else no] s'
  | block {body : List Stmt} {s : State} : PartAt limit (.block body) s 0 body s.push
  | body {loop body : Stmt} {s s' : State} (hb : BodyAt limit loop s body s') :
      PartAt limit loop s 1 [body] s'
  | start {start : Stmt} {test : Option Expr} {step body : Stmt} {s : State} :
      PartAt limit (.forLoop start test step body) s 0 [start] s.push
  | step {start : Stmt} {test : Option Expr} {step body : Stmt} {s s₁ s₂ : State} {flow : Flow}
      (hb : BodyAt limit (.forLoop start test step body) s body s₁)
      (hr : (exec limit body).run.run s₁ = (.ok flow, s₂)) (hf : flow ≠ .break) :
      PartAt limit (.forLoop start test step body) s 0 [step] s₂

/-- Statements that run from the first state come to run a statement in the second one, inside as
many loop bodies as the number says. -/
inductive Reaches (limit : Nat) : List Stmt → State → Nat → Stmt → State → Prop where
  | here {t : Stmt} {rest : List Stmt} {s : State} : Reaches limit (t :: rest) s 0 t s
  | inside {a t : Stmt} {part rest : List Stmt} {s s₁ s' : State} {inner depth : Nat}
      (hp : PartAt limit a s inner part s₁) (h : Reaches limit part s₁ depth t s') :
      Reaches limit (a :: rest) s (inner + depth) t s'
  | later {a t : Stmt} {rest : List Stmt} {s s₁ s' : State} {depth : Nat}
      (ha : (exec limit a).run.run s = (.ok .normal, s₁)) (h : Reaches limit rest s₁ depth t s') :
      Reaches limit (a :: rest) s depth t s'

/-- What a first statement comes to, the statements that begin with it come to. -/
theorem Reaches.of_first {limit : Nat} {a t : Stmt} {rest : List Stmt} {s s' : State} {depth : Nat}
    (h : Reaches limit [a] s depth t s') : Reaches limit (a :: rest) s depth t s' := by
  cases h with
  | here => exact .here
  | inside hp h => exact .inside hp h
  | later _ h => cases h

end StaticSite.Template
