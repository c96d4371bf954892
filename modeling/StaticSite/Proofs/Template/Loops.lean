import Mathlib
import StaticSite.Template.Basic
import StaticSite.Proofs.Template.Headers
import StaticSite.Proofs.Template.Logic
import StaticSite.Proofs.Template.Reaching

/-!
# Breaks and continues

How control leaves a statement, by the `break` or `continue` that its run comes to (`Reaches`):
outside of loop bodies the statement ends there (`Reaches.stops`, `exists_reaches`), and a loop
takes both for its own, so that each loop that ends yields normal flow (`flow_of_endsNormally`). No
statement fails for a stray `break` or `continue` by itself (`exec_failsBy`), hence a template does
so exactly when its run comes to one outside of all loop bodies. The main result is `loop_control`.
-/

namespace StaticSite.Template

/-! ## Failures -/

section Failures

variable {α β ι : Type} {P : Fault → Prop}

/-- Every failure of a run is for a reason that satisfies `P`. -/
def Run.FailsBy (P : Fault → Prop) (x : Run α) : Prop :=
  ∀ s fault s', x.run.run s = (.error fault, s') → P fault

theorem Run.FailsBy.pure (a : α) : Run.FailsBy P (Pure.pure a : Run α) :=
  fun _ _ _ h => by cases h

theorem Run.FailsBy.fail {fault : Fault} (h : P fault) : Run.FailsBy P (Run.fail fault : Run α) :=
  fun _ _ _ hr => by
    cases hr
    exact h

theorem Run.FailsBy.change (f : State → State) : Run.FailsBy P (modify f : Run PUnit) :=
  fun _ _ _ h => by cases h

theorem Run.FailsBy.bindYield {x : Run α} {f : α → Run β} (hx : Run.FailsBy P x)
    (hf : ∀ a, x.CanYield a → Run.FailsBy P (f a)) : Run.FailsBy P (x >>= f) := by
  intro s fault s' h
  rw [Task.run_bind] at h
  rcases hr : x.run.run s with ⟨cause | a, s₁⟩
  · rw [hr] at h
    cases h
    exact hx s _ _ hr
  · rw [hr] at h
    exact hf a ⟨s, s₁, hr⟩ s₁ fault s' h

theorem Run.FailsBy.bind {x : Run α} {f : α → Run β} (hx : Run.FailsBy P x)
    (hf : ∀ a, Run.FailsBy P (f a)) : Run.FailsBy P (x >>= f) :=
  hx.bindYield fun a _ => hf a

theorem Run.FailsBy.ite {c : Prop} [Decidable c] {x y : Run α} (hx : Run.FailsBy P x)
    (hy : Run.FailsBy P y) : Run.FailsBy P (if c then x else y) := by
  split
  · exact hx
  · exact hy

theorem Run.FailsBy.inFrame {x : Run α} (hx : Run.FailsBy P x) : Run.FailsBy P (Run.inFrame x) := by
  intro s fault s' h
  rw [Run.run_inFrame] at h
  exact hx s.push fault _ (Prod.ext (Prod.mk.inj h).1 rfl)

theorem Run.FailsBy.inTurn {step : ι → Run Bool} {last : Run Unit}
    (hs : ∀ i, Run.FailsBy P (step i))
    (hl : Run.FailsBy P last) : ∀ items, Run.FailsBy P (Run.inTurn step last items)
  | [] => hl
  | i :: rest => (hs i).bind fun _ => .ite (Run.FailsBy.inTurn hs hl rest) (.pure _)

theorem Run.FailsBy.mono {Q : Fault → Prop} {x : Run α} (hx : Run.FailsBy P x)
    (h : ∀ fault, P fault → Q fault) :
    Run.FailsBy Q x :=
  fun s fault s' hr => h fault (hx s fault s' hr)

end Failures

/-- Runs that fail only for reasons that expressions have. -/
def Run.Logic.faults : Run.Logic where
  holds := Run.FailsBy Fault.IsOfExpr
  pure := .pure
  fail h := .fail h
  bind := .bindYield
  scope _ _ _ h := by cases h
  freshRef _ _ _ h := by cases h
  adopt _ _ _ _ h := by cases h
  stepName name up first := by
    refine Run.FailsBy.bind (.bind (fun _ _ _ h => by cases h) fun scope => ?_) fun _ =>
      (Run.FailsBy.change _).bind fun _ => .pure _
    split
    · exact .pure _
    · exact .fail trivial
  invoke _ _ _ h := .inFrame ((Run.FailsBy.change _).bind fun _ => h)

/-- A reason for which a statement can fail. -/
def Fault.IsOfStmt (fault : Fault) : Prop :=
  fault.IsOfExpr ∨ fault = .exhausted

theorem eval_failsBy (e : Expr) : Run.FailsBy Fault.IsOfStmt (eval e) :=
  Run.FailsBy.mono (Run.Logic.faults.eval e) fun _ => .inl

theorem lookup_failsBy (name : String) : Run.FailsBy Fault.IsOfStmt (Run.lookup name) :=
  Run.FailsBy.mono (Run.Logic.faults.lookup name) fun _ => .inl

theorem iterate_failsBy (v : Value) : Run.FailsBy Fault.IsOfStmt (iterate v) := by
  unfold iterate
  split
  · exact .pure _
  · exact .pure _
  · exact .fail (.inl trivial)

theorem evalTest_failsBy (test : Option Expr) : Run.FailsBy Fault.IsOfStmt (evalTest test) := by
  cases test with
  | none => exact .pure _
  | some e => exact (eval_failsBy e).bind fun _ => .pure _

theorem assigned_failsBy (name : String) (op : AssignOp) (v : Value) :
    Run.FailsBy Fault.IsOfStmt (assigned name op v) := by
  cases op with
  | set => exact .pure _
  | add => exact (lookup_failsBy name).bind fun _ => .pure _
  | sub => exact (lookup_failsBy name).bind fun _ => .pure _

theorem declareAll_failsBy : ∀ bindings, Run.FailsBy Fault.IsOfStmt (declareAll bindings)
  | [] => .pure _
  | (name, value) :: rest => by
    have tail (v : Value) : Run.FailsBy Fault.IsOfStmt
        (do Run.onScope (·.declare name v); declareAll rest : Run Unit) :=
      (Run.FailsBy.change _).bind fun _ => declareAll_failsBy rest
    cases value with
    | none => exact tail .undefined
    | some e => exact (eval_failsBy e).bind tail

theorem eachRound_failsBy {binding : String} {body : Run Flow} (h : Run.FailsBy Fault.IsOfStmt body)
    (v : Value) : Run.FailsBy Fault.IsOfStmt (eachRound binding body v) :=
  Run.FailsBy.bind (.inFrame ((Run.FailsBy.change _).bind fun _ => h)) fun _ => .pure _

section Statements

variable (limit : Nat)

mutual

theorem exec_failsBy : ∀ a : Stmt, Run.FailsBy Fault.IsOfStmt (exec limit a)
  | .text t => by
    rw [exec]
    exact (Run.FailsBy.change _).bind fun _ => .pure _
  | .output how e => by
    rw [exec]
    exact (eval_failsBy e).bind fun _ => (Run.FailsBy.change _).bind fun _ => .pure _
  | .declare bindings => by
    rw [exec]
    exact (declareAll_failsBy bindings).bind fun _ => .pure _
  | .assign name op e => by
    rw [exec]
    exact (eval_failsBy e).bind fun v => (assigned_failsBy name op v).bind fun _ =>
      (Run.FailsBy.change _).bind fun _ => .pure _
  | .expr e => by
    rw [exec]
    exact (eval_failsBy e).bind fun _ => .pure _
  | .branch test yes no => by
    rw [exec]
    exact (eval_failsBy test).bind fun _ => .ite (exec_failsBy yes) (exec_failsBy no)
  | .forOf binding source body => by
    rw [exec_forOf]
    exact Run.FailsBy.bind ((eval_failsBy source).bind iterate_failsBy) fun items =>
      (Run.FailsBy.inTurn (eachRound_failsBy (exec_failsBy body)) (.pure _) items).bind fun _ =>
        .pure _
  | .forIn binding source body => by
    rw [exec_forIn]
    exact (eval_failsBy source).bind fun v =>
      (Run.FailsBy.inTurn (eachRound_failsBy (exec_failsBy body)) (.pure _) _).bind fun _ => .pure _
  | .forLoop start test step body => by
    rw [exec_forLoop]
    have round : Run.FailsBy Fault.IsOfStmt (forRound limit test step body) :=
      (evalTest_failsBy test).bind fun _ => .ite ((exec_failsBy body).bind fun _ => .ite (.pure _)
        ((exec_failsBy step).bind fun _ => .pure _)) (.pure _)
    exact .inFrame ((exec_failsBy start).bind fun _ =>
      (Run.FailsBy.inTurn (fun _ => round) (.fail (.inr rfl)) _).bind fun _ => .pure _)
  | .whileLoop test body => by
    rw [exec_whileLoop]
    have round : Run.FailsBy Fault.IsOfStmt (whileRound limit test body) :=
      (eval_failsBy test).bind fun _ => .ite ((exec_failsBy body).bind fun _ => .pure _) (.pure _)
    exact (Run.FailsBy.inTurn (fun _ => round) (.fail (.inr rfl)) _).bind fun _ => .pure _
  | .block body => by
    rw [exec]
    exact .inFrame (execAll_failsBy body)
  | .breakLoop | .continueLoop | .empty => by
    rw [exec]
    exact .pure _

theorem execAll_failsBy : ∀ body : List Stmt, Run.FailsBy Fault.IsOfStmt (execAll limit body)
  | [] => by
    rw [execAll]
    exact .pure _
  | a :: rest => by
    rw [execAll]
    exact (exec_failsBy a).bind fun _ => .ite (execAll_failsBy rest) (.pure _)

end

end Statements

/-! ## Where control leaves -/

/-- How control leaves a `break` or a `continue`. -/
def Stmt.flow? : Stmt → Option Flow
  | .breakLoop => some .break
  | .continueLoop => some .continue
  | _ => none

/-- Whether a statement is a loop. -/
def Stmt.isLoop : Stmt → Bool
  | .forOf .. | .forIn .. | .forLoop .. | .whileLoop .. => true
  | _ => false

mutual

/-- Whether each `break` and `continue` of a statement stands in the body of a loop. -/
def Stmt.isConfined : Stmt → Bool
  | .breakLoop | .continueLoop => false
  | .branch _ yes no => yes.isConfined && no.isConfined
  | .forLoop start _ step _ => start.isConfined && step.isConfined
  | .block body => allConfined body
  | _ => true

/-- Whether some statements keep their breaks and continues to themselves. -/
def allConfined : List Stmt → Bool
  | [] => true
  | a :: rest => a.isConfined && allConfined rest

end

theorem Stmt.flow?_of_isConfined {a : Stmt} (h : a.isConfined) : a.flow? = none := by
  cases a <;> first | rfl | cases h

/-- The second state is the first one after some of the innermost frames are closed. -/
structure State.Closes (s s' : State) : Prop where
  inner : s'.scope.inner <:+ s.scope.inner
  base : s'.scope.base = s.scope.base
  next : s'.next = s.next
  written : s'.written = s.written

theorem State.Closes.refl (s : State) : s.Closes s :=
  ⟨List.suffix_refl _, rfl, rfl, rfl⟩

theorem State.Closes.trans {s s' s'' : State} (h : s.Closes s') (h' : s'.Closes s'') :
    s.Closes s'' :=
  ⟨h'.inner.trans h.inner, h'.base.trans h.base, h'.next.trans h.next, h'.written.trans h.written⟩

theorem State.closes_pop (s : State) : s.Closes s.pop :=
  ⟨List.tail_suffix _, rfl, rfl, rfl⟩

section Control

variable {limit : Nat} {s s₁ s' : State} {flow : Flow}

/-- Whether a statement that ends does so with normal flow, whatever it holds. -/
def Stmt.endsNormally : Stmt → Bool
  | .branch .. | .block _ | .breakLoop | .continueLoop => false
  | _ => true

theorem flow_of_endsNormally {a : Stmt} (ha : a.endsNormally)
    (h : (exec limit a).run.run s = (.ok flow, s')) : flow = .normal := by
  have last {α : Type} {x : Run α} {s s' : State}
      (h : (do let _ ← x; return Flow.normal).run.run s = (.ok flow, s')) : flow = .normal := by
    obtain ⟨_, _, -, h⟩ := Task.run_bind_eq_ok.1 h
    cases h
    rfl
  cases a with
  | text t =>
    rw [exec] at h
    exact last h
  | output how e =>
    rw [exec] at h
    obtain ⟨v, t, -, h⟩ := Task.run_bind_eq_ok.1 h
    exact last h
  | declare bindings =>
    rw [exec] at h
    exact last h
  | assign name op e =>
    rw [exec] at h
    obtain ⟨v, t, -, h⟩ := Task.run_bind_eq_ok.1 h
    obtain ⟨result, t, -, h⟩ := Task.run_bind_eq_ok.1 h
    exact last h
  | expr e =>
    rw [exec] at h
    exact last h
  | forOf binding source body =>
    rw [exec_forOf] at h
    obtain ⟨items, t, -, h⟩ := Task.run_bind_eq_ok.1 h
    exact last h
  | forIn binding source body =>
    rw [exec_forIn] at h
    obtain ⟨v, t, -, h⟩ := Task.run_bind_eq_ok.1 h
    exact last h
  | forLoop start test step body =>
    rw [exec_forLoop, Run.run_inFrame] at h
    obtain ⟨_, t, -, h⟩ := Task.run_bind_eq_ok.1 (Prod.ext (Prod.mk.inj h).1 rfl)
    exact last h
  | whileLoop test body =>
    rw [exec_whileLoop] at h
    exact last h
  | empty =>
    rw [exec] at h
    cases h
    rfl
  | branch test yes no => cases ha
  | block body => cases ha
  | breakLoop => cases ha
  | continueLoop => cases ha

theorem execAll_cons_of_normal {a : Stmt} (h : (exec limit a).run.run s = (.ok .normal, s₁))
    (rest : List Stmt) : (execAll limit (a :: rest)).run.run s =
      (execAll limit rest).run.run s₁ := by
  rw [execAll, Task.run_bind, h]
  rfl

theorem execAll_cons_of_stop {a : Stmt} (h : (exec limit a).run.run s = (.ok flow, s₁))
    (hf : flow ≠ .normal) (rest : List Stmt) :
    (execAll limit (a :: rest)).run.run s = (.ok flow, s₁) := by
  rw [execAll, Task.run_bind, h]
  dsimp only
  rw [if_neg hf]
  rfl

theorem Stmt.flow_ne_normal {t : Stmt} (h : t.flow? = some flow) : flow ≠ .normal := by
  cases t <;> cases h <;> decide

theorem exec_of_flow {t : Stmt} (h : t.flow? = some flow) : exec limit t = pure flow := by
  cases t <;> cases h <;> rw [exec]

/-! ### The statement that control leaves by -/

mutual

/-- A statement that stops has come to a `break` or `continue` outside of loop bodies, and done
nothing more than to close frames since. -/
theorem exists_reaches : ∀ (a : Stmt) (s : State) {s' : State} {flow : Flow},
    (exec limit a).run.run s = (.ok flow, s') → flow ≠ .normal →
      ∃ t s₁, Reaches limit [a] s 0 t s₁ ∧ t.flow? = some flow ∧ s₁.Closes s'
  | .branch test yes no, s, s', flow, h, hf => by
    rw [exec] at h
    obtain ⟨v, s₁, hv, h⟩ := Task.run_bind_eq_ok.1 h
    have inside : ∃ t s₂, Reaches limit [if v.isTruthy then yes else no] s₁ 0 t s₂ ∧
        t.flow? = some flow ∧ s₂.Closes s' := by
      split at h
      · rename_i hc
        rw [if_pos hc]
        exact exists_reaches yes s₁ h hf
      · rename_i hc
        rw [if_neg hc]
        exact exists_reaches no s₁ h hf
    obtain ⟨t, s₂, hr, ht, hc⟩ := inside
    exact ⟨t, s₂, .inside (.branch hv) hr, ht, hc⟩
  | .block body, s, s', flow, h, hf => by
    rw [exec, Run.run_inFrame] at h
    obtain ⟨ho, rfl⟩ := Prod.mk.inj h
    obtain ⟨t, s₁, hr, ht, hc⟩ := exists_reaches_all body s.push (Prod.ext ho rfl) hf
    exact ⟨t, s₁, .inside .block hr, ht, hc.trans (State.closes_pop _)⟩
  | .breakLoop, s, s', flow, h, hf => by
    rw [exec] at h
    cases h
    exact ⟨.breakLoop, s, .here, rfl, .refl s⟩
  | .continueLoop, s, s', flow, h, hf => by
    rw [exec] at h
    cases h
    exact ⟨.continueLoop, s, .here, rfl, .refl s⟩
  | .text _, _, _, _, h, hf | .output .., _, _, _, h, hf | .declare _, _, _, _, h, hf
  | .assign .., _, _, _, h, hf | .expr _, _, _, _, h, hf | .forOf .., _, _, _, h, hf
  | .forIn .., _, _, _, h, hf | .forLoop .., _, _, _, h, hf | .whileLoop .., _, _, _, h, hf
  | .empty, _, _, _, h, hf => absurd (flow_of_endsNormally rfl h) hf

theorem exists_reaches_all : ∀ (program : List Stmt) (s : State) {s' : State} {flow : Flow},
    (execAll limit program).run.run s = (.ok flow, s') → flow ≠ .normal →
      ∃ t s₁, Reaches limit program s 0 t s₁ ∧ t.flow? = some flow ∧ s₁.Closes s'
  | [], s, s', flow, h, hf => by
    rw [execAll] at h
    cases h
    exact absurd rfl hf
  | a :: rest, s, s', flow, h, hf => by
    rw [execAll] at h
    obtain ⟨first, s₁, ha, h⟩ := Task.run_bind_eq_ok.1 h
    split at h
    · rename_i hn
      subst hn
      obtain ⟨t, s₂, hr, ht⟩ := exists_reaches_all rest s₁ h hf
      exact ⟨t, s₂, .later ha hr, ht⟩
    · cases h
      obtain ⟨t, s₂, hr, ht⟩ := exists_reaches a s ha hf
      exact ⟨t, s₂, hr.of_first, ht⟩

end

theorem Stmt.endsNormally_of_isPlain {a : Stmt} (h : a.isPlain) : a.endsNormally := by
  cases a <;> first | rfl | cases h

theorem PartAt.hasPlainHeaders {a : Stmt} {part : List Stmt} {inner : Nat}
    (h : PartAt limit a s inner part s₁) (ha : a.hasPlainHeaders) : allPlainHeaders part := by
  have one {b : Stmt} (hb : b.hasPlainHeaders) :
      allPlainHeaders [b] := Bool.and_eq_true_iff.2 ⟨hb, rfl⟩
  cases h with
  | branch hv =>
    obtain ⟨hy, hn⟩ := Bool.and_eq_true_iff.1 ha
    refine one ?_
    split
    · exact hy
    · exact hn
  | block => exact ha
  | body hb =>
    cases hb with
    | forLoop => exact one (Bool.and_eq_true_iff.1 ha).2
    | forOf | forIn | whileLoop => exact one ha
  | start =>
    exact one (Stmt.hasPlainHeaders_of_isPlain
      (Bool.and_eq_true_iff.1 (Bool.and_eq_true_iff.1 ha).1).1)
  | step =>
    exact one (Stmt.hasPlainHeaders_of_isPlain
      (Bool.and_eq_true_iff.1 (Bool.and_eq_true_iff.1 ha).1).2)

/-- When a part of a statement that is no body of a loop stops, the statement does. -/
theorem PartAt.stops {a : Stmt} {part : List Stmt} (hp : PartAt limit a s 0 part s₁)
    (ha : a.hasPlainHeaders) (h : (execAll limit part).run.run s₁ = (.ok flow, s'))
    (hf : flow ≠ .normal) :
    ∃ s'', (exec limit a).run.run s = (.ok flow, s'') ∧ s'.Closes s'' := by
  have header {b : Stmt} (hb : b.isPlain) {s₁ : State}
      (h : (execAll limit [b]).run.run s₁ = (.ok flow, s')) : False := by
    rw [execAll_singleton] at h
    exact hf (flow_of_endsNormally (Stmt.endsNormally_of_isPlain hb) h)
  cases hp with
  | branch hv =>
    refine ⟨s', ?_, .refl s'⟩
    rw [execAll_singleton] at h
    rw [exec, Task.run_bind, hv]
    split at h
    · rename_i hc
      dsimp only
      rwa [if_pos hc]
    · rename_i hc
      dsimp only
      rwa [if_neg hc]
  | block =>
    refine ⟨s'.pop, ?_, s'.closes_pop⟩
    rw [exec, Run.run_inFrame, h]
  | start => exact (header (Bool.and_eq_true_iff.1 (Bool.and_eq_true_iff.1 ha).1).1 h).elim
  | step => exact (header (Bool.and_eq_true_iff.1 (Bool.and_eq_true_iff.1 ha).1).2 h).elim

/-- Statements that come to a `break` or `continue` outside of loop bodies stop there, and only
close frames. -/
theorem Reaches.stops {program : List Stmt} {t : Stmt} (h : Reaches limit program s 0 t s₁)
    (hp : allPlainHeaders program) (ht : t.flow? = some flow) :
    ∃ s', (execAll limit program).run.run s = (.ok flow, s') ∧ s₁.Closes s' := by
  have hf := Stmt.flow_ne_normal ht
  generalize hd : (0 : Nat) = depth at h
  induction h with
  | @here t rest s =>
    refine ⟨s, execAll_cons_of_stop ?_ hf rest, .refl s⟩
    rw [exec_of_flow ht]
    rfl
  | @inside a t body rest s s₁ s₂ inner depth part _ ih =>
    obtain ⟨rfl, rfl⟩ : inner = 0 ∧ depth = 0 := by omega
    obtain ⟨ha, -⟩ := Bool.and_eq_true_iff.1 hp
    obtain ⟨s', hr, hc⟩ := ih (part.hasPlainHeaders ha) ht rfl
    obtain ⟨s'', hr, hc'⟩ := part.stops ha hr hf
    exact ⟨s'', execAll_cons_of_stop hr hf rest, hc.trans hc'⟩
  | later ha _ ih =>
    obtain ⟨s', hr, hc⟩ := ih (Bool.and_eq_true_iff.1 hp).2 ht hd
    exact ⟨s', (execAll_cons_of_normal ha _).trans hr, hc⟩

/-- What is reached outside of loop bodies stands outside of them. -/
theorem Reaches.isConfined {program : List Stmt} {t : Stmt} (h : Reaches limit program s 0 t s₁)
    (hp : allConfined program) : t.isConfined := by
  generalize hd : (0 : Nat) = depth at h
  have one {b : Stmt} (hb : b.isConfined) : allConfined [b] := Bool.and_eq_true_iff.2 ⟨hb, rfl⟩
  induction h with
  | here => exact (Bool.and_eq_true_iff.1 hp).1
  | @inside a t body rest s s₁ s₂ inner depth part _ ih =>
    obtain ⟨rfl, rfl⟩ : inner = 0 ∧ depth = 0 := by omega
    obtain ⟨ha, -⟩ := Bool.and_eq_true_iff.1 hp
    refine ih ?_ rfl
    cases part with
    | branch hv =>
      obtain ⟨hy, hn⟩ := Bool.and_eq_true_iff.1 ha
      refine one ?_
      split
      · exact hy
      · exact hn
    | block => exact ha
    | start => exact one (Bool.and_eq_true_iff.1 ha).1
    | step => exact one (Bool.and_eq_true_iff.1 ha).2
  | later _ _ ih => exact ih (Bool.and_eq_true_iff.1 hp).2 hd

/-! ### Loops -/

theorem Run.run_inTurn_of_false {ι : Type} {step : ι → Run Bool} {last : Run Unit}
    {items rest : List ι}
    {i : ι} (ht : Run.Turns step (items, s) (i :: rest, s₁))
    (h : (step i).run.run s₁ = (.ok false, s')) :
    (Run.inTurn step last items).run.run s = (.ok (), s') := by
  rw [Run.run_inTurn_of_turns ht, Run.inTurn_cons, Task.run_bind, h]
  rfl

theorem run_eachRound {binding : String} {body : Run Flow} {v : Value}
    (h : body.run.run (s.enter binding v) = (.ok flow, s')) :
    (eachRound binding body v).run.run s = (.ok (flow ≠ .break), s'.pop) := by
  have hd : (do Run.onScope (·.declare binding v); body : Run Flow).run.run s.push =
      (.ok flow, s') := h
  rw [eachRound, Task.run_bind, Run.run_inFrame, hd]
  rfl

theorem run_forRound {test : Option Expr} {step body : Stmt} {s₂ : State}
    (hc : (evalTest test).run.run s = (.ok true, s₁))
    (h : (exec limit body).run.run s₁ = (.ok flow, s₂)) :
    (forRound limit test step body).run.run s =
      (if flow = .break then return false
      else do
        let _ ← exec limit step
        return true : Run Bool).run.run s₂ := by
  rw [forRound, Task.run_bind, hc]
  dsimp only
  rw [if_pos rfl, Task.run_bind, h]

/-- The rest of a three-part loop, from a state in its frame. -/
theorem run_forLoop {start : Stmt} {test : Option Expr} {step body : Stmt}
    (hs : (exec limit start).run.run s.push = (.ok flow, s₁)) :
    (exec limit (.forLoop start test step body)).run.run s =
      let rounds := (do
        Run.inTurn (fun _ => forRound limit test step body) (Run.fail .exhausted)
          (List.replicate limit ())
        return Flow.normal : Run Flow).run.run s₁
      (rounds.1, rounds.2.pop) := by
  rw [exec_forLoop, Run.run_inFrame, Task.run_bind, hs]

/-- A loop ends with normal flow when its body breaks. -/
theorem BodyAt.run_of_break {loop body : Stmt} (hb : BodyAt limit loop s body s₁)
    (h : (exec limit body).run.run s₁ = (.ok .break, s')) :
    ∃ s'', (exec limit loop).run.run s = (.ok .normal, s'') ∧ s'.Closes s'' := by
  have last {x : Run Unit} {s s' : State} (hx : x.run.run s = (.ok (), s')) :
      (do x; return Flow.normal).run.run s = (.ok .normal, s') := by
    rw [Task.run_bind, hx]
    rfl
  cases hb with
  | forOf hi ht =>
    refine ⟨s'.pop, ?_, s'.closes_pop⟩
    rw [exec_forOf, Task.run_bind, hi]
    exact last (Run.run_inTurn_of_false ht (run_eachRound h))
  | forIn hv ht =>
    refine ⟨s'.pop, ?_, s'.closes_pop⟩
    rw [exec_forIn, Task.run_bind, hv]
    exact last (Run.run_inTurn_of_false ht (run_eachRound h))
  | forLoop hs ht hc =>
    refine ⟨s'.pop, ?_, s'.closes_pop⟩
    rw [run_forLoop hs, last (Run.run_inTurn_of_false ht ((run_forRound hc h).trans rfl))]
  | whileLoop ht hv hc =>
    refine ⟨s', ?_, .refl s'⟩
    rw [exec_whileLoop]
    refine last (Run.run_inTurn_of_false ht ?_)
    rw [whileRound, Task.run_bind, hv]
    dsimp only
    rw [if_pos hc, Task.run_bind, h]
    rfl

/-- A three-part loop whose body does not break runs its step and then further rounds. -/
theorem BodyAt.run_of_not_break {start : Stmt} {test : Option Expr} {step body : Stmt}
    (hb : BodyAt limit (.forLoop start test step body) s body s₁)
    (h : (exec limit body).run.run s₁ = (.ok flow, s')) (hf : flow ≠ .break) :
    ∃ rounds, (exec limit (.forLoop start test step body)).run.run s =
      let behind := (do
        let _ ← exec limit step
        Run.repeatWhile (forRound limit test step body) rounds
        return Flow.normal : Run Flow).run.run s'
      (behind.1, behind.2.pop) := by
  rcases hb with _ | _ | ⟨hs, ht, hc⟩ | _
  rename_i s₂ s₃ flow' rest
  have rounds : (Run.inTurn (fun _ => forRound limit test step body) (Run.fail .exhausted)
      (List.replicate limit ())).run.run s₂ = (do
        let _ ← exec limit step
        Run.repeatWhile (forRound limit test step body) rest.length).run.run s' := by
    have hrest : List.replicate rest.length () = rest :=
      (List.eq_replicate_of_mem fun _ _ => rfl).symm
    rw [Run.run_inTurn_of_turns ht, Run.inTurn_cons, Task.run_bind, run_forRound hc h, if_neg hf,
      repeatWhile_eq_inTurn, hrest, Task.run_bind, Task.run_bind]
    rcases (exec limit step).run.run s' with ⟨fault | flow, s''⟩ <;> rfl
  refine ⟨rest.length, ?_⟩
  rw [run_forLoop hs, Task.run_bind, rounds, ← Task.run_bind, bind_assoc]

/-- How a loop takes the breaks and continues of its body that stand outside of the loops in it. -/
structure Stmt.TakesControl (limit : Nat) (loop : Stmt) : Prop where
  /-- A loop that ends yields normal flow. -/
  flow_eq {s s' : State} {flow : Flow} :
    (exec limit loop).run.run s = (.ok flow, s') → flow = .normal
  /-- A break ends the loop, and what stands behind the loop runs next. -/
  of_break {body : Stmt} {s s₁ s₂ : State} :
    BodyAt limit loop s body s₁ → Reaches limit [body] s₁ 0 .breakLoop s₂ →
      ∃ s', s₂.Closes s' ∧ (exec limit loop).run.run s = (.ok .normal, s') ∧
        ∀ rest, (execAll limit (loop :: rest)).run.run s = (execAll limit rest).run.run s'
  /-- After a continue a three-part loop runs its step, and then rounds that begin with the test. -/
  of_continue {start : Stmt} {test : Option Expr} {step body : Stmt} {s s₁ s₂ : State} :
    loop = .forLoop start test step body → BodyAt limit loop s body s₁ →
      Reaches limit [body] s₁ 0 .continueLoop s₂ →
      ∃ s' rounds, s₂.Closes s' ∧ (exec limit loop).run.run s =
        let behind := (do
          let _ ← exec limit step
          Run.repeatWhile (forRound limit test step body) rounds
          return Flow.normal : Run Flow).run.run s'
        (behind.1, behind.2.pop)

theorem Stmt.takesControl (loop : Stmt) (hl : loop.isLoop) (hp : loop.hasPlainHeaders) :
    loop.TakesControl limit where
  flow_eq h := by
    refine flow_of_endsNormally ?_ h
    cases loop <;> first | rfl | cases hl
  of_break hb hr := by
    obtain ⟨s₃, hs, hc⟩ := hr.stops ((PartAt.body hb).hasPlainHeaders hp) rfl
    rw [execAll_singleton] at hs
    obtain ⟨s', hl, hc'⟩ := hb.run_of_break hs
    exact ⟨s', hc.trans hc', hl, execAll_cons_of_normal hl⟩
  of_continue := by
    rintro start test step body s s₁ s₂ rfl hb hr
    obtain ⟨s', hs, hc⟩ := hr.stops ((PartAt.body hb).hasPlainHeaders hp) rfl
    rw [execAll_singleton] at hs
    obtain ⟨rounds, h⟩ := hb.run_of_not_break hs (by decide)
    exact ⟨s', rounds, hc, h⟩

end Control

/-! ## Templates -/

/-- A template fails for a stray `break` or `continue` when its run comes to one outside of loop
bodies, and for no other reason. -/
theorem renderWithin_eq_stray_iff {t : Compiled} {program : List Stmt}
    (ht : t.program = .ok program)
    (hp : allPlainHeaders program) (limit : Nat) (context : Context) :
    t.renderWithin limit context = .error (.malformed .strayLoopControl) ↔
      ∃ a s, a.flow?.isSome ∧ Reaches limit program (State.start (t.globals context)) 0 a s := by
  unfold Compiled.renderWithin runProgram
  rw [ht]
  dsimp only
  rw [Task.run_bind]
  constructor
  · intro h
    rcases hr : (execAll limit program).run.run (State.start (t.globals context)) with
      ⟨fault | flow, s⟩
    · rw [hr] at h
      cases h
      exact (execAll_failsBy limit program _ _ _ hr).elim (fun h => h.elim) fun h => by cases h
    · rw [hr] at h
      cases flow with
      | normal => cases h
      | _ =>
        obtain ⟨a, s₁, ha, hf, -⟩ := exists_reaches_all program _ hr (by decide)
        exact ⟨a, s₁, by rw [hf]; rfl, ha⟩
  · rintro ⟨a, s, hs, ha⟩
    obtain ⟨flow, hf⟩ := Option.isSome_iff_exists.1 hs
    obtain ⟨s', hr, -⟩ := ha.stops hp hf
    rw [hr]
    dsimp only
    rw [if_neg (Stmt.flow_ne_normal hf)]
    rfl

/-- A compiled template in which each `break` and `continue` stands in the body of a loop never
fails for a stray one; any template does so exactly when its run comes to one outside of loop
bodies. All headers of loops are plain, and a loop with plain headers takes the breaks and continues
of its own body. -/
theorem loop_control {compiler : Compiler} {source : String} {program : List Stmt}
    (h : parse source = .ok program) :
    (allConfined program → ∀ context,
      (compiler.compile source).render context ≠ .error (.malformed .strayLoopControl)) ∧
    (∀ context, (compiler.compile source).render context = .error (.malformed .strayLoopControl) ↔
      ∃ a s, a.flow?.isSome ∧
        Reaches loopLimit program (State.start ((compiler.compile source).globals context)) 0 a s) ∧
    allPlainHeaders program ∧
    ∀ limit (loop : Stmt), loop.isLoop → loop.hasPlainHeaders → loop.TakesControl limit := by
  have plain := hasPlainHeaders_of_parse h
  have stray (context : Context) :
      (compiler.compile source).render context = .error (.malformed .strayLoopControl) ↔
        ∃ a s, a.flow?.isSome ∧
          Reaches loopLimit program (State.start ((compiler.compile source).globals context))
            0 a s :=
    Except.map_eq_error_iff.trans (renderWithin_eq_stray_iff h plain loopLimit context)
  refine ⟨fun hc context hr => ?_, stray, plain, fun limit loop hl hp => loop.takesControl hl hp⟩
  obtain ⟨a, s, ha, hr⟩ := (stray context).1 hr
  rw [Stmt.flow?_of_isConfined (hr.isConfined hc)] at ha
  cases ha

/-- A loop in the body of a loop, which breaks the inner loop and continues the outer one. -/
def nestedSource : String :=
  "<% for (; go; go = no) \x7b while (go) \x7b break \x7d continue \x7d %>"

theorem loop_control_of_nested :
    let inner : Stmt := .whileLoop (.name "go") (.block [.breakLoop])
    let outer : Stmt := .forLoop .empty (some (.name "go")) (.assign "go" .set (.name "no"))
      (.block [inner, .continueLoop])
    let s : State := ⟨⟨[], [("go", .bool true), ("no", .bool false)]⟩, 0, []⟩
    parse nestedSource = .ok [outer, .empty] ∧ allConfined [outer, .empty] ∧
      (∀ context, (Compiler.compile {} nestedSource).render context ≠
        .error (.malformed .strayLoopControl)) ∧
      (∃ s', (exec 5 inner).run.run s.push.push = (.ok .normal, s')) ∧
      ∃ s' rounds, (exec 5 outer).run.run s =
        let behind := (do
          let _ ← exec 5 (.assign "go" .set (.name "no"))
          Run.repeatWhile (forRound 5 (some (.name "go")) (.assign "go" .set (.name "no"))
            (.block [inner, .continueLoop])) rounds
          return Flow.normal : Run Flow).run.run s'
        (behind.1, behind.2.pop) := by
  intro inner outer s
  have parsed : parse nestedSource = .ok [outer, .empty] := by cbv
  obtain ⟨confined, -, -, loops⟩ := @loop_control {} _ _ parsed
  have started : (exec 5 .empty).run.run s.push = (.ok .normal, s.push) := rfl
  have goes : (eval (.name "go")).run.run s.push.push = (.ok (.bool true), s.push.push) := rfl
  have outerBody : BodyAt 5 outer s (.block [inner, .continueLoop]) s.push :=
    .forLoop started .refl rfl
  have innerBody : BodyAt 5 inner s.push.push (.block [.breakLoop]) s.push.push :=
    .whileLoop .refl goes rfl
  obtain ⟨s', -, ended, -⟩ := (loops 5 inner rfl rfl).of_break innerBody (.inside .block .here)
  obtain ⟨s'', rounds, -, continued⟩ := (loops 5 outer rfl rfl).of_continue rfl outerBody
    (.inside .block (.later ended .here))
  exact ⟨parsed, rfl, confined rfl, ⟨s', ended⟩, s'', rounds, continued⟩

end StaticSite.Template
