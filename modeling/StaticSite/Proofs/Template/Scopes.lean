import Mathlib.Order.Defs.Unbundled
import StaticSite.Proofs.Fields
import StaticSite.Proofs.Template.Logic
import StaticSite.Proofs.Template.Reaching

/-!
# The names in scope

How a run changes the names of the frames, whatever its outcome. Expressions change none
(`Scope.SameNames`, a logic of expressions), also through the callbacks of methods. What has a frame
of its own gives it up, so that the frames below are as before and the base frame gains only names
that are assigned where no frame has them (`Scope.Keeps`); any other statement may declare names in
the innermost frame (`Scope.Extends`). `Run.Moves` says that a run from a state changes the scope by
such a relation, and `AssignsNew` which names are assigned in that way, by the states that the run
comes to (`Reaches`). The main result is `names_after`.
-/

namespace StaticSite.Template

/-! ## Frames and their names -/

theorem Fields.has_insert_of_has {name : String} {f : Frame} (h : Fields.has f name = true)
    (v : Value) :
    Fields.has (Fields.insert name v f) = Fields.has f := by
  funext n
  rw [Fields.has_insert]
  by_cases hn : n = name
  · subst hn
    simp [h]
  · simp [hn]

namespace Scope

theorem isSome_get? (s : Scope) (name : String) :
    (s.get? name).isSome ↔ (∃ f ∈ s.inner, Fields.has f name) ∨ Fields.has s.base name := by
  simp [get?, Fields.has]

/-- The scopes have as many frames, and each the same names. -/
structure SameNames (s s' : Scope) : Prop where
  inner : s'.inner.map Fields.has = s.inner.map Fields.has
  base : Fields.has s'.base = Fields.has s.base

/-- The base frame has at least the names it had. -/
def KeepsBase (s s' : Scope) : Prop :=
  ∀ n, Fields.has s.base n → Fields.has s'.base n

/-- All frames but the base frame have the same names, and the base frame has gained some of the
given names. -/
structure Keeps (gained : String → Prop) (s s' : Scope) : Prop where
  inner : s'.inner.map Fields.has = s.inner.map Fields.has
  kept : KeepsBase s s'
  gained : ∀ n, Fields.has s'.base n → Fields.has s.base n ∨ gained n

/-- There are as many frames, and the innermost one apart they are as `Keeps` says. -/
structure Extends (gained : String → Prop) (s s' : Scope) : Prop where
  length_eq : s'.inner.length = s.inner.length
  kept : KeepsBase s s'
  keeps : s.inner ≠ [] → Keeps gained s.pop s'.pop

variable {gained : String → Prop} {s s' : Scope}

instance : IsPreorder Scope SameNames where
  refl _ := ⟨rfl, rfl⟩
  trans _ _ _ h h' := ⟨h'.inner.trans h.inner, h'.base.trans h.base⟩

instance : IsPreorder Scope KeepsBase where
  refl _ _ h := h
  trans _ _ _ h h' n hn := h' n (h n hn)

instance : IsPreorder Scope (Keeps gained) where
  refl s := ⟨rfl, refl_of KeepsBase s, fun _ h => .inl h⟩
  trans _ _ _ h h' := ⟨h'.inner.trans h.inner, trans_of KeepsBase h.kept h'.kept,
    fun n hn => (h'.gained n hn).elim (h.gained n) .inr⟩

theorem Keeps.length_eq (h : Keeps gained s s') : s'.inner.length = s.inner.length := by
  simpa using congrArg List.length h.inner

theorem SameNames.keepsBase (h : SameNames s s') : KeepsBase s s' :=
  fun n hn => by rwa [h.base]

theorem SameNames.keeps (h : SameNames s s') : Keeps gained s s' where
  inner := h.inner
  kept := h.keepsBase
  gained n hn := .inl (by rwa [h.base] at hn)

theorem SameNames.pop (h : SameNames s s') : SameNames s.pop s'.pop where
  inner := by
    show s'.inner.tail.map Fields.has = s.inner.tail.map Fields.has
    rw [List.map_tail, List.map_tail, h.inner]
  base := h.base

theorem Keeps.extends (h : Keeps gained s s') : Extends gained s s' where
  length_eq := h.length_eq
  kept := h.kept
  keeps _ := {
    inner := by
      show s'.inner.tail.map Fields.has = s.inner.tail.map Fields.has
      rw [List.map_tail, List.map_tail, h.inner]
    kept := h.kept
    gained := h.gained }

instance : IsPreorder Scope (Extends gained) where
  refl s := (refl_of (Keeps gained) s).extends
  trans s s₁ s₂ h h' := {
    length_eq := h'.length_eq.trans h.length_eq
    kept := trans_of KeepsBase h.kept h'.kept
    keeps := fun hs => trans_of (Keeps gained) (h.keeps hs) <| h'.keeps <| by
      rw [← List.length_pos_iff, h.length_eq]
      exact List.length_pos_iff.2 hs }

/-- A name that is visible after a change was visible before it or is among the gained ones. -/
theorem Keeps.isSome_get? (h : Keeps gained s s') {n : String} (hn : (s'.get? n).isSome) :
    (s.get? n).isSome ∨ gained n := by
  have inner (t : Scope) : (∃ f ∈ t.inner, Fields.has f n) ↔
      ∃ p ∈ t.inner.map Fields.has, p n = true := by
    simp
  rw [Scope.isSome_get?, inner] at hn ⊢
  rw [h.inner] at hn
  rcases hn with hn | hn
  · exact .inl (.inl hn)
  · exact (h.gained n hn).imp_left .inr

/-! ### Declaring and assigning -/

theorem pop_declare (hs : s.inner ≠ []) (name : String) (v : Value) :
    (s.declare name v).pop = s.pop ∧ (s.declare name v).inner ≠ [] := by
  obtain ⟨_ | ⟨f, rest⟩, base⟩ := s
  · exact absurd rfl hs
  · exact ⟨rfl, by simp [declare]⟩

theorem pop_bindAll (params : List String) (args : List Value) (hs : s.inner ≠ []) :
    (s.bindAll params args).pop = s.pop := by
  induction params generalizing s args with
  | nil => rfl
  | cons p params ih =>
    obtain ⟨hp, hne⟩ := pop_declare hs p (args.head?.getD .undefined)
    exact (ih args.tail hne).trans hp

theorem extends_declare (s : Scope) (name : String) (v : Value) :
    Extends gained s (s.declare name v) where
  length_eq := by
    obtain ⟨_ | ⟨f, rest⟩, base⟩ := s <;> rfl
  kept n hn := by
    obtain ⟨_ | ⟨f, rest⟩, base⟩ := s
    · show Fields.has (Fields.insert name v base) n
      rw [Fields.has_insert, hn, Bool.or_true]
    · exact hn
  keeps hs := by
    rw [(pop_declare hs name v).1]
    exact refl_of (Keeps gained) _

/-- Assigning keeps what is seen of each frame if writing the name where it is present does. -/
theorem map_of_assignIn {β : Type} {view : Frame → β} {name : String} {v : Value}
    {frames frames' : List Frame}
    (hview : ∀ f, Fields.has f name → view (Fields.insert name v f) = view f)
    (h : assignIn name v frames = some frames') : frames'.map view = frames.map view := by
  induction frames generalizing frames' with
  | nil => cases h
  | cons f rest ih =>
    unfold assignIn at h
    split at h
    · rename_i hf
      cases h
      rw [List.map_cons, List.map_cons, hview f hf]
    · obtain ⟨rest', hr, rfl⟩ := Option.map_eq_some_iff.1 h
      rw [List.map_cons, List.map_cons, ih hr]

theorem isSome_assignIn (name : String) (v : Value) (frames : List Frame) :
    (assignIn name v frames).isSome ↔ ∃ f ∈ frames, Fields.has f name := by
  induction frames with
  | nil => simp [assignIn]
  | cons f rest ih =>
    unfold assignIn
    split
    · rename_i hf
      exact ⟨fun _ => ⟨f, List.mem_cons_self, hf⟩, fun _ => rfl⟩
    · rename_i hf
      rw [Option.isSome_map, ih]
      constructor
      · exact fun ⟨g, hg, hn⟩ => ⟨g, List.mem_cons_of_mem f hg, hn⟩
      · rintro ⟨g, hg, hn⟩
        rcases List.mem_cons.1 hg with rfl | hg
        · exact absurd hn hf
        · exact ⟨g, hg, hn⟩

/-- Assigning a name that a frame has changes no names. -/
theorem sameNames_assign {name : String} (h : (s.get? name).isSome) (v : Value) :
    SameNames s (s.assign name v) := by
  unfold assign
  split
  · rename_i inner hi
    exact ⟨map_of_assignIn (fun _ hf => Fields.has_insert_of_has hf v) hi, rfl⟩
  · rename_i hn
    refine ⟨rfl, Fields.has_insert_of_has (((s.isSome_get? name).1 h).resolve_left fun hf => ?_) v⟩
    rw [← isSome_assignIn name v, hn] at hf
    cases hf

/-- Assigning a name that no frame has puts it into the base frame. -/
theorem assign_of_none {name : String} (h : s.get? name = none) (v : Value) :
    s.assign name v = { s with base := s.base.insert name v } := by
  unfold assign
  split
  · rename_i inner hi
    have hs := (s.isSome_get? name).2 (.inl ((isSome_assignIn name v s.inner).1 (by rw [hi]; rfl)))
    rw [h] at hs
    cases hs
  · rfl

theorem keeps_assign {name : String} (v : Value) (h : (s.get? name).isSome ∨ gained name) :
    Keeps gained s (s.assign name v) := by
  rcases hs : s.get? name with _ | _
  · rw [assign_of_none hs]
    rw [hs] at h
    refine ⟨rfl, fun n hn => ?_, fun n hn => ?_⟩
    · rw [Fields.has_insert, hn, Bool.or_true]
    · rw [Fields.has_insert] at hn
      rcases Bool.or_eq_true_iff.1 hn with hn | hn
      · exact .inr ((beq_iff_eq.1 hn) ▸ h.resolve_left Bool.false_ne_true)
      · exact .inl hn
  · exact (sameNames_assign (by rw [hs]; rfl) v).keeps

end Scope

/-! ## Runs that change the scope -/

section Moves

variable {α β ι : Type} {R : Scope → Scope → Prop} {s : State}

/-- The scope that a run from a state leaves, whatever its outcome, is related to the first one. -/
def Run.Moves (R : Scope → Scope → Prop) (x : Run α) (s : State) : Prop :=
  R s.scope (x.run.run s).2.scope

variable [IsPreorder Scope R]

theorem Run.Moves.pure (a : α) : Run.Moves R (Pure.pure a : Run α) s :=
  refl_of R _

theorem Run.Moves.fail (fault : Fault) : Run.Moves R (Run.fail fault : Run α) s :=
  refl_of R _

theorem Run.Moves.bind {x : Run α} {f : α → Run β} (hx : Run.Moves R x s)
    (hf : ∀ a s', x.run.run s = (.ok a, s') → Run.Moves R (f a) s') : Run.Moves R (x >>= f) s := by
  unfold Run.Moves at hx ⊢
  rw [Task.run_bind]
  rcases hr : x.run.run s with ⟨fault | a, s'⟩
  · rwa [hr] at hx
  · rw [hr] at hx
    exact trans_of R hx (hf a s' hr)

omit [IsPreorder Scope R] in
theorem Run.Moves.ite {c : Prop} [Decidable c] {x y : Run α} (hx : c → Run.Moves R x s)
    (hy : ¬ c → Run.Moves R y s) : Run.Moves R (if c then x else y) s := by
  split
  · rename_i h
    exact hx h
  · rename_i h
    exact hy h

/-- Rounds change the scope as each of them does, from the states in which they begin. -/
theorem Run.Moves.inTurn {step : ι → Run Bool} {last : Run Unit} {items : List ι}
    (hs : ∀ i rest s', Run.Turns step (items, s) (i :: rest, s') → Run.Moves R (step i) s')
    (hl : ∀ s', Run.Moves R last s') : Run.Moves R (Run.inTurn step last items) s := by
  induction items generalizing s with
  | nil => exact hl s
  | cons i rest ih =>
    refine Run.Moves.bind (hs i rest s .refl) fun goesOn s' hr =>
      .ite (fun hg => ih ?_) fun _ => .pure _
    subst hg
    exact fun j rest' s'' ht => hs j rest' s'' (.head ⟨hr⟩ ht)

end Moves

theorem Run.Moves.keeps {α : Type} {x : Run α} {s : State} {gained : String → Prop}
    (h : Run.Moves Scope.SameNames x s) : Run.Moves (Scope.Keeps gained) x s :=
  Scope.SameNames.keeps h

theorem Run.Moves.keepsBase {α : Type} {x : Run α} {s : State} (h : Run.Moves Scope.SameNames x s) :
    Run.Moves Scope.KeepsBase x s :=
  Scope.SameNames.keepsBase h

theorem Run.Moves.extends {α : Type} {x : Run α} {s : State} {gained : String → Prop}
    (h : Run.Moves (Scope.Keeps gained) x s) : Run.Moves (Scope.Extends gained) x s :=
  Scope.Keeps.extends h

theorem Run.Moves.ofSame {α : Type} {x : Run α} {s : State} {gained : String → Prop}
    (h : Run.Moves Scope.SameNames x s) : Run.Moves (Scope.Extends gained) x s :=
  h.keeps.extends

/-- A frame that is opened and closed leaves the frames below it. -/
theorem Run.Moves.inFrame {α : Type} {x : Run α} {s : State} {gained : String → Prop}
    (h : Run.Moves (Scope.Extends gained) x s.push) :
    Run.Moves (Scope.Keeps gained) (Run.inFrame x) s :=
  Scope.Extends.keeps h (List.cons_ne_nil _ _)

/-! ## Expressions -/

section Logic

variable {R : Scope → Scope → Prop}

theorem Run.Moves.invoke {params : List String} {body : Run Value} {args : List Value} {s : State}
    (hpop : ∀ {s s'}, R s s' → R s.pop s'.pop) (h : ∀ s, Run.Moves R body s) :
    Run.Moves R (Template.invoke params body args) s := by
  -- the parameters are bound in the new frame, so the scope below it is the one before the call
  have bound : (s.push.scope.bindAll params args).pop = s.scope :=
    Scope.pop_bindAll params args (List.cons_ne_nil _ _)
  have hb := hpop (h { s.push with scope := s.push.scope.bindAll params args })
  rwa [bound] at hb

variable [IsPreorder Scope R]

theorem Run.moves_lookup (name : String) (s : State) : Run.Moves R (Run.lookup name) s := by
  refine Run.Moves.bind (refl_of R _) fun scope s' _ => ?_
  split
  · exact .pure _
  · exact .fail _

/-- Runs that change the scope by a relation which the frames below the innermost one inherit. -/
def Run.BasicLogic.moving (hpop : ∀ {s s'}, R s s' → R s.pop s'.pop) : Run.BasicLogic where
  holds x := ∀ s, Run.Moves R x s
  pure _ _ := .pure _
  fail _ _ := .fail _
  bind hx hf s := (hx s).bind fun a s' hr => hf a ⟨s, s', hr⟩ s'
  scope _ := refl_of R _
  freshRef _ := refl_of R _
  adopt _ _ := refl_of R _
  invoke _ _ _ h _ := .invoke hpop h

end Logic

theorem Run.isSome_get?_of_lookup {name : String} {v : Value} {s s' : State}
    (h : (Run.lookup name).run.run s = (.ok v, s')) : (s'.scope.get? name).isSome := by
  obtain ⟨scope, t, hs, h⟩ := Task.run_bind_eq_ok.1 h
  cases hs
  split at h
  · rename_i v hv
    cases h
    rw [hv]
    rfl
  · cases h

/-- Runs that change no names. -/
def Run.Logic.sameNames : Run.Logic where
  toBasicLogic := .moving (R := Scope.SameNames) fun h => h.pop
  stepName name _ _ s := (moves_lookup name s).bind fun _ _ hv => Run.Moves.bind
    (Scope.sameNames_assign (Run.isSome_get?_of_lookup hv) _) fun _ _ _ => .pure _

theorem eval_moves (e : Expr) (s : State) : Run.Moves Scope.SameNames (eval e) s :=
  Run.Logic.sameNames.eval e s

theorem iterate_moves (v : Value) (s : State) : Run.Moves Scope.SameNames (iterate v) s := by
  unfold iterate
  split
  · exact .pure _
  · exact .pure _
  · exact .fail _

theorem evalTest_moves (test : Option Expr) (s : State) :
    Run.Moves Scope.SameNames (evalTest test) s := by
  cases test with
  | none => exact .pure _
  | some e => exact (eval_moves e s).bind fun _ _ _ => .pure _

/-! ## Statements -/

/-- Run from a state, some statements assign a name that no frame has then. -/
def AssignsNew (limit : Nat) (program : List Stmt) (s : State) (name : String) : Prop :=
  ∃ depth e s₁ v s₂, Reaches limit program s depth (.assign name .set e) s₁ ∧
    (eval e).run.run s₁ = (.ok v, s₂) ∧ s₂.scope.get? name = none

/-- What some statements assign where no frame has it is among the given names. -/
def AssignsOnly (limit : Nat) (gained : String → Prop) (program : List Stmt) (s : State) : Prop :=
  ∀ n, AssignsNew limit program s n → gained n

section AssignsOnly

variable {limit : Nat} {gained : String → Prop} {a : Stmt} {part rest : List Stmt} {s s' : State}

theorem AssignsOnly.first (h : AssignsOnly limit gained (a :: rest) s) :
    AssignsOnly limit gained [a] s := by
  rintro n ⟨depth, e, s₁, v, s₂, hr, he⟩
  exact h n ⟨depth, e, s₁, v, s₂, hr.of_first, he⟩

theorem AssignsOnly.inside {inner : Nat} (h : AssignsOnly limit gained (a :: rest) s)
    (hp : PartAt limit a s inner part s') : AssignsOnly limit gained part s' := by
  rintro n ⟨depth, e, s₁, v, s₂, hr, he⟩
  exact h n ⟨inner + depth, e, s₁, v, s₂, .inside hp hr, he⟩

theorem AssignsOnly.later (h : AssignsOnly limit gained (a :: rest) s)
    (ha : (exec limit a).run.run s = (.ok .normal, s')) : AssignsOnly limit gained rest s' := by
  rintro n ⟨depth, e, s₁, v, s₂, hr, he⟩
  exact h n ⟨depth, e, s₁, v, s₂, .later ha hr, he⟩

end AssignsOnly

/-- Whether a statement opens a frame of its own. -/
def Stmt.hasOwnFrame : Stmt → Bool
  | .block _ | .forOf .. | .forIn .. | .forLoop .. => true
  | _ => false

section Statements

variable {limit : Nat} {gained : String → Prop} {s : State}

theorem eachRound_moves {binding : String} {body : Run Flow} {v : Value}
    (h : Run.Moves (Scope.Extends gained) body (s.enter binding v)) :
    Run.Moves (Scope.Keeps gained) (eachRound binding body v) s := by
  refine Run.Moves.bind (Run.Moves.inFrame ?_) fun _ _ _ => .pure _
  exact Run.Moves.bind (Scope.extends_declare _ _ _) fun _ _ hd => by
    cases hd
    exact h

theorem declareAll_moves : ∀ (bindings : List (String × Option Expr)) (s : State),
    Run.Moves (Scope.Extends gained) (declareAll bindings) s
  | [], _ => .pure _
  | (name, value) :: rest, s => by
    have tail (v : Value) (s : State) : Run.Moves (Scope.Extends gained)
        (do Run.onScope (·.declare name v); declareAll rest) s :=
      Run.Moves.bind (Scope.extends_declare _ _ _) fun _ s' _ => declareAll_moves rest s'
    cases value with
    | none => exact tail .undefined s
    | some e => exact (eval_moves e s).ofSame.bind fun v s' _ => tail v s'

/-- An assignment adds its name to the base frame, if no frame has it. -/
theorem assign_moves (name : String) (op : AssignOp) (e : Expr)
    (h : AssignsOnly limit gained [.assign name op e] s) :
    Run.Moves (Scope.Keeps gained) (exec limit (.assign name op e)) s := by
  rw [exec]
  refine (eval_moves e s).keeps.bind fun v s₁ hv => ?_
  cases op with
  | set =>
    refine Run.Moves.bind (.pure v) fun result s₂ hr => Run.Moves.bind ?_ fun _ _ _ => .pure _
    cases hr
    refine Scope.keeps_assign _ ?_
    rcases hn : s₁.scope.get? name with _ | _
    · exact .inr (h name ⟨0, e, s, v, s₁, .here, hv, hn⟩)
    · exact .inl rfl
  | add | sub =>
    have reads (f : Value → Value) : Run.Moves (Scope.Keeps gained) (do
        let result ← (do return f (← Run.lookup name))
        Run.onScope (·.assign name result)
        return Flow.normal) s₁ := by
      refine Run.Moves.bind ((Run.moves_lookup name s₁).keeps.bind fun _ _ _ => .pure _)
        fun result s₂ hr => Run.Moves.bind ?_ fun _ _ _ => .pure _
      obtain ⟨old, s', hl, hr⟩ := Task.run_bind_eq_ok.1 hr
      cases hr
      exact Scope.keeps_assign _ (.inl (Run.isSome_get?_of_lookup hl))
    exact reads _

/-- A statement with a frame of its own keeps the others when its parts extend the scope they run
in. -/
theorem Stmt.moves_of_parts {a : Stmt} (ha : a.hasOwnFrame) (h : AssignsOnly limit gained [a] s)
    (hp : ∀ inner part s', PartAt limit a s inner part s' → AssignsOnly limit gained part s' →
      Run.Moves (Scope.Extends gained) (execAll limit part) s') :
    Run.Moves (Scope.Keeps gained) (exec limit a) s := by
  have one {b : Stmt} {inner : Nat} {s' : State} (hb : PartAt limit a s inner [b] s') :
      Run.Moves (Scope.Extends gained) (exec limit b) s' := by
    rw [← execAll_singleton]
    exact hp inner _ s' hb (h.inside hb)
  cases a with
  | block body =>
    rw [exec]
    exact .inFrame (hp _ _ _ .block (h.inside .block))
  | forOf binding source body =>
    rw [exec_forOf]
    refine Run.Moves.bind ((eval_moves source s).bind fun v s₁ _ => iterate_moves v s₁).keeps
      fun items s₁ hi => Run.Moves.bind (.inTurn (fun v rest s₂ ht => ?_) fun _ => .pure _)
        fun _ _ _ => .pure _
    exact eachRound_moves (one (.body (.forOf hi ht)))
  | forIn binding source body =>
    rw [exec_forIn]
    refine (eval_moves source s).keeps.bind fun v s₁ hv =>
      Run.Moves.bind (.inTurn (fun key rest s₂ ht => ?_) fun _ => .pure _) fun _ _ _ => .pure _
    exact eachRound_moves (one (.body (.forIn hv ht)))
  | forLoop start test step body =>
    rw [exec_forLoop]
    refine .inFrame ((one .start).bind fun flow s₁ hs =>
      Run.Moves.bind (.inTurn (fun _ rest s₂ ht => ?_) fun _ => .fail _) fun _ _ _ => .pure _)
    refine (evalTest_moves test s₂).ofSame.bind fun goesOn s₃ hc =>
      .ite (fun hg => ?_) fun _ => .pure _
    subst hg
    have hb : BodyAt limit (.forLoop start test step body) s body s₃ := .forLoop hs ht hc
    exact (one (.body hb)).bind fun flow s₄ hr => .ite (fun _ => .pure _) fun hf =>
      (one (.step hb hr hf)).bind fun _ _ _ => .pure _
  | _ => cases ha

mutual

theorem exec_moves : ∀ (a : Stmt) (s : State), AssignsOnly limit gained [a] s →
    Run.Moves (Scope.Extends gained) (exec limit a) s
  | .text t, s, _ => by
    rw [exec]
    exact refl_of (Scope.Extends gained) _
  | .output how e, s, _ => by
    rw [exec]
    refine (eval_moves e s).ofSame.bind fun _ _ _ => ?_
    exact refl_of (Scope.Extends gained) _
  | .declare bindings, s, _ => by
    rw [exec]
    exact (declareAll_moves bindings s).bind fun _ _ _ => .pure _
  | .assign name op e, s, h => (assign_moves name op e h).extends
  | .expr e, s, _ => by
    rw [exec]
    exact (eval_moves e s).ofSame.bind fun _ _ _ => .pure _
  | .branch test yes no, s, h => by
    rw [exec]
    refine (eval_moves test s).ofSame.bind fun v s' hv => ?_
    have inside := h.inside (.branch hv)
    refine .ite (fun hc => exec_moves yes s' ?_) fun hc => exec_moves no s' ?_
    · rwa [if_pos hc] at inside
    · rwa [if_neg hc] at inside
  | .forOf binding source body, s, h | .forIn binding source body, s, h =>
    (Stmt.moves_of_parts rfl h fun inner part s' hp inside => by
      cases hp with
      | body hb =>
        cases hb
        rw [execAll_singleton]
        exact exec_moves body _ inside).extends
  | .forLoop start test step body, s, h =>
    (Stmt.moves_of_parts rfl h fun inner part s' hp inside => by
      cases hp with
      | body hb =>
        cases hb
        rw [execAll_singleton]
        exact exec_moves body _ inside
      | start =>
        rw [execAll_singleton]
        exact exec_moves start _ inside
      | step =>
        rw [execAll_singleton]
        exact exec_moves step _ inside).extends
  | .whileLoop test body, s, h => by
    rw [exec_whileLoop]
    refine Run.Moves.bind (.inTurn (fun _ rest s₁ ht => ?_) fun _ => .fail _) fun _ _ _ => .pure _
    refine (eval_moves test s₁).ofSame.bind fun v s₂ hv => .ite (fun hc => ?_) fun _ => .pure _
    exact (exec_moves body s₂ (h.inside (.body (.whileLoop ht hv hc)))).bind fun _ _ _ => .pure _
  | .block body, s, h =>
    (Stmt.moves_of_parts rfl h fun inner part s' hp inside => by
      cases hp with
      | body hb => cases hb
      | block => exact execAll_moves body _ inside).extends
  | .breakLoop, s, _ | .continueLoop, s, _ | .empty, s, _ => by
    rw [exec]
    exact .pure _

theorem execAll_moves : ∀ (body : List Stmt) (s : State), AssignsOnly limit gained body s →
    Run.Moves (Scope.Extends gained) (execAll limit body) s
  | [], s, _ => by
    rw [execAll]
    exact .pure _
  | a :: rest, s, h => by
    rw [execAll]
    refine (exec_moves a s h.first).bind fun flow s' hr => .ite (fun hf => ?_) fun _ => .pure _
    subst hf
    exact execAll_moves rest s' (h.later hr)

end

end Statements

/-! ## What the base frame gains -/

/-- The base frame that one run ends with has the names of the one that another run ends with. -/
def Run.EndsIn {α β : Type} (y : Run β) (s' : State) (x : Run α) (s : State) : Prop :=
  (y.run.run s').2.scope.KeepsBase (x.run.run s).2.scope

section EndsIn

variable {α β γ ι : Type} {x : Run α} {y : Run β} {z : Run γ} {s s' s'' : State}

theorem Run.EndsIn.trans (h : Run.EndsIn z s'' y s') (h' : Run.EndsIn y s' x s) :
    Run.EndsIn z s'' x s :=
  trans_of Scope.KeepsBase h h'

/-- What runs behind the first part of a sequence keeps its names in the base frame. -/
theorem Run.EndsIn.first {f : α → Run β} (hf : ∀ a s', Run.Moves Scope.KeepsBase (f a) s') :
    Run.EndsIn x s (x >>= f) s := by
  intro n hn
  rw [Task.run_bind]
  rcases hr : x.run.run s with ⟨fault | a, s'⟩
  · rwa [hr] at hn
  · rw [hr] at hn
    exact hf a s' n hn

theorem Run.EndsIn.second {f : α → Run β} {a : α} (hx : x.run.run s = (.ok a, s')) :
    Run.EndsIn (f a) s' (x >>= f) s := by
  intro n hn
  rwa [Task.run_bind, hx]

theorem Run.EndsIn.inFrame (x : Run α) (s : State) : Run.EndsIn x s.push (Run.inFrame x) s :=
  fun _ hn => hn

/-- A round of a loop that goes on with other rounds. -/
theorem Run.EndsIn.round {step : ι → Run Bool} {last : Run Unit} {items rest : List ι} {i : ι}
    (ht : Run.Turns step (items, s) (i :: rest, s'))
    (hs : ∀ i s, Run.Moves Scope.KeepsBase (step i) s)
    (hl : ∀ s, Run.Moves Scope.KeepsBase last s) :
    Run.EndsIn (step i) s' (do Run.inTurn step last items; return Flow.normal) s := by
  have rounds : Run.EndsIn (step i) s' (Run.inTurn step last (i :: rest)) s' :=
    .first fun goesOn s'' => .ite (fun _ => .inTurn (fun i _ s _ => hs i s) hl) fun _ => .pure _
  refine Run.EndsIn.trans (fun n hn => ?_) (.first fun _ _ => .pure _)
  rw [Run.run_inTurn_of_turns ht]
  exact rounds n hn

end EndsIn

section Parts

variable {limit : Nat}

theorem exec_extends (a : Stmt) (s : State) :
    Run.Moves (Scope.Extends fun _ => True) (exec limit a) s :=
  exec_moves a s fun _ _ => trivial

theorem execAll_extends (body : List Stmt) (s : State) :
    Run.Moves (Scope.Extends fun _ => True) (execAll limit body) s :=
  execAll_moves body s fun _ _ => trivial

theorem exec_keepsBase (a : Stmt) (s : State) : Run.Moves Scope.KeepsBase (exec limit a) s :=
  (exec_extends a s).kept

theorem eachRound_keepsBase (binding : String) (body : Stmt) (v : Value) (s : State) :
    Run.Moves Scope.KeepsBase (eachRound binding (exec limit body) v) s :=
  (eachRound_moves (exec_extends body _)).kept

theorem forRound_keepsBase (test : Option Expr) (step body : Stmt) (s : State) :
    Run.Moves Scope.KeepsBase (forRound limit test step body) s := by
  refine Run.Moves.bind (evalTest_moves test s).keepsBase fun _ s₁ _ =>
    .ite (fun _ => ?_) fun _ => .pure _
  refine (exec_keepsBase body s₁).bind fun _ s₂ _ => .ite (fun _ => .pure _) fun _ => ?_
  exact (exec_keepsBase step s₂).bind fun _ _ _ => .pure _

theorem whileRound_keepsBase (test : Expr) (body : Stmt) (s : State) :
    Run.Moves Scope.KeepsBase (whileRound limit test body) s := by
  refine Run.Moves.bind (eval_moves test s).keepsBase fun _ s₁ _ =>
    .ite (fun _ => ?_) fun _ => .pure _
  exact (exec_keepsBase body s₁).bind fun _ _ _ => .pure _

theorem forRound_endsIn {start : Stmt} {test : Option Expr} {step body : Stmt} {s s₁ s₂ : State}
    {flow : Flow} {rest : List Unit} (hs : (exec limit start).run.run s.push = (.ok flow, s₁))
    (ht : Run.Turns (fun _ => forRound limit test step body) (List.replicate limit (), s₁)
      (() :: rest, s₂)) :
    Run.EndsIn (forRound limit test step body) s₂
      (exec limit (.forLoop start test step body)) s := by
  rw [exec_forLoop]
  refine Run.EndsIn.trans ?_ (.inFrame _ s)
  refine Run.EndsIn.trans ?_ (Run.EndsIn.second hs)
  exact .round ht (fun _ => forRound_keepsBase test step body) fun _ => .fail _

theorem eachRound_endsIn (binding : String) (body : Stmt) (v : Value) (s : State) :
    Run.EndsIn (exec limit body) (s.enter binding v) (eachRound binding (exec limit body) v) s := by
  refine Run.EndsIn.trans ?_ (Run.EndsIn.first fun _ _ => .pure _)
  refine Run.EndsIn.trans ?_ (.inFrame _ s)
  exact Run.EndsIn.second rfl

theorem BodyAt.endsIn {loop body : Stmt} {s s' : State} (h : BodyAt limit loop s body s') :
    Run.EndsIn (exec limit body) s' (exec limit loop) s := by
  cases h with
  | forOf hi ht =>
    rw [exec_forOf]
    refine Run.EndsIn.trans ?_ (Run.EndsIn.second hi)
    refine (eachRound_endsIn _ body _ _).trans ?_
    exact .round ht (eachRound_keepsBase _ body) fun _ => .pure _
  | forIn hv ht =>
    rw [exec_forIn]
    refine Run.EndsIn.trans ?_ (Run.EndsIn.second hv)
    refine (eachRound_endsIn _ body _ _).trans ?_
    exact .round ht (eachRound_keepsBase _ body) fun _ => .pure _
  | forLoop hs ht hc =>
    refine Run.EndsIn.trans ?_ (forRound_endsIn hs ht)
    refine Run.EndsIn.trans ?_ (Run.EndsIn.second hc)
    refine Run.EndsIn.first fun flow s => .ite (fun _ => .pure _) fun _ => ?_
    exact (exec_keepsBase _ s).bind fun _ _ _ => .pure _
  | whileLoop ht hv hc =>
    rw [exec_whileLoop]
    refine Run.EndsIn.trans ?_ (.round ht (fun _ => whileRound_keepsBase _ body) fun _ => .fail _)
    refine Run.EndsIn.trans ?_ (Run.EndsIn.second hv)
    rw [if_pos hc]
    exact .first fun _ _ => .pure _

/-- The names that a part of a statement leaves in the base frame are there when the statement
ends. -/
theorem PartAt.endsIn {a : Stmt} {part : List Stmt} {s s' : State} {inner : Nat}
    (h : PartAt limit a s inner part s') : Run.EndsIn (execAll limit part) s' (exec limit a) s := by
  cases h with
  | branch hv =>
    rw [exec, execAll_singleton]
    refine Run.EndsIn.trans ?_ (Run.EndsIn.second hv)
    split <;> exact refl_of Scope.KeepsBase _
  | block =>
    rw [exec]
    exact .inFrame _ s
  | body hb =>
    rw [execAll_singleton]
    exact hb.endsIn
  | start =>
    rename_i start test step body
    rw [exec_forLoop, execAll_singleton]
    refine Run.EndsIn.trans (Run.EndsIn.first fun _ s₁ => ?_) (.inFrame _ s)
    exact Run.Moves.bind
      (.inTurn (fun _ _ s₂ _ => forRound_keepsBase test step body s₂) fun _ => .fail _)
      fun _ _ _ => .pure _
  | step hb hr hf =>
    rcases hb with _ | _ | ⟨hs, ht, hc⟩ | _
    rw [execAll_singleton]
    refine Run.EndsIn.trans ?_ (forRound_endsIn hs ht)
    refine Run.EndsIn.trans ?_ (Run.EndsIn.second hc)
    refine Run.EndsIn.trans ?_ (Run.EndsIn.second hr)
    rw [if_neg hf]
    exact .first fun _ _ => .pure _

/-- The names that a statement leaves in the base frame are there when the statements that came to
run it have ended. -/
theorem Reaches.endsIn {program : List Stmt} {t : Stmt} {s s' : State} {depth : Nat}
    (h : Reaches limit program s depth t s') :
    Run.EndsIn (exec limit t) s' (execAll limit program) s := by
  have rest (rest : List Stmt) (flow : Flow) (s : State) :
      Run.Moves Scope.KeepsBase (if flow = .normal then execAll limit rest else return flow) s :=
    .ite (fun _ => (execAll_extends rest s).kept) fun _ => .pure _
  induction h with
  | here =>
    rw [execAll]
    exact .first fun flow s => rest _ flow s
  | inside hp _ ih =>
    rw [execAll]
    exact (ih.trans hp.endsIn).trans (.first fun flow s => rest _ flow s)
  | later ha _ ih =>
    rw [execAll]
    refine Run.EndsIn.trans ?_ (Run.EndsIn.second ha)
    rwa [if_pos rfl]

/-- A name that is assigned where no frame has it is in the base frame when the statements have
ended. -/
theorem AssignsNew.has_base {program : List Stmt} {s : State} {name : String}
    (h : AssignsNew limit program s name) :
    Fields.has ((execAll limit program).run.run s).2.scope.base name := by
  obtain ⟨depth, e, s₁, v, s₂, hr, hv, hn⟩ := h
  refine hr.endsIn name ?_
  rw [exec, Task.run_bind, hv]
  show Fields.has (s₂.scope.assign name v).base name
  rw [Scope.assign_of_none hn, Fields.has_insert, beq_self_eq_true, Bool.true_or]

end Parts

/-! ## Names after a run -/

/-- A value, or a callback that is an arrow of the template. -/
def Arg.IsEvaluated : Arg → Prop
  | .value _ => True
  | .callback call => ∃ params body, call = invoke params (eval body)

/-- A run leaves as many frames as it found, whatever its outcome. Expressions and methods with
callbacks change no names. After a statement with a frame of its own all frames but the base frame
have the names they had, the base frame has gained the names that were assigned where no frame had
them, and so no other name is visible that was not visible before. -/
theorem names_after (limit : Nat) (s : State) :
    (∀ e, s.scope.SameNames ((eval e).run.run s).2.scope) ∧
    (∀ receiver name args, (∀ a ∈ args, a.IsEvaluated) →
      s.scope.SameNames ((callMethod receiver name args).run.run s).2.scope) ∧
    (∀ a : Stmt, ((exec limit a).run.run s).2.scope.inner.length = s.scope.inner.length) ∧
    ∀ a : Stmt, a.hasOwnFrame → let s' := ((exec limit a).run.run s).2.scope
      s'.inner.map Fields.has = s.scope.inner.map Fields.has ∧
      (∀ n, Fields.has s'.base n ↔ Fields.has s.scope.base n ∨ AssignsNew limit [a] s n) ∧
      ∀ n, (s'.get? n).isSome → (s.scope.get? n).isSome ∨ AssignsNew limit [a] s n := by
  refine ⟨fun e => eval_moves e s, fun receiver name args h => ?_, fun a => ?_, fun a ha => ?_⟩
  · refine Run.Logic.sameNames.callMethod (fun a hm => ?_) receiver name s
    have hi := h a hm
    cases a with
    | value v => trivial
    | callback call =>
      obtain ⟨params, body, rfl⟩ := hi
      exact fun vs => Run.Logic.sameNames.invoke params vs (Run.Logic.sameNames.eval body)
  · exact (exec_extends a s).length_eq
  · have keeps : s.scope.Keeps (AssignsNew limit [a] s) ((exec limit a).run.run s).2.scope :=
      Stmt.moves_of_parts ha (fun _ hn => hn) fun _ part s' _ inside => execAll_moves part s' inside
    refine ⟨keeps.inner, fun n => ⟨keeps.gained n, fun h => h.elim (keeps.kept n) fun hn => ?_⟩,
      fun n => keeps.isSome_get?⟩
    have hb := hn.has_base
    rwa [execAll_singleton] at hb

theorem names_after_loop_and_map :
    let s : State := ⟨⟨[[("k", .null)]], [("x", .null)]⟩, 0, []⟩
    let body : Stmt := .block [.declare [("w", none)], .assign "y" .set (.name "v")]
    let loop : Stmt := .forOf "v" (.array [.literal .null, .literal .undefined]) body
    let args : List Arg := [.callback (invoke ["i"] (eval (.name "i")))]
    (∀ a ∈ args, a.IsEvaluated) ∧
      s.scope.SameNames ((callMethod (.array 0 [.null]) "map" args).run.run s).2.scope ∧
      loop.hasOwnFrame ∧ ((exec 5 loop).run.run s).2.scope.inner.map Fields.has =
        s.scope.inner.map Fields.has ∧
      AssignsNew 5 [loop] s "y" ∧ ¬ AssignsNew 5 [loop] s "v" ∧ ¬ AssignsNew 5 [loop] s "w" := by
  intro s body loop args
  obtain ⟨-, calls, -, statements⟩ := names_after 5 s
  have arrows : ∀ a ∈ args, a.IsEvaluated := by
    intro a ha
    rw [List.mem_singleton.1 ha]
    exact ⟨["i"], .name "i", rfl⟩
  obtain ⟨inner, base, -⟩ := statements loop rfl
  refine ⟨arrows, calls _ _ args arrows, rfl, inner, ((base "y").1 ?_).resolve_left ?_,
    fun h => ?_, fun h => ?_⟩
  · decide +kernel
  · decide +kernel
  · exact absurd ((base "v").2 (.inr h)) (by decide +kernel)
  · exact absurd ((base "w").2 (.inr h)) (by decide +kernel)

end StaticSite.Template
