import StaticSite.Proofs.Except
import StaticSite.Proofs.Task
import StaticSite.Template.Eval

/-!
# Logics of expressions

A `Run.BasicLogic` is a property of runs that a sequence has when its parts have it, and that the
steps have of which methods are made: reading the scope, taking a reference number, calling an
arrow, and failing for one of the reasons that an expression can have (`Fault.IsOfExpr`). An arrow
is passed on unevaluated, so the arguments of a call have the property when every callback among
them has it (`Arg.Has`). The main result is `Run.BasicLogic.eval`: an expression has the property,
whichever methods and callbacks it runs, when stepping has it for the variables that the expression
steps (`Expr.stepped`). In a `Run.Logic` stepping has it for all variables, and so all expressions
do.
-/

namespace StaticSite.Template

/-! ## The faults of expressions -/

/-- A reason for which an expression can fail. -/
def Fault.IsOfExpr : Fault → Prop
  | .undefinedName _ | .mismatch _ => True
  | .malformed .arrowOutsideCall | .malformed (.invalidJson _) => True
  | _ => False

theorem Value.isOfExpr_of_property {v : Value} {name : String} {fault : Fault}
    (h : v.property name = .error fault) : fault.IsOfExpr := by
  cases v <;> cases h <;> trivial

theorem Value.isOfExpr_of_index {v key : Value} {fault : Fault} (h : v.index key = .error fault) :
    fault.IsOfExpr := by
  unfold Value.index at h
  split at h
  · cases h
  · cases h
  · exact isOfExpr_of_property h

theorem isOfExpr_of_compareFields {other : Value} {fields : List (String × Value)} {fault : Fault}
    (h : compareFields other fields = .error fault) : fault.IsOfExpr := by
  induction fields with
  | nil => cases h
  | cons field rest ih =>
    rcases Except.bind_eq_error_iff.1 h with h | ⟨theirs, -, h⟩
    · exact Value.isOfExpr_of_property h
    · split at h
      · cases h
      · cases h
      · exact ih h

theorem isOfExpr_of_dateMethod {year month day other : Value} {name : String} {fault : Fault}
    (h : dateMethod year month day name other = .error fault) : fault.IsOfExpr := by
  unfold dateMethod at h
  split at h
  · cases h
  · split at h
    · cases h
    · split at h
      · exact isOfExpr_of_compareFields (Except.map_eq_error_iff.1 h)
      · cases h
        trivial

/-! ## What a run can yield -/

section Yields

variable {α β : Type}

/-- Some run of a computation ends in a value. -/
def Run.CanYield (x : Run α) (a : α) : Prop :=
  ∃ s s', x.run.run s = (.ok a, s')

theorem Run.eq_of_canYield_pure {a b : α} (h : (Pure.pure a : Run α).CanYield b) : b = a := by
  obtain ⟨s, s', h⟩ := h
  cases h
  rfl

/-- What a sequence yields comes from its second part. -/
theorem Run.exists_of_canYield_bind {x : Run α} {f : α → Run β} {b : β} (h : (x >>= f).CanYield b) :
    ∃ a, x.CanYield a ∧ (f a).CanYield b := by
  obtain ⟨s, s', h⟩ := h
  obtain ⟨a, t, hx, hf⟩ := Task.run_bind_eq_ok.1 h
  exact ⟨a, ⟨s, t, hx⟩, t, s', hf⟩

end Yields

/-! ## Logics -/

/-- A property of runs that methods have when their steps have it. -/
structure Run.BasicLogic where
  holds {α : Type} : Run α → Prop
  pure {α : Type} (a : α) : holds (Pure.pure a : Run α)
  fail {α : Type} {fault : Fault} : fault.IsOfExpr → holds (Run.fail fault : Run α)
  bind {α β : Type} {x : Run α} {f : α → Run β} :
    holds x → (∀ a, x.CanYield a → holds (f a)) → holds (x >>= f)
  scope : holds Run.scope
  freshRef : holds Run.freshRef
  adopt (v : Value) : holds (Run.adopt v)
  invoke (params : List String) {body : Run Value} (args : List Value) :
    holds body → holds (invoke params body args)

/-- A property of runs that expressions have when their steps have it. -/
structure Run.Logic extends Run.BasicLogic where
  stepName (name : String) (up first : Bool) : holds (stepName name up first)

namespace Run.BasicLogic

variable (L : Run.BasicLogic) {α β : Type}

theorem andThen {x : Run α} {f : α → Run β} (hx : L.holds x) (hf : ∀ a, L.holds (f a)) :
    L.holds (x >>= f) :=
  L.bind hx fun a _ => hf a

theorem ite {c : Prop} [Decidable c] {x y : Run α} (hx : L.holds x) (hy : L.holds y) :
    L.holds (if c then x else y) := by
  split
  · exact hx
  · exact hy

theorem ofExcept {x : Except Fault α} (h : ∀ fault, x = .error fault → fault.IsOfExpr) :
    L.holds (Run.ofExcept x) := by
  cases x with
  | error fault => exact L.fail (h fault rfl)
  | ok a => exact L.pure a

theorem lookup (name : String) : L.holds (Run.lookup name) := by
  refine L.andThen L.scope fun scope => ?_
  split
  · exact L.pure _
  · exact L.fail trivial

theorem newArray (items : List Value) : L.holds (Run.newArray items) :=
  L.andThen L.freshRef fun _ => L.pure _

theorem newObject (fields : Fields Value) : L.holds (Run.newObject fields) :=
  L.andThen L.freshRef fun _ => L.pure _

theorem property (v : Value) (name : String) : L.holds (Run.ofExcept (v.property name)) :=
  L.ofExcept fun _ => Value.isOfExpr_of_property

end Run.BasicLogic

/-! ## Arguments and methods -/

section Arguments

variable (L : Run.BasicLogic)

/-- A value, or a callback that has the property. -/
def Arg.Has : Arg → Prop
  | .value _ => True
  | .callback call => ∀ vs, L.holds (call vs)

variable {L}

theorem Arg.holds_callbackFor (method : String) (args : List Arg) :
    L.holds (Arg.callbackFor method args) := by
  unfold Arg.callbackFor
  split
  · exact L.pure _
  · exact L.fail trivial

theorem Arg.holds_of_callbackFor {args : List Arg} (h : ∀ a ∈ args, a.Has L) {method : String}
    {call : List Value → Run Value} (hc : (Arg.callbackFor method args).CanYield call)
    (vs : List Value) :
    L.holds (call vs) := by
  unfold Arg.callbackFor at hc
  split at hc
  · rename_i found rest
    rw [Run.eq_of_canYield_pure hc]
    exact h (.callback found) List.mem_cons_self vs
  · obtain ⟨s, s', hc⟩ := hc
    cases hc

end Arguments

namespace Run.BasicLogic

variable (L : Run.BasicLogic)

section Callbacks

variable {call : List Value → Run Value} (hc : ∀ vs, L.holds (call vs))

include hc

theorem mapItems : ∀ items i, L.holds (mapItems call items i)
  | [], _ => L.pure _
  | _ :: rest, i => L.andThen (hc _) fun _ => L.andThen (mapItems rest (i + 1)) fun _ => L.pure _

theorem filterItems : ∀ items i, L.holds (filterItems call items i)
  | [], _ => L.pure _
  | _ :: rest, i => L.andThen (hc _) fun _ =>
      L.ite (L.andThen (filterItems rest (i + 1)) fun _ => L.pure _) (filterItems rest (i + 1))

theorem findItem (sign : Bool) : ∀ items i, L.holds (findItem call sign items i)
  | [], _ => L.pure _
  | _ :: rest, i => L.andThen (hc _) fun _ => L.ite (L.pure _) (findItem sign rest (i + 1))

theorem callbackLess (a b : Value) : L.holds (callbackLess call a b) :=
  L.andThen (hc _) fun _ => L.pure _

end Callbacks

section Sorting

variable {α : Type} {less : α → α → Run Bool} (hl : ∀ a b, L.holds (less a b))

include hl

theorem insertBack (x : α) : ∀ sorted, L.holds (insertBack less x sorted)
  | [] => L.pure _
  | y :: rest => L.andThen (hl x y) fun _ =>
      L.ite (L.andThen (insertBack x rest) fun _ => L.pure _) (L.pure _)

theorem insertAll : ∀ sorted items, L.holds (insertAll less sorted items)
  | _, [] => L.pure _
  | sorted, x :: rest => L.andThen (L.insertBack hl x sorted) fun s => insertAll s rest

theorem mergeBy : ∀ fuel xs ys, L.holds (mergeBy less fuel xs ys)
  | 0, _, _ => L.pure _
  | _ + 1, [], _ => L.pure _
  | _ + 1, _ :: _, [] => L.pure _
  | fuel + 1, x :: xs, y :: ys => L.andThen (hl y x) fun _ =>
      L.ite (L.andThen (mergeBy fuel (x :: xs) ys) fun _ => L.pure _)
        (L.andThen (mergeBy fuel xs (y :: ys)) fun _ => L.pure _)

theorem sortWithin : ∀ fuel items, L.holds (sortWithin less fuel items)
  | 0, _ => L.pure _
  | fuel + 1, items =>
    L.ite (L.andThen (L.insertAll hl [] items) fun _ => L.pure _) <|
      L.andThen (sortWithin fuel _) fun _ => L.andThen (sortWithin fuel _) fun _ =>
    L.mergeBy hl _ _ _

end Sorting

variable {args : List Arg} (h : ∀ a ∈ args, a.Has L)

include h in
theorem sortItems (items : List Value) : L.holds (sortItems items args) := by
  unfold Template.sortItems
  split
  · rename_i call rest
    exact L.sortWithin (L.callbackLess (h (.callback call) List.mem_cons_self)) _ _
  · exact L.pure _

theorem stringMethod (s name : String) (args : List Arg) : L.holds (stringMethod s name args) := by
  unfold Template.stringMethod
  dsimp only
  split
  any_goals exact L.pure _
  · exact L.newArray _
  · exact L.fail trivial

include h in
theorem arrayMethod (ref : Nat) (items : List Value) (name : String) :
    L.holds (arrayMethod ref items name args) := by
  have withCallback {α : Type} {f : (List Value → Run Value) → Run α}
      (hf : ∀ call, (∀ vs, L.holds (call vs)) → L.holds (f call)) :
      L.holds (Arg.callbackFor name args >>= f) :=
    L.bind (Arg.holds_callbackFor name args) fun call hc => hf call fun vs =>
      Arg.holds_of_callbackFor h hc vs
  unfold Template.arrayMethod
  dsimp only
  split
  any_goals exact L.pure _
  any_goals exact L.newArray _
  · split <;> exact L.pure _
  · exact withCallback fun _ hc => L.andThen (L.mapItems hc _ _) fun _ => L.newArray _
  · exact withCallback fun _ hc => L.andThen (L.filterItems hc _ _) fun _ => L.newArray _
  · exact withCallback fun _ hc => L.andThen (L.findItem hc _ _ _) fun _ => L.pure _
  · refine withCallback fun _ hc => L.andThen (L.findItem hc _ _ _) fun found => ?_
    split <;> exact L.pure _
  · exact withCallback fun _ hc => L.andThen (L.findItem hc _ _ _) fun _ => L.pure _
  · exact withCallback fun _ hc => L.andThen (L.findItem hc _ _ _) fun _ => L.pure _
  · exact L.andThen (L.sortItems h items) fun _ => L.newArray _
  · exact L.fail trivial

theorem numberMethod (x : Float) (name : String) (args : List Arg) :
    L.holds (numberMethod x name args) := by
  unfold Template.numberMethod
  split
  · exact L.pure _
  · exact L.pure _
  · exact L.fail trivial

include h in
theorem callMethod (receiver : Value) (name : String) :
    L.holds (callMethod receiver name args) := by
  unfold Template.callMethod
  split
  · exact L.stringMethod _ _ _
  · exact L.arrayMethod h _ _ _
  · exact L.numberMethod _ _ _
  · exact L.ite (L.pure _) (L.fail trivial)
  · exact L.ofExcept fun _ => isOfExpr_of_dateMethod
  · exact L.ite (L.pure _) (L.fail trivial)
  all_goals exact L.fail trivial

/-! ### Functions by name -/

theorem objectEntries (v : Value) (name : String) : ∀ keys, L.holds (objectEntries v name keys)
  | [] => L.pure _
  | key :: rest => by
    have entry : L.holds (objectEntry v name key) :=
      L.ite (L.pure _) (L.andThen (L.property v key) fun _ => L.ite (L.pure _) (L.newArray _))
    exact L.andThen entry fun _ => L.andThen (objectEntries v name rest) fun _ => L.pure _

theorem callNamespace (owner name : String) (args : List Arg) :
    L.holds (callNamespace owner name args) := by
  have object (first : Value) : L.holds (objectFunction name first) :=
    L.ite (L.fail trivial) (L.andThen (L.objectEntries _ _ _) fun _ => L.newArray _)
  unfold Template.callNamespace
  dsimp only
  split
  any_goals exact L.pure _
  any_goals exact object _
  · unfold parseJson
    split
    · exact L.adopt _
    · exact L.fail trivial
  · exact L.fail trivial

theorem callGlobal (name : String) (args : List Arg) : L.holds (callGlobal name args) := by
  unfold Template.callGlobal
  dsimp only
  split
  any_goals exact L.pure _
  exact L.fail trivial

/-! ### Expressions -/

theorem ownerOf (e : Expr) : L.holds (ownerOf e) := by
  unfold Template.ownerOf
  split
  · exact L.andThen L.scope fun _ => L.pure _
  · exact L.pure _

theorem applyUnary (op : UnaryOp) (operand : Expr) {value : Run Value} (hv : L.holds value) :
    L.holds (applyUnary op operand value) := by
  unfold Template.applyUnary
  split
  · exact L.ite (L.andThen L.scope fun _ => L.pure _) (L.andThen hv fun _ => L.pure _)
  · exact L.andThen hv fun _ => L.pure _

theorem callMember (target : Expr) (name : String) (optional : Bool) {receiver : Run Value}
    {args : Run (List Arg)} (hr : L.holds receiver) (ha : L.holds args)
    (hy : ∀ as, args.CanYield as → ∀ a ∈ as, a.Has L) :
    L.holds (callMember target name optional receiver args) := by
  refine L.andThen (L.ownerOf target) fun owner => ?_
  cases owner with
  | some owner => exact L.andThen ha fun _ => L.callNamespace _ _ _
  | none =>
    exact L.andThen hr fun _ => L.ite (L.pure _) (L.bind ha fun as h => L.callMethod (hy as h) _ _)

theorem callName (name : String) {args : Run (List Arg)} (ha : L.holds args) :
    L.holds (callName name args) :=
  L.andThen L.scope fun _ => L.ite (L.fail trivial) (L.andThen ha fun _ => L.callGlobal _ _)

end Run.BasicLogic

namespace Expr

mutual

/-- The variables that an expression steps, also in the arrows it passes on. -/
def stepped : Expr → List String
  | literal _ | name _ => []
  | array items => steppedIn items
  | object fields => steppedInFields fields
  | member target _ _ => target.stepped
  | index target key _ => target.stepped ++ key.stepped
  | call callee args => callee.stepped ++ steppedIn args
  | arrow _ body => body.stepped
  | unary _ operand => operand.stepped
  | binary _ left right | logical _ left right => left.stepped ++ right.stepped
  | conditional test yes no => test.stepped ++ (yes.stepped ++ no.stepped)
  | update s _ _ => [s]

/-- The variables that some expressions step. -/
def steppedIn : List Expr → List String
  | [] => []
  | e :: rest => e.stepped ++ steppedIn rest

/-- The variables that the values of some fields step. -/
def steppedInFields : List (String × Expr) → List String
  | [] => []
  | (_, e) :: rest => e.stepped ++ steppedInFields rest

end

end Expr

namespace Run.BasicLogic

variable (L : Run.BasicLogic)

/-- Stepping any of these variables has the property. -/
def Steps (names : List String) : Prop :=
  ∀ name ∈ names, ∀ up first, L.holds (stepName name up first)

variable {L}

theorem steps_append {names others : List String} :
    L.Steps (names ++ others) ↔ L.Steps names ∧ L.Steps others :=
  List.forall_mem_append

mutual

theorem eval : ∀ e : Expr, L.Steps e.stepped → L.holds (eval e)
  | .literal l, _ => by
    rw [Template.eval]
    exact L.pure _
  | .name s, _ => by
    rw [Template.eval]
    exact L.lookup s
  | .array items, h => by
    rw [Template.eval]
    exact L.andThen (evalAll items h) fun _ => L.newArray _
  | .object fields, h => by
    rw [Template.eval]
    exact L.andThen (evalFields fields h []) fun _ => L.newObject _
  | .member target property optional, h => by
    rw [Template.eval]
    exact L.andThen (eval target h) fun _ => L.ite (L.pure _) (L.property _ _)
  | .index target key optional, h => by
    obtain ⟨ht, hk⟩ := steps_append.1 h
    rw [Template.eval]
    exact L.andThen (eval target ht) fun _ => L.ite (L.pure _) <|
      L.andThen (eval key hk) fun _ => L.ofExcept fun _ => Value.isOfExpr_of_index
  | .call (.member target name optional) args, h => by
    obtain ⟨ht, ha⟩ := steps_append.1 h
    obtain ⟨holds, yields⟩ := evalArgs args ha
    rw [Template.eval]
    exact L.callMember _ _ _ (eval target ht) holds yields
  | .call (.name s) args, h => by
    rw [Template.eval]
    exact L.callName s (evalArgs args (steps_append.1 h).2).1
  | .call (.literal _) args, _ | .call (.array _) args, _ | .call (.object _) args, _
  | .call (.index ..) args, _ | .call (.call ..) args, _ | .call (.arrow ..) args, _
  | .call (.unary ..) args, _ | .call (.binary ..) args, _ | .call (.logical ..) args, _
  | .call (.conditional ..) args, _ | .call (.update ..) args, _ => L.fail trivial
  | .arrow params body, _ => by
    rw [Template.eval]
    exact L.fail trivial
  | .unary op operand, h => by
    rw [Template.eval]
    exact L.applyUnary op operand (eval operand h)
  | .binary op left right, h => by
    obtain ⟨hl, hr⟩ := steps_append.1 h
    rw [Template.eval]
    exact L.andThen (eval left hl) fun _ => L.andThen (eval right hr) fun _ => L.pure _
  | .logical op left right, h => by
    obtain ⟨hl, hr⟩ := steps_append.1 h
    rw [Template.eval]
    exact L.andThen (eval left hl) fun _ => L.ite (L.pure _) (eval right hr)
  | .conditional test yes no, h => by
    obtain ⟨ht, h⟩ := steps_append.1 h
    obtain ⟨hy, hn⟩ := steps_append.1 h
    rw [Template.eval]
    exact L.andThen (eval test ht) fun _ => L.ite (eval yes hy) (eval no hn)
  | .update name up first, h => by
    rw [Template.eval]
    exact h name List.mem_cons_self up first

theorem evalAll : ∀ items : List Expr, L.Steps (Expr.steppedIn items) → L.holds (evalAll items)
  | [], _ => by
    rw [Template.evalAll]
    exact L.pure _
  | e :: rest, h => by
    obtain ⟨he, hrest⟩ := steps_append.1 h
    rw [Template.evalAll]
    exact L.andThen (eval e he) fun _ => L.andThen (evalAll rest hrest) fun _ => L.pure _

theorem evalFields : ∀ fields : List (String × Expr), L.Steps (Expr.steppedInFields fields) →
    ∀ before : Fields Value, L.holds (evalFields before fields)
  | [], _, before => by
    rw [Template.evalFields]
    exact L.pure _
  | (name, e) :: rest, h, before => by
    obtain ⟨he, hrest⟩ := steps_append.1 h
    rw [Template.evalFields]
    exact L.andThen (eval e he) fun _ => evalFields rest hrest _

/-- The arguments of a call have the property, and so has every callback among what they yield. -/
theorem evalArgs : ∀ args : List Expr, L.Steps (Expr.steppedIn args) → L.holds (evalArgs args) ∧
    ∀ as, (Template.evalArgs args).CanYield as → ∀ a ∈ as, a.Has L
  | [], _ => by
    rw [Template.evalArgs]
    refine ⟨L.pure _, fun as h a ha => ?_⟩
    rw [Run.eq_of_canYield_pure h] at ha
    cases ha
  | e :: rest, h => by
    obtain ⟨he, hrest⟩ := steps_append.1 h
    obtain ⟨hrest, hyields⟩ := evalArgs rest hrest
    have tail (first : Arg) (hf : first.Has L) :
        L.holds (do return first :: (← Template.evalArgs rest)) ∧
        ∀ as, (do return first :: (← Template.evalArgs rest) : Run (List Arg)).CanYield as →
          ∀ a ∈ as, a.Has L := by
      refine ⟨L.andThen hrest fun _ => L.pure _, fun as h => ?_⟩
      obtain ⟨others, ho, h⟩ := Run.exists_of_canYield_bind h
      rw [Run.eq_of_canYield_pure h]
      exact List.forall_mem_cons.2 ⟨hf, hyields others ho⟩
    have value : L.holds (do return .value (← Template.eval e) :: (← Template.evalArgs rest)) ∧
        ∀ as, (do return .value (← Template.eval e) :: (← Template.evalArgs rest) :
          Run (List Arg)).CanYield as → ∀ a ∈ as, a.Has L := by
      refine ⟨L.andThen (eval e he) fun v => (tail (.value v) trivial).1, fun as h => ?_⟩
      obtain ⟨v, -, h⟩ := Run.exists_of_canYield_bind h
      exact (tail (.value v) trivial).2 as h
    cases e with
    | arrow params body =>
      rw [Template.evalArgs]
      exact tail _ fun vs => L.invoke params vs (eval body he)
    | _ =>
      rw [Template.evalArgs]
      · exact value
      · simp

end

end Run.BasicLogic

theorem Run.Logic.eval (L : Run.Logic) (e : Expr) : L.holds (eval e) :=
  BasicLogic.eval e fun name _ up first => L.stepName name up first

end StaticSite.Template
