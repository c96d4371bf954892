import StaticSite.Template.Library

/-!
# Running templates

Expressions yield values and statements yield how control leaves them. Blocks, loop headers and loop
bodies of `for` have a frame of their own. A loop ends on `break`, goes on after `continue`, and
yields neither.
-/

namespace StaticSite.Template

/-- How control leaves a statement. -/
inductive Flow where
  | normal
  | break
  | continue
deriving DecidableEq, Repr

/-- The value of a literal. -/
def Literal.value : Literal → Value
  | .undefined => .undefined
  | .null => .null
  | .bool b => .bool b
  | .number x => .number x
  | .string s => .string s

/-- What an operator makes of its operand. -/
def UnaryOp.apply (op : UnaryOp) (v : Value) : Value :=
  match op with
  | .not => .bool !v.isTruthy
  | .negate => .number (-v.toNumber)
  | .plus => .number v.toNumber
  | .typeOf => .string v.typeOf

/-- What an operator makes of its operands. -/
def BinaryOp.apply (op : BinaryOp) (a b : Value) : Value :=
  match op with
  | .add => a.add b
  | .sub => .number (a.toNumber - b.toNumber)
  | .mul => .number (a.toNumber * b.toNumber)
  | .div => .number (a.toNumber / b.toNumber)
  | .rem => .number (remFloat a.toNumber b.toNumber)
  | .lt => .bool (Value.compare a b == some .lt)
  | .le => .bool (Value.compare a b == some .lt || Value.compare a b == some .eq)
  | .gt => .bool (Value.compare a b == some .gt)
  | .ge => .bool (Value.compare a b == some .gt || Value.compare a b == some .eq)
  | .eq => .bool (a.looseEq b)
  | .ne => .bool !(a.looseEq b)
  | .strictEq => .bool (a.strictEq b)
  | .strictNe => .bool !(a.strictEq b)

/-- Whether the left operand alone decides. -/
def LogicalOp.decides (op : LogicalOp) (v : Value) : Bool :=
  match op with
  | .and => !v.isTruthy
  | .or => v.isTruthy
  | .nullish => !v.isNullish

/-- Steps a variable up or down by one. -/
def stepName (name : String) (up first : Bool) : Run Value := do
  let old := (← Run.lookup name).toNumber
  let new := if up then old + 1.0 else old - 1.0
  Run.onScope (·.assign name (.number new))
  return .number (if first then new else old)

/-! ## Expressions -/

/-- Applies an operator to an operand. The type of a name without a value is known too. -/
def applyUnary (op : UnaryOp) (operand : Expr) (value : Run Value) : Run Value := do
  match operand with
  | .name s =>
    if op = .typeOf then
      return .string ((((← Run.scope).get? s).map Value.typeOf).getD "undefined")
    else return op.apply (← value)
  | _ => return op.apply (← value)

/-- The namespace that an expression names, unless the scope gives the name a meaning. -/
def ownerOf : Expr → Run (Option String)
  | .name s => do
    return if isNamespace s && ((← Run.scope).get? s).isNone then some s else none
  | _ => return none

/-- Calls a function under a namespace, or a method of a receiver. -/
def callMember (target : Expr) (name : String) (optional : Bool) (receiver : Run Value)
    (args : Run (List Arg)) : Run Value := do
  match ← ownerOf target with
  | some owner => callNamespace owner name (← args)
  | none =>
    let receiver ← receiver
    if optional && receiver.isNullish then return .undefined
    else callMethod receiver name (← args)

/-- Calls a function by its name. -/
def callName (name : String) (args : Run (List Arg)) : Run Value := do
  if ((← Run.scope).get? name).isSome then Run.fail (.mismatch (.notFunction name))
  else callGlobal name (← args)

mutual

/-- Evaluates an expression, its operands from left to right. -/
def eval : Expr → Run Value
  | .literal l => return l.value
  | .name s => Run.lookup s
  | .array items => do Run.newArray (← evalAll items)
  | .object fields => do Run.newObject (← evalFields [] fields)
  | .member target property optional => do
    let v ← eval target
    if optional && v.isNullish then return .undefined
    else Run.ofExcept (v.property property)
  | .index target key optional => do
    let v ← eval target
    if optional && v.isNullish then return .undefined
    else
      let k ← eval key
      Run.ofExcept (v.index k)
  | .call (.member target name optional) args =>
    callMember target name optional (eval target) (evalArgs args)
  | .call (.name s) args => callName s (evalArgs args)
  | .call _ _ => Run.fail (.mismatch .notCallable)
  | .arrow .. => Run.fail (.malformed .arrowOutsideCall)
  | .unary op operand => applyUnary op operand (eval operand)
  | .binary op left right => do
    let a ← eval left
    let b ← eval right
    return op.apply a b
  | .logical op left right => do
    let a ← eval left
    if op.decides a then return a else eval right
  | .conditional test yes no => do
    if (← eval test).isTruthy then eval yes else eval no
  | .update name up first => stepName name up first

/-- Evaluates expressions one after the other. -/
def evalAll : List Expr → Run (List Value)
  | [] => return []
  | e :: rest => do
    let v ← eval e
    return v :: (← evalAll rest)

/-- Evaluates the fields of an object; of two fields of one name the later value stays. -/
def evalFields (fields : Fields Value) : List (String × Expr) → Run (Fields Value)
  | [] => return fields
  | (name, e) :: rest => do
    let v ← eval e
    evalFields (fields.insert name v) rest

/-- The arguments of a call. An arrow is passed on unevaluated. -/
def evalArgs : List Expr → Run (List Arg)
  | [] => return []
  | .arrow params body :: rest => do
    return .callback (invoke params (eval body)) :: (← evalArgs rest)
  | e :: rest => do
    let v ← eval e
    return .value v :: (← evalArgs rest)

end

/-! ## Statements -/

/-- The items that `for … of` goes through. -/
def iterate : Value → Run (List Value)
  | .array _ items => return items
  | .string s => return s.toList.map fun c => .string (String.singleton c)
  | v => Run.fail (.mismatch (.notIterable v.typeName))

/-- Runs a body for each value in a frame of its own, until it breaks. -/
def forEach (binding : String) (body : Run Flow) : List Value → Run Unit
  | [] => return ()
  | v :: rest => do
    let flow ← Run.inFrame do
      Run.onScope (·.declare binding v)
      body
    if flow = .break then return () else forEach binding body rest

/-- Whether the test of a loop holds; without a test it does. -/
def evalTest : Option Expr → Run Bool
  | none => return true
  | some e => do return (← eval e).isTruthy

/-- The value that an assignment gives a variable. -/
def assigned (name : String) (op : AssignOp) (v : Value) : Run Value := do
  match op with
  | .set => return v
  | .add => return (← Run.lookup name).add v
  | .sub => return .number ((← Run.lookup name).toNumber - v.toNumber)

/-- Declares variables one after the other, without a value as undefined. -/
def declareAll : List (String × Option Expr) → Run Unit
  | [] => return ()
  | (name, value) :: rest => do
    let v ← match value with
      | some e => eval e
      | none => pure .undefined
    Run.onScope (·.declare name v)
    declareAll rest

mutual

/-- Runs a statement; `limit` bounds the rounds of each loop. -/
def exec (limit : Nat) : Stmt → Run Flow
  | .text s => do
    Run.write (.literal s)
    return .normal
  | .output how e => do
    let text := (← eval e).toOutput
    Run.write (match how with
      | .escaped => .escaped text
      | .raw => .raw text)
    return .normal
  | .declare bindings => do
    declareAll bindings
    return .normal
  | .assign name op e => do
    let v ← eval e
    let result ← assigned name op v
    Run.onScope (·.assign name result)
    return .normal
  | .expr e => do
    let _ ← eval e
    return .normal
  | .branch test yes no => do
    if (← eval test).isTruthy then exec limit yes else exec limit no
  | .forOf binding source body => do
    let items ← iterate (← eval source)
    forEach binding (exec limit body) items
    return .normal
  | .forIn binding source body => do
    let keys := (← eval source).ownKeys
    forEach binding (exec limit body) (keys.map .string)
    return .normal
  | .forLoop start test step body =>
    Run.inFrame do
      let _ ← exec limit start
      let round : Run Bool := do
        if ← evalTest test then
          if (← exec limit body) = .break then return false
          else
            let _ ← exec limit step
            return true
        else return false
      Run.repeatWhile round limit
      return .normal
  | .whileLoop test body => do
    let round : Run Bool := do
      if (← eval test).isTruthy then return (← exec limit body) ≠ .break
      else return false
    Run.repeatWhile round limit
    return .normal
  | .block body => Run.inFrame (execAll limit body)
  | .breakLoop => return .break
  | .continueLoop => return .continue
  | .empty => return .normal

/-- Runs statements until one leaves by another way than its end. -/
def execAll (limit : Nat) : List Stmt → Run Flow
  | [] => return .normal
  | s :: rest => do
    let flow ← exec limit s
    if flow = .normal then execAll limit rest else return flow

end

end StaticSite.Template
