import StaticSite.Text.Escape
import StaticSite.Template.Code
import StaticSite.Template.Document

/-!
# Runs

Template code runs in a scope of frames, the innermost first, over the base frame, which holds the
page's data and every name assigned without a declaration. A run also gives out reference numbers
and collects what is written. What it has done is kept when it fails.
-/

namespace StaticSite.Template

/-- The variables of one block. -/
abbrev Frame := Fields Value

/-- The frames that are open, the innermost first, and the frame below them. -/
structure Scope where
  inner : List Frame
  base : Frame

namespace Scope

/-- The scope outside of all blocks. -/
def ofFrame (base : Frame) : Scope :=
  ⟨[], base⟩

/-- The value of a name in the innermost frame that has it. -/
def get? (s : Scope) (name : String) : Option Value :=
  (s.inner ++ [s.base]).findSome? (Fields.get? · name)

/-- Declares a name in the innermost frame. -/
def declare (s : Scope) (name : String) (v : Value) : Scope :=
  match s.inner with
  | [] => { s with base := s.base.insert name v }
  | f :: rest => { s with inner := f.insert name v :: rest }

/-- Writes a name in the first frame that has it. -/
def assignIn (name : String) (v : Value) : List Frame → Option (List Frame)
  | [] => none
  | f :: rest =>
    if Fields.has f name then some (Fields.insert name v f :: rest)
    else (assignIn name v rest).map (f :: ·)

/-- Assigns a name in the innermost frame that has it, else in the base frame. -/
def assign (s : Scope) (name : String) (v : Value) : Scope :=
  match assignIn name v s.inner with
  | some inner => { s with inner }
  | none => { s with base := s.base.insert name v }

/-- Declares parameters with the arguments in their places; missing arguments are undefined. -/
def bindAll (s : Scope) : List String → List Value → Scope
  | [], _ => s
  | p :: params, args => (s.declare p (args.head?.getD .undefined)).bindAll params args.tail

/-- Enters a block. -/
def push (s : Scope) : Scope :=
  { s with inner := [] :: s.inner }

/-- Leaves the innermost block. -/
def pop (s : Scope) : Scope :=
  { s with inner := s.inner.tail }

end Scope

/-- A piece of output, by where it comes from. -/
inductive Written where
  | literal (s : String)
  | escaped (s : String)
  | raw (s : String)

/-- The text of a part of the output. -/
def Written.text : Written → String
  | .literal s => s
  | .escaped s => Text.escapeHtml s
  | .raw s => s

/-- The scope, the next reference number, and what was written, the last piece first. -/
structure State where
  scope : Scope
  next : Nat
  written : List Written

/-- All that was written, in order. -/
def State.output (s : State) : String :=
  String.join (s.written.reverse.map Written.text)

/-- A computation that may fail, and keeps its state when it does. -/
abbrev Run := ExceptT Fault (StateM State)

namespace Run

variable {α : Type}

/-- Stops the run with a fault. -/
def fail (fault : Fault) : Run α :=
  throw fault

/-- A computation without effects. -/
def ofExcept (x : Except Fault α) : Run α :=
  ExceptT.mk (pure x)

/-- The variables that are in scope. -/
def scope : Run Scope := do
  return (← get).scope

/-- Changes the variables. -/
def onScope (f : Scope → Scope) : Run Unit :=
  modify fun s => { s with scope := f s.scope }

/-- The value of a name, which has to have one. -/
def lookup (name : String) : Run Value := do
  match (← scope).get? name with
  | some v => return v
  | none => fail (.undefinedName name)

/-- Runs with one more frame, which is closed whatever the outcome. -/
def inFrame (x : Run α) : Run α :=
  ExceptT.mk do
    modify fun s => { s with scope := s.scope.push }
    let outcome ← x.run
    modify fun s => { s with scope := s.scope.pop }
    return outcome

/-- Writes a part of the output. -/
def write (w : Written) : Run Unit :=
  modify fun s => { s with written := w :: s.written }

/-- Takes the next reference number. -/
def freshRef : Run Nat := do
  let s ← get
  set { s with next := s.next + 1 }
  return s.next

/-- An array with an identity of its own. -/
def newArray (items : List Value) : Run Value := do
  return .array (← freshRef) items

/-- An object with an identity of its own. -/
def newObject (fields : Fields Value) : Run Value := do
  return .object (← freshRef) fields

/-- Gives new reference numbers to a value that comes from outside. -/
def adopt (v : Value) : Run Value := do
  let s ← get
  let (v, next) := v.label s.next
  set { s with next }
  return v

/-- Repeats a step until it answers `false`; `limit` bounds the number of repetitions. -/
def repeatWhile (step : Run Bool) : Nat → Run Unit
  | 0 => fail .exhausted
  | limit + 1 => do
    if ← step then repeatWhile step limit

end Run

/-- An evaluated argument of a call. -/
inductive Arg where
  | value (v : Value)
  | callback (call : List Value → Run Value)

namespace Arg

/-- The value of an argument; an arrow and a missing argument have none. -/
def valueAt (args : List Arg) (i : Nat) : Value :=
  match args[i]? with
  | some (.value v) => v
  | _ => .undefined

/-- The callback that a method takes as its first argument. -/
def callbackFor (method : String) : List Arg → Run (List Value → Run Value)
  | .callback call :: _ => return call
  | _ => Run.fail (.mismatch (.callbackExpected method))

end Arg

/-- Calls an arrow, whose parameters are declared in a frame of their own. -/
def invoke (params : List String) (body : Run Value) (args : List Value) : Run Value :=
  Run.inFrame do
    Run.onScope (·.bindAll params args)
    body

end StaticSite.Template
