import StaticSite.Template.Eval
import StaticSite.Template.Parser

/-!
# Templates

A template is compiled once and rendered against any number of contexts. Compiling never fails: what
is wrong with the form of a template is reported when it is rendered. A compiler may fix the names
that templates see; those a context lacks are undefined.
-/

namespace StaticSite.Template

/-- The values that a template is rendered against, by name. -/
abbrev Context := Fields Value

/-- The names that templates see, or all names of the context. -/
structure Compiler where
  visible : Option (List String) := none

/-- A compiled template. -/
structure Compiled where
  program : Except Malformed (List Stmt)
  visible : Option (List String)

/-- Compiles a template; what is wrong with its source is kept in it. -/
def Compiler.compile (compiler : Compiler) (source : String) : Compiled :=
  ⟨parse source, compiler.visible⟩

/-- The rounds after which a loop is given up: more than any run can make. -/
def loopLimit : Nat := twoTo 62

/-- Runs the statements of a template from its first to its last. -/
def runProgram (limit : Nat) (program : List Stmt) : Run Unit := do
  if (← execAll limit program) = .normal then return ()
  else Run.fail (.malformed .strayLoopControl)

/-- The state in which a template starts: a base frame of values that are all told apart. -/
def State.start (globals : Frame) : State :=
  let (globals, next) := Value.labelFields 0 globals
  ⟨.ofFrame globals, next, []⟩

namespace Compiled

/-- The values that template code sees of a context. -/
def globals (t : Compiled) (context : Context) : Frame :=
  match t.visible with
  | none => context
  | some names => Fields.ofList (names.map fun name => (name, (context.get? name).getD .undefined))

/-- The pieces of output, in order, when no loop makes more than `limit` rounds. -/
def renderWithin (limit : Nat) (t : Compiled) (context : Context) : Except Fault (List Written) :=
  match t.program with
  | .error cause => .error (.malformed cause)
  | .ok program =>
    match (runProgram limit program).run.run (State.start (t.globals context)) with
    | (.ok (), s) => .ok s.written.reverse
    | (.error fault, _) => .error fault

/-- The output of a template. -/
def render (t : Compiled) (context : Context) : Except Fault String :=
  (t.renderWithin loopLimit context).map fun pieces => String.join (pieces.map Written.text)

/-- Whether a directive of the template writes escaped output. -/
def escapes (t : Compiled) : Bool :=
  match t.program with
  | .ok program => Stmt.anyEscapes program
  | .error _ => false

/-- What is wrong with the source of a template. -/
def compileError? (t : Compiled) : Option Malformed :=
  match t.program with
  | .ok _ => none
  | .error cause => some cause

end Compiled

end StaticSite.Template
