import StaticSite.Template.Directive

/-!
# Template code

The syntax tree of a template: expressions, and statements among which literal texts and output
directives stand as they come.
-/

namespace StaticSite.Template

/-- A value that is written in the code. -/
inductive Literal where
  | undefined
  | null
  | bool (b : Bool)
  | number (x : Float)
  | string (s : String)

/-- The operators in front of one operand. -/
inductive UnaryOp where
  | not | negate | plus | typeOf
deriving DecidableEq, Repr

/-- The operators on two values. -/
inductive BinaryOp where
  | add | sub | mul | div | rem | lt | le | gt | ge | eq | ne | strictEq | strictNe
deriving DecidableEq, Repr

/-- The operators that may leave their right operand alone. -/
inductive LogicalOp where
  | and | or | nullish
deriving DecidableEq, Repr

/-- What an assignment does with the value that the variable has. -/
inductive AssignOp where
  | set | add | sub
deriving DecidableEq, Repr

/-- An expression. An arrow has a meaning only as the argument of a call; an update steps a variable
up or down and yields its value from before or after the step. -/
inductive Expr where
  | literal (l : Literal)
  | name (s : String)
  | array (items : List Expr)
  | object (fields : List (String × Expr))
  | member (target : Expr) (property : String) (optional : Bool)
  | index (target key : Expr) (optional : Bool)
  | call (callee : Expr) (args : List Expr)
  | arrow (params : List String) (body : Expr)
  | unary (op : UnaryOp) (operand : Expr)
  | binary (op : BinaryOp) (left right : Expr)
  | logical (op : LogicalOp) (left right : Expr)
  | conditional (test yes no : Expr)
  | update (name : String) (up first : Bool)

/-- A statement. A missing branch or clause is the empty statement. -/
inductive Stmt where
  | text (s : String)
  | output (how : Writing) (e : Expr)
  | declare (bindings : List (String × Option Expr))
  | assign (name : String) (op : AssignOp) (e : Expr)
  | expr (e : Expr)
  | branch (test : Expr) (yes no : Stmt)
  | forOf (binding : String) (source : Expr) (body : Stmt)
  | forIn (binding : String) (source : Expr) (body : Stmt)
  | forLoop (start : Stmt) (test : Option Expr) (step body : Stmt)
  | whileLoop (test : Expr) (body : Stmt)
  | block (body : List Stmt)
  | breakLoop
  | continueLoop
  | empty

namespace Stmt

mutual

/-- Whether the statement or one inside it writes escaped output. -/
def escapes : Stmt → Bool
  | output how _ => how == .escaped
  | branch _ yes no => yes.escapes || no.escapes
  | forOf _ _ body | forIn _ _ body | whileLoop _ body => body.escapes
  | forLoop _ _ _ body => body.escapes
  | block body => anyEscapes body
  | _ => false

/-- Whether one of some statements writes escaped output. -/
def anyEscapes : List Stmt → Bool
  | [] => false
  | s :: rest => s.escapes || anyEscapes rest

end

end Stmt

end StaticSite.Template
