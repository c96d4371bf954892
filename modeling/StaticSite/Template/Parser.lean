import StaticSite.Text.Quoted
import StaticSite.Template.Code
import StaticSite.Template.Tokenizer
import StaticSite.Template.Value

/-!
# Reading template code

The segments of a template become one list of items, in which each statement directive leaves its
tokens and a semicolon, so that a block that one directive opens may end in another. Output
directives hold one expression each and are read on their own.

Operators of one level associate to the left. From the loosest to the tightest the levels are the
conditional, `||` and `??`, `&&`, equality, order, sums, products, signs, and suffixes.
-/

namespace StaticSite.Template

/-- A token of statement code, a literal text, or an output directive. -/
inductive Item where
  | code (t : Token)
  | text (s : String)
  | output (how : Writing) (e : Expr)

/-- A reader of items. -/
abbrev Parse := StateT (List Item) (Except Malformed)

/-- What stands at the head of the items, in words. -/
def found : List Item → String
  | [] => "end of template"
  | .text _ :: _ => "template text"
  | .output .. :: _ => "output directive"
  | .code (.name s) :: _ => s!"`{s}`"
  | .code (.number x) :: _ => s!"number {Decimal.plainText x}"
  | .code (.string s) :: _ => s!"string {Text.quoted s}"
  | .code (.template _) :: _ => "template string"
  | .code (.mark m) :: _ => s!"`{m.text}`"

namespace Parse

variable {α : Type}

/-- Refuses the source. -/
def fail (cause : Malformed) : Parse α :=
  throw cause

/-- Fails with a cause that names what was found. -/
def failFound (cause : String → Malformed) : Parse α := do
  throw (cause (found (← get)))

/-- The token at the given distance, if the item there is code. -/
def tokenAt (distance : Nat) : Parse (Option Token) := do
  match (← get)[distance]? with
  | some (.code t) => return some t
  | _ => return none

/-- Passes over some tokens. -/
def skip (count : Nat) : Parse Unit :=
  modify (·.drop count)

/-- Whether the given mark comes next. -/
def sees (m : Mark) : Parse Bool := do
  match ← tokenAt 0 with
  | some (.mark n) => return n == m
  | _ => return false

/-- Whether the next token is the given name. -/
def seesName (s : String) : Parse Bool := do
  match ← tokenAt 0 with
  | some (.name t) => return t == s
  | _ => return false

/-- Steps over the given mark if it comes next. -/
def eat (m : Mark) : Parse Bool := do
  if ← sees m then
    skip 1
    return true
  else return false

/-- Reads a mark that has to come. -/
def expect (m : Mark) : Parse Unit := do
  if ← eat m then return ()
  else failFound (.expectedMark m.text)

/-- Reads a name that has to come. -/
def expectName : Parse String := do
  match ← tokenAt 0 with
  | some (.name s) =>
    skip 1
    return s
  | _ => failFound .expectedName

/-- Reads items between commas to the closing mark; a comma may stand before it. -/
def listTo (close : Mark) (item : Parse α) : Nat → Parse (List α)
  | 0 => fail .missingStatement
  | fuel + 1 => do
    if ← eat close then return []
    let x ← item
    if ← eat .comma then return x :: (← listTo close item fuel)
    expect close
    return [x]

end Parse

open Parse

/-! ## Operators -/

/-- An operator of one level as the expression it makes. -/
abbrev Operators := Mark → Option (Expr → Expr → Expr)

/-- The operators that bind most tightly. -/
def products : Operators
  | .star => some (.binary .mul)
  | .slash => some (.binary .div)
  | .percent => some (.binary .rem)
  | _ => none

/-- The operators of sums. -/
def sums : Operators
  | .plus => some (.binary .add)
  | .minus => some (.binary .sub)
  | _ => none

/-- The operators that compare sizes. -/
def orders : Operators
  | .le => some (.binary .le)
  | .ge => some (.binary .ge)
  | .lt => some (.binary .lt)
  | .gt => some (.binary .gt)
  | _ => none

/-- The operators that compare for equality. -/
def equalities : Operators
  | .strictEq => some (.binary .strictEq)
  | .strictNe => some (.binary .strictNe)
  | .eq => some (.binary .eq)
  | .ne => some (.binary .ne)
  | _ => none

/-- The operator that needs both operands to be truthy. -/
def conjunctions : Operators
  | .andAnd => some (.logical .and)
  | _ => none

/-- The operators that bind most loosely. -/
def disjunctions : Operators
  | .orOr => some (.logical .or)
  | .nullish => some (.logical .nullish)
  | _ => none

/-- The levels of operators, the tightest first. -/
def levels : List Operators :=
  [products, sums, orders, equalities, conjunctions, disjunctions]

/-- Goes on behind a left operand while operators of the level follow. -/
def chain (ops : Operators) (operand : Parse Expr) : Nat → Expr → Parse Expr
  | 0, left => return left
  | fuel + 1, left => do
    match ← tokenAt 0 with
    | some (.mark m) =>
      match ops m with
      | some make =>
        skip 1
        let right ← operand
        chain ops operand fuel (make left right)
      | none => return left
    | _ => return left

/-- Reads operands and operators of one level. -/
def level (operand : Parse Expr) (ops : Operators) : Parse Expr := do
  let left ← operand
  chain ops operand (← get).length left

/-- Reads operators of all levels around operands. -/
def operation (operand : Parse Expr) : Parse Expr :=
  levels.foldl level operand

/-! ## Expressions -/

/-- The parameters of an arrow behind their opening parenthesis, and what stands behind the
arrow. -/
def arrowParams : List Item → Option (List String × List Item)
  | .code (.mark .closeParen) :: .code (.mark .arrow) :: rest => some ([], rest)
  | .code (.name s) :: .code (.mark .closeParen) :: .code (.mark .arrow) :: rest => some ([s], rest)
  | .code (.name s) :: .code (.mark .comma) :: rest =>
    (arrowParams rest).map fun (params, after) => (s :: params, after)
  | _ => none

/-- The meaning of a name that stands as an expression. -/
def nameExpr (s : String) : Expr :=
  if s = "true" then .literal (.bool true)
  else if s = "false" then .literal (.bool false)
  else if s = "null" then .literal .null
  else if s = "undefined" then .literal .undefined
  else .name s

/-- A template string as a sum of texts, from the empty text on. -/
def templateExpr (expression : Parse Expr) (sum : Expr) : List Piece → Except Malformed Expr
  | [] => .ok sum
  | .text s :: rest => templateExpr expression (.binary .add sum (.literal (.string s))) rest
  | .substitution code :: rest => do
    let (e, left) ← expression.run (code.map .code)
    match left with
    | [] => templateExpr expression (.binary .add sum e) rest
    | _ => .error (.extraInSubstitution (found left))

/-- The field of an object: a key with a value, or a name that stands for both. -/
def field (expression : Parse Expr) : Parse (String × Expr) := do
  let key ← match ← tokenAt 0 with
    | some (.name s) => pure s
    | some (.string s) => pure s
    | some (.number x) => pure (numberString x)
    | _ => failFound .expectedKey
  skip 1
  if ← eat .colon then return (key, ← expression)
  else return (key, .name key)

/-- The body of an arrow. -/
def arrowBody (expression : Parse Expr) (params : List String) : Parse Expr := do
  if ← sees .openBrace then fail .arrowWithBlock
  else return .arrow params (← expression)

/-- A variable behind or before a step mark. -/
def updateOf (up : Bool) : Expr → Parse Expr
  | .name s => do
    skip 1
    return .update s up false
  | _ => fail .targetOfUpdate

mutual

/-- Reads an expression: an operation, or a choice between two expressions. -/
def expression : Nat → Parse Expr
  | 0 => failFound .expectedExpression
  | fuel + 1 => do
    let test ← operation (unary fuel)
    if ← eat .question then
      let yes ← expression fuel
      expect .colon
      let no ← expression fuel
      return .conditional test yes no
    else return test

/-- Reads signs and steps before an operand. -/
def unary : Nat → Parse Expr
  | 0 => failFound .expectedExpression
  | fuel + 1 => do
    match ← tokenAt 0 with
    | some (.mark .bang) =>
      skip 1
      return .unary .not (← unary fuel)
    | some (.mark .minus) =>
      skip 1
      return .unary .negate (← unary fuel)
    | some (.mark .plus) =>
      skip 1
      return .unary .plus (← unary fuel)
    | some (.name "typeof") =>
      skip 1
      return .unary .typeOf (← unary fuel)
    | some (.mark .increment) =>
      skip 1
      return .update (← expectName) true true
    | some (.mark .decrement) =>
      skip 1
      return .update (← expectName) false true
    | _ => suffixes fuel (← primary fuel)

/-- Goes on behind an operand while suffixes follow. -/
def suffixes : Nat → Expr → Parse Expr
  | 0, _ => failFound .expectedExpression
  | fuel + 1, e => do
    match ← tokenAt 0 with
    | some (.mark .dot) =>
      skip 1
      suffixes fuel (.member e (← expectName) false)
    | some (.mark .optional) =>
      skip 1
      if ← eat .openBracket then
        let key ← expression fuel
        expect .closeBracket
        suffixes fuel (.index e key true)
      else suffixes fuel (.member e (← expectName) true)
    | some (.mark .openBracket) =>
      skip 1
      let key ← expression fuel
      expect .closeBracket
      suffixes fuel (.index e key false)
    | some (.mark .openParen) =>
      skip 1
      let args ← listTo .closeParen (expression fuel) fuel
      suffixes fuel (.call e args)
    | some (.mark .increment) => updateOf true e
    | some (.mark .decrement) => updateOf false e
    | _ => return e

/-- Reads what an expression begins with, up to the first access. -/
def primary : Nat → Parse Expr
  | 0 => failFound .expectedExpression
  | fuel + 1 => do
    match ← tokenAt 0 with
    | some (.number x) =>
      skip 1
      return .literal (.number x)
    | some (.string s) =>
      skip 1
      return .literal (.string s)
    | some (.template pieces) =>
      skip 1
      templateExpr (expression fuel) (.literal (.string "")) pieces
    | some (.name s) =>
      match ← tokenAt 1 with
      | some (.mark .arrow) =>
        skip 2
        arrowBody (expression fuel) [s]
      | _ =>
        skip 1
        return nameExpr s
    | some (.mark .openParen) =>
      match arrowParams ((← get).drop 1) with
      | some (params, rest) =>
        set rest
        arrowBody (expression fuel) params
      | none =>
        skip 1
        let e ← expression fuel
        expect .closeParen
        return e
    | some (.mark .openBracket) =>
      skip 1
      return .array (← listTo .closeBracket (expression fuel) fuel)
    | some (.mark .openBrace) =>
      skip 1
      return .object (← listTo .closeBrace (field (expression fuel)) fuel)
    | _ => failFound .expectedExpression

end

/-! ## Statements -/

/-- Bindings between commas. -/
def bindings (expression : Parse Expr) : Nat → Parse (List (String × Option Expr))
  | 0 => fail .missingStatement
  | fuel + 1 => do
    let name ← expectName
    let value ← if ← eat .assign then pure (some (← expression)) else pure none
    if ← eat .comma then return (name, value) :: (← bindings expression fuel)
    else return [(name, value)]

/-- A declaration, from its keyword on. -/
def declaration (expression : Parse Expr) (fuel : Nat) : Parse Stmt := do
  skip 1
  return .declare (← bindings expression fuel)

/-- The assignment that a mark stands for. -/
def assignOp? : Mark → Option AssignOp
  | .assign => some .set
  | .plusAssign => some .add
  | .minusAssign => some .sub
  | _ => none

/-- An assignment to a variable, if one comes next. -/
def assignment? : Parse (Option (String × AssignOp)) := do
  match ← tokenAt 0, ← tokenAt 1 with
  | some (.name s), some (.mark m) => return (assignOp? m).map (s, ·)
  | _, _ => return none

/-- An assignment or an expression. -/
def simpleStatement (expression : Parse Expr) : Parse Stmt := do
  match ← assignment? with
  | some (name, op) =>
    skip 2
    return .assign name op (← expression)
  | none =>
    let e ← expression
    match ← tokenAt 0 with
    | some (.mark m) => if (assignOp? m).isSome then fail .targetOfAssignment else return .expr e
    | _ => return .expr e

/-- A simple statement and the semicolon behind it, which may be missing. -/
def terminated (statement : Parse Stmt) : Parse Stmt := do
  let s ← statement
  let _ ← eat .semicolon
  return s

/-- Whether a name begins a declaration. -/
def isDeclarator (s : String) : Bool :=
  s == "let" || s == "const" || s == "var"

/-- Whether a declaration comes next. -/
def seesDeclarator : Parse Bool := do
  match ← tokenAt 0 with
  | some (.name s) => return isDeclarator s
  | _ => return false

/-- How a loop header goes on behind its declarator: `true` for `of`, `false` for `in`. -/
def iteration? (offset : Nat) : Parse (Option Bool) := do
  match ← tokenAt offset, ← tokenAt (offset + 1) with
  | some (.name _), some (.name "of") => return some true
  | some (.name _), some (.name "in") => return some false
  | _, _ => return none

/-- Reads a clause of a loop header unless the mark that ends it comes at once. -/
def clause {α : Type} (stop : Mark) (parse : Parse α) : Parse (Option α) := do
  if ← sees stop then return none else return some (← parse)

/-- What is left behind semicolons. -/
def dropSemicolons : List Item → List Item
  | .code (.mark .semicolon) :: rest => dropSemicolons rest
  | items => items

mutual

/-- Reads a statement. -/
def statement : Nat → Parse Stmt
  | 0 => fail .missingStatement
  | fuel + 1 => do
    match ← get with
    | [] => fail .missingStatement
    | .text s :: rest =>
      set rest
      return .text s
    | .output how e :: rest =>
      set rest
      return .output how e
    | .code (.mark .semicolon) :: rest =>
      set rest
      return .empty
    | .code (.mark .openBrace) :: rest =>
      set rest
      return .block (← blockBody fuel)
    | .code (.name "if") :: rest =>
      set rest
      expect .openParen
      let test ← expression fuel
      expect .closeParen
      let yes ← statement fuel
      let behind ← get
      set (dropSemicolons behind)
      if ← seesName "else" then
        skip 1
        return .branch test yes (← statement fuel)
      else
        set behind
        return .branch test yes .empty
    | .code (.name "for") :: rest =>
      set rest
      expect .openParen
      let declared ← seesDeclarator
      let offset := if declared then 1 else 0
      match ← iteration? offset with
      | some isOf =>
        skip offset
        let binding ← expectName
        skip 1
        let source ← expression fuel
        expect .closeParen
        let body ← statement fuel
        return if isOf then .forOf binding source body else .forIn binding source body
      | none =>
        let start ← clause .semicolon
          (if declared then declaration (expression fuel) fuel
            else simpleStatement (expression fuel))
        expect .semicolon
        let test ← clause .semicolon (expression fuel)
        expect .semicolon
        let step ← clause .closeParen (simpleStatement (expression fuel))
        expect .closeParen
        let body ← statement fuel
        return .forLoop (start.getD .empty) test (step.getD .empty) body
    | .code (.name "while") :: rest =>
      set rest
      expect .openParen
      let test ← expression fuel
      expect .closeParen
      return .whileLoop test (← statement fuel)
    | .code (.name "break") :: rest =>
      set rest
      terminated (pure .breakLoop)
    | .code (.name "continue") :: rest =>
      set rest
      terminated (pure .continueLoop)
    | .code _ :: _ =>
      if ← seesDeclarator then terminated (declaration (expression fuel) fuel)
      else terminated (simpleStatement (expression fuel))

/-- Reads the statements of a block and its closing brace. -/
def blockBody : Nat → Parse (List Stmt)
  | 0 => fail .unclosedBlock
  | fuel + 1 => do
    if (← get).isEmpty then fail .unclosedBlock
    else if ← eat .closeBrace then return []
    else
      let s ← statement fuel
      return s :: (← blockBody fuel)

end

/-- Reads statements to the end of the items. -/
def statements (one : Parse Stmt) : Nat → Parse (List Stmt)
  | 0 => return []
  | fuel + 1 => do
    if (← get).isEmpty then return []
    else if ← sees .closeBrace then fail .strayBrace
    else
      let s ← one
      return s :: (← statements one fuel)

/-! ## Templates -/

mutual

/-- The number of tokens in a token, those of its substitutions included. -/
def Token.weight : Token → Nat
  | .template pieces => 1 + weights pieces
  | _ => 1

/-- The weight of some pieces of a template string. -/
def weights : List Piece → Nat
  | [] => 0
  | p :: rest => p.weight + weights rest

/-- The weight of a piece, that of its code included. -/
def Piece.weight : Piece → Nat
  | .text _ => 1
  | .substitution code => 1 + tokenWeights code

/-- The weight of some tokens. -/
def tokenWeights : List Token → Nat
  | [] => 0
  | t :: rest => t.weight + tokenWeights rest

end

/-- The weight of an item. -/
def Item.weight : Item → Nat
  | .code t => t.weight
  | _ => 1

/-- Enough calls for any list of items: between two items at most four calls are open. -/
def callBound (items : List Item) : Nat :=
  8 * items.foldr (fun item n => item.weight + n) 2

/-- Reads the code of an output directive. -/
def outputExpr (code : String) : Except Malformed Expr := do
  let items := (← tokenize code).map Item.code
  let (e, left) ← (expression (callBound items)).run items
  match dropSemicolons left with
  | [] => .ok e
  | left => .error (.extraInOutput (found left) (String.ofList (Text.trim code.toList)))

/-- The items of a segment; code ends like a statement. -/
def Segment.items : Segment → Except Malformed (List Item)
  | .text s => .ok [.text s]
  | .output how code => do return [.output how (← outputExpr code)]
  | .statements code => do return (← tokenize code).map Item.code ++ [.code (.mark .semicolon)]

/-- Reads the segments of a template as statements. -/
def statementsOf (segments : List Segment) : Except Malformed (List Stmt) := do
  let items := (← segments.mapM Segment.items).flatten
  (statements (statement (callBound items)) (items.length + 1)).run' items

/-- The statements of a template. -/
def parse (source : String) : Except Malformed (List Stmt) := do
  statementsOf (← scan source)

end StaticSite.Template
