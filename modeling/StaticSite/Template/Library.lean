import StaticSite.Json.Printer
import StaticSite.Template.Method

/-!
# Functions by name

The functions that stand under `Object`, `JSON` and `Math`, and those that stand alone. A template
may give these names a meaning of its own.
-/

namespace StaticSite.Template

open Arg

/-- The names whose members are functions. -/
def isNamespace (name : String) : Bool :=
  name == "Object" || name == "JSON" || name == "Math"

/-- The smaller of two numbers; one that is none does not count. -/
def minNumber (x y : Float) : Float :=
  if x.isNaN then y else if y < x then y else x

/-- The greater of two numbers; one that is none does not count. -/
def maxNumber (x y : Float) : Float :=
  if x.isNaN then y else if x < y then y else x

/-- The entry that `Object.keys`, `Object.values` or `Object.entries` makes of a key. -/
def objectEntry (v : Value) (name key : String) : Run Value := do
  if name = "keys" then return .string key
  let value ← Run.ofExcept (v.property key)
  if name = "values" then return value
  Run.newArray [.string key, value]

/-- What a function of objects gives for each key, in their order. -/
def objectEntries (v : Value) (name : String) : List String → Run (List Value)
  | [] => return []
  | key :: rest => do
    let entry ← objectEntry v name key
    return entry :: (← objectEntries v name rest)

/-- The functions of objects, which give an array with an item for each key. -/
def objectFunction (name : String) (first : Value) : Run Value := do
  if first.isNullish then Run.fail (.mismatch .notConvertible)
  else Run.newArray (← objectEntries first name first.ownKeys)

/-- The text of a value as a document; undefined has none. -/
def stringify (v : Value) (pretty : Bool) : Value :=
  if v.isUndefined then .undefined
  else .string (if pretty then v.toJson.pretty else v.toJson.compact)

/-- The value of a document's text. -/
def parseJson (text : String) : Run Value :=
  match Json.read text with
  | .ok j => Run.adopt (Value.ofJson j)
  | .error e => Run.fail (.malformed (.invalidJson e))

/-- `owner.name(args)` -/
def callNamespace (owner name : String) (args : List Arg) : Run Value :=
  let first := valueAt args 0
  let x := first.toNumber
  let numbers := (List.range args.length).map fun i => (valueAt args i).toNumber
  match owner, name with
  | "Object", "keys" | "Object", "values" | "Object", "entries" => objectFunction name first
  | "JSON", "stringify" => return stringify first (valueAt args 2).isTruthy
  | "JSON", "parse" => parseJson first.toText
  | "Math", "min" => return .number (numbers.foldl minNumber (1.0 / 0.0))
  | "Math", "max" => return .number (numbers.foldl maxNumber (-1.0 / 0.0))
  | "Math", "floor" => return .number (floorFloat x)
  | "Math", "ceil" => return .number (ceilFloat x)
  | "Math", "round" => return .number (floorFloat (x + 0.5))
  | "Math", "abs" => return .number x.abs
  | _, _ => Run.fail (.mismatch (.notMethod owner name))

/-- The longest beginning of a text that looks like a number: a sign, digits and, for fractions, one
point. -/
def numericStart (fractional : Bool) (s : List Char) : List Char :=
  let (sign, body) := match s with
    | '-' :: r => (['-'], r)
    | '+' :: r => (['+'], r)
    | r => ([], r)
  let whole := body.takeWhile Char.isDigit
  match body.dropWhile Char.isDigit with
  | '.' :: r =>
    if fractional then sign ++ whole ++ '.' :: r.takeWhile Char.isDigit else sign ++ whole
  | _ => sign ++ whole

/-- The number at the beginning of a text. -/
def leadingNumber (fractional : Bool) (text : String) : Float :=
  let start := numericStart fractional (Text.trimStart text.toList)
  let x := (Decimal.float? start).getD Value.notANumber
  if fractional then x else truncFloat x

/-- `name(args)` -/
def callGlobal (name : String) (args : List Arg) : Run Value :=
  let first := valueAt args 0
  match name with
  | "escapeForHtml" => return .string (Text.escapeHtml first.toOutput)
  | "String" => return .string first.toText
  | "Number" => return .number first.toNumber
  | "Boolean" => return .bool first.isTruthy
  | "parseInt" => return .number (leadingNumber false first.toText)
  | "parseFloat" => return .number (leadingNumber true first.toText)
  | "isNaN" => return .bool first.toNumber.isNaN
  | _ => Run.fail (.undefinedName name)

end StaticSite.Template
