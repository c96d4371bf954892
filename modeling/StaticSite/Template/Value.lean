import StaticSite.Json.Basic
import StaticSite.Decimal.Reading
import StaticSite.Text.Blank

/-!
# Values of template code

A value is undefined, null, a truth value, a double, a text, or an array, an object or a date. The
last three carry a reference number, by which `===` tells two of them apart; all else about them is
their content. Conversions, equality, addition and order follow the rules of page scripts.
-/

namespace StaticSite.Template

/-- A value of the template language. Arrays, objects and dates have identities. -/
inductive Value where
  | undefined
  | null
  | bool (b : Bool)
  | number (x : Float)
  | string (s : String)
  | array (ref : Nat) (items : List Value)
  | object (ref : Nat) (fields : List (String × Value))
  | date (ref : Nat) (year month day : Value)

instance : Inhabited Value := ⟨.undefined⟩

namespace Value

/-- Whether a test on a value holds. -/
def isTruthy : Value → Bool
  | undefined | null => false
  | bool b => b
  | number x => x != 0.0 && !x.isNaN
  | string s => s != ""
  | array .. | object .. | date .. => true

/-- Whether a value is undefined or null. -/
def isNullish : Value → Bool
  | undefined | null => true
  | _ => false

/-- Whether a value is undefined. -/
def isUndefined : Value → Bool
  | undefined => true
  | _ => false

/-- The name of the type in messages. -/
def typeName : Value → String
  | undefined => "undefined"
  | null => "null"
  | bool _ => "boolean"
  | number _ => "number"
  | string _ => "string"
  | array .. => "array"
  | object .. | date .. => "object"

/-- The answer of `typeof`. -/
def typeOf : Value → String
  | undefined => "undefined"
  | bool _ => "boolean"
  | number _ => "number"
  | string _ => "string"
  | null | array .. | object .. | date .. => "object"

/-- The text of a string. -/
def asString? : Value → Option String
  | string s => some s
  | _ => none

/-- The field of an object with the given name. -/
def field? (v : Value) (name : String) : Option Value :=
  match v with
  | object _ fields => Fields.get? fields name
  | _ => none

end Value

/-! ## Text -/

/-- The text of a number: whole numbers below `10^15` without a sign of zero, all others positional
with the fewest digits. -/
def numberString (x : Float) : String :=
  if x.isNaN then "NaN"
  else if x.isInf then (if 0.0 < x then "Infinity" else "-Infinity")
  else if isIntegral x && x.abs < 1e15 then
    String.ofList (Decimal.intText (Double.ofFloat x).truncate)
  else Decimal.plainText x

namespace Value

mutual

/-- The text of a value. -/
def toText : Value → String
  | undefined => "undefined"
  | null => "null"
  | bool b => if b then "true" else "false"
  | number x => numberString x
  | string s => s
  | array _ items => ",".intercalate (outputs items)
  | object .. | date .. => "[object Object]"

/-- What is written for a value: nothing for undefined and null. -/
def toOutput : Value → String
  | undefined => ""
  | null => ""
  | bool b => if b then "true" else "false"
  | number x => numberString x
  | string s => s
  | array _ items => ",".intercalate (outputs items)
  | object .. | date .. => "[object Object]"

/-- The texts that some values have in the output. -/
def outputs : List Value → List String
  | [] => []
  | v :: rest => v.toOutput :: outputs rest

end

/-! ## Numbers -/

/-- The number that stands for no number. -/
def notANumber : Float := 0.0 / 0.0

/-- The number that a text stands for: zero when it is blank. -/
def numberOfText (s : String) : Float :=
  let t := Text.trim s.toList
  if t = [] then 0.0 else (Decimal.float? t).getD notANumber

/-- The number that a value is taken for. -/
def toNumber : Value → Float
  | undefined => notANumber
  | null => 0.0
  | bool b => if b then 1.0 else 0.0
  | number x => x
  | string s => numberOfText s
  | array _ [] => 0.0
  | array _ [v] => v.toNumber
  | array _ (_ :: _ :: _) => notANumber
  | object .. | date .. => notANumber

/-! ## Equality -/

mutual

/-- Equality of contents; the number that is none differs from itself. -/
def sameContent : Value → Value → Bool
  | undefined, undefined => true
  | null, null => true
  | bool a, bool b => a == b
  | number x, number y => x == y
  | string s, string t => s == t
  | array _ xs, array _ ys => sameItems xs ys
  | object _ fs, object _ gs => sameFields fs gs
  | date _ y m d, date _ y' m' d' => sameContent y y' && sameContent m m' && sameContent d d'
  | _, _ => false

/-- Whether values have the same content one by one. -/
def sameItems : List Value → List Value → Bool
  | [], [] => true
  | x :: xs, y :: ys => sameContent x y && sameItems xs ys
  | _, _ => false

/-- Whether fields have the same names and the same content one by one. -/
def sameFields : List (String × Value) → List (String × Value) → Bool
  | [], [] => true
  | (m, x) :: xs, (n, y) :: ys => m == n && sameContent x y && sameFields xs ys
  | _, _ => false

end

/-- `===`: by reference for arrays, objects and dates, by content for the rest. -/
def strictEq : Value → Value → Bool
  | array r _, array r' _ => r == r'
  | object r _, object r' _ => r == r'
  | date r .., date r' .. => r == r'
  | number x, number y => x == y
  | a, b => sameContent a b

/-- Whether a number or truth value meets a text, number or truth value of another type, so that
`==` compares numbers. -/
def comparesNumbers : Value → Value → Bool
  | number _, string _ | bool _, string _ | string _, number _ | string _, bool _ => true
  | bool _, number _ | number _, bool _ => true
  | _, _ => false

/-- `==`. -/
def looseEq (a b : Value) : Bool :=
  if a.isNullish && b.isNullish then true
  else if a.isNullish || b.isNullish then false
  else if comparesNumbers a b then a.toNumber == b.toNumber
  else strictEq a b

/-! ## Addition and order -/

/-- Whether `+` joins texts as soon as it meets the value. -/
def concatenates : Value → Bool
  | string _ | array .. | object .. | date .. => true
  | _ => false

/-- The sum of two values, or their texts one behind the other. -/
def add (a b : Value) : Value :=
  if a.concatenates || b.concatenates then string (a.toText ++ b.toText)
  else number (a.toNumber + b.toNumber)

/-- The order of two doubles, unless one is not a number. -/
def compareNumbers (x y : Float) : Option Ordering :=
  if x < y then some .lt
  else if y < x then some .gt
  else if x == y then some .eq
  else none

/-- Texts compare by code points, all else as numbers. -/
def compare : Value → Value → Option Ordering
  | string s, string t => some (compareOfLessAndEq s t)
  | a, b => compareNumbers a.toNumber b.toNumber

end Value

end StaticSite.Template
