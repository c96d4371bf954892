import StaticSite.Template.Value

/-!
# Values and documents

A document becomes a value whose numbers are doubles. A value becomes a document again: whole
numbers below `10^15` are integers, other finite numbers doubles, and undefined fields are left out.
Reference numbers are given out afterwards, each once.
-/

namespace StaticSite.Template.Value

mutual

/-- The value of a document. Its arrays and objects are not told apart until they are labelled. -/
def ofJson : Json → Value
  | .null => null
  | .bool b => bool b
  | .int n => number (Float.ofInt n)
  | .float x => number x
  | .string s => string s
  | .array items => array 0 (ofItems items)
  | .object fields => object 0 (ofFields fields)

/-- The values of some documents. -/
def ofItems : List Json → List Value
  | [] => []
  | j :: rest => ofJson j :: ofItems rest

/-- The values of the fields of an object. -/
def ofFields : List (String × Json) → List (String × Value)
  | [] => []
  | (name, j) :: rest => (name, ofJson j) :: ofFields rest

end

/-- The document form of a number. -/
def numberJson (x : Float) : Json :=
  if isIntegral x && x.abs < 1e15 then .int (Double.ofFloat x).truncate
  else if x.isFinite then .float x
  else .null

/-- A field, unless its value is undefined. -/
def definedField (name : String) (v : Value) (j : Json) : List (String × Json) :=
  if v.isUndefined then [] else [(name, j)]

mutual

/-- A value as a document; undefined fields are left out. -/
def toJson : Value → Json
  | undefined | null => .null
  | bool b => .bool b
  | number x => numberJson x
  | string s => .string s
  | array _ items => .array (toItems items)
  | object _ fields => .object (toFields fields)
  | date _ y m d =>
    .object (definedField "year" y (toJson y) ++ definedField "month" m (toJson m) ++
      definedField "day" d (toJson d))

/-- Some values as documents. -/
def toItems : List Value → List Json
  | [] => []
  | v :: rest => toJson v :: toItems rest

/-- Fields as those of a document; undefined ones are left out. -/
def toFields : List (String × Value) → List (String × Json)
  | [] => []
  | (name, v) :: rest => definedField name v (toJson v) ++ toFields rest

end

/-! ## References -/

mutual

/-- Gives the arrays, objects and dates in a value reference numbers from `next` on, and returns the
first number that is left. -/
def label (next : Nat) : Value → Value × Nat
  | array _ items =>
    let (items, after) := labelItems (next + 1) items
    (array next items, after)
  | object _ fields =>
    let (fields, after) := labelFields (next + 1) fields
    (object next fields, after)
  | date _ y m d =>
    let (y, n₁) := label (next + 1) y
    let (m, n₂) := label n₁ m
    let (d, n₃) := label n₂ d
    (date next y m d, n₃)
  | v => (v, next)

/-- Gives identities to some values one after the other. -/
def labelItems (next : Nat) : List Value → List Value × Nat
  | [] => ([], next)
  | v :: rest =>
    let (v, after) := label next v
    let (rest, last) := labelItems after rest
    (v :: rest, last)

/-- Gives identities to the values of some fields one after the other. -/
def labelFields (next : Nat) : List (String × Value) → List (String × Value) × Nat
  | [] => ([], next)
  | (name, v) :: rest =>
    let (v, after) := label next v
    let (rest, last) := labelFields after rest
    ((name, v) :: rest, last)

end

end StaticSite.Template.Value
