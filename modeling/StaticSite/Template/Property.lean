import StaticSite.Template.Value
import StaticSite.Template.Fault

/-!
# Properties

Reading a property by name or by key, and the keys that enumeration yields. Undefined and null have
no properties; a property that is not there is undefined.
-/

namespace StaticSite.Template

/-- The position that a property name spells: digits, which a plus sign may precede. -/
def positionOfName? (name : String) : Option Nat :=
  let ds := match name.toList with
    | '+' :: r => r
    | r => r
  if ds ≠ [] ∧ ds.all Char.isDigit ∧ Decimal.digitsValue ds < twoTo 64 then
    some (Decimal.digitsValue ds)
  else none

/-- The position that a key stands for: a whole number that is not negative. -/
def positionOfKey? : Value → Option Nat
  | .number x => if 0.0 ≤ x ∧ isIntegral x then some (Double.ofFloat x).truncate.toNat else none
  | _ => none

/-- A position as the name of a property. -/
def indexText (i : Nat) : String :=
  String.ofList (Decimal.natText i)

namespace Value

/-- The fault of a property that is read of what has none. -/
def unreadable (v : Value) (name : String) : Fault :=
  .mismatch (.unreadable v.typeName name)

/-- The fault of a call of what is no method of a value. -/
def notMethod (v : Value) (name : String) : Fault :=
  .mismatch (.notMethod v.typeName name)

/-- The names of a date's fields, in the order of enumeration. -/
def dateFields : List String := ["year", "month", "day"]

/-- `v.name` -/
def property (v : Value) (name : String) : Except Fault Value :=
  match v with
  | undefined | null => .error (v.unreadable name)
  | string s => .ok (if name = "length" then number (Float.ofNat s.length) else undefined)
  | array _ items =>
    .ok <|
      if name = "length" then number (Float.ofNat items.length)
      else ((positionOfName? name).bind (items[·]?)).getD undefined
  | object _ fields => .ok ((Fields.get? fields name).getD undefined)
  | date _ y m d =>
    .ok <|
      if name = "year" then y
      else if name = "month" then m
      else if name = "day" then d
      else undefined
  | bool _ | number _ => .ok undefined

/-- The text of the character at a position. -/
def charAt? (s : String) (i : Nat) : Option Value :=
  s.toList[i]?.map fun c => string (String.singleton c)

/-- `v[key]` -/
def index (v key : Value) : Except Fault Value :=
  match v, positionOfKey? key with
  | array _ items, some i => .ok (items[i]?.getD undefined)
  | string s, some i => .ok ((charAt? s i).getD undefined)
  | _, _ => v.property key.toText

/-- The keys that `for … in` and `Object.keys` enumerate. -/
def ownKeys : Value → List String
  | object _ fields => Fields.names fields
  | date .. => dateFields
  | array _ items => (List.range items.length).map indexText
  | string s => (List.range s.length).map indexText
  | _ => []

end Value

end StaticSite.Template
