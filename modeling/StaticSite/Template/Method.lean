import StaticSite.Text.Search
import StaticSite.Template.Date
import StaticSite.Template.Run
import StaticSite.Template.Sort

/-!
# Methods

The methods of texts, arrays, numbers, truth values, objects and dates. Positions count characters;
a method that is not there is a mismatch named after the type of its receiver.
-/

namespace StaticSite.Template

open Arg

/-- The count that a value stands for: its whole part, within the range of counts. -/
def countOf (v : Value) : Nat :=
  (Double.ofFloat v.toNumber).toCount

/-! ## Slices -/

/-- A bound of a slice of `length` items: a negative one counts from the end. -/
def sliceBound (length missing : Nat) (v : Value) : Nat :=
  if v.isUndefined then missing
  else
    let x := v.toNumber
    if x.isNaN then 0
    else if x < 0.0 then length - (Double.ofFloat (-x)).toCount
    else min (Double.ofFloat x).toCount length

/-- The items from one bound to the other. -/
def slice {α : Type} (items : List α) (start stop : Value) : List α :=
  let first := sliceBound items.length 0 start
  let last := sliceBound items.length items.length stop
  (items.take last).drop first

/-! ## Texts -/

/-- The first `count` characters of a text that is repeated without end. -/
def cycled (fill : List Char) (count : Nat) : List Char :=
  ((List.replicate (count / fill.length + 1) fill).flatten).take count

/-- What fills a text up to a width. -/
def padding (s : List Char) (width : Nat) (fill : Value) : List Char :=
  let fill := if fill.isUndefined then [' '] else fill.toText.toList
  if fill = [] then [] else cycled fill (width - s.length)

/-- Characters as a value. -/
def textOf (s : List Char) : Value :=
  .string (String.ofList s)

/-- The position of the first occurrence, or minus one. -/
def positionOf (p s : List Char) : Value :=
  match Text.splitFirst p s with
  | some (before, _) => .number (Float.ofNat before.length)
  | none => .number (-1.0)

/-- The pieces of a text between separators. -/
def splitText (s : String) (separator : Value) : List Value :=
  if separator.isUndefined then [.string s]
  else (Text.splitAt separator.toText.toList s.toList).map textOf

/-- The methods of strings. -/
def stringMethod (s : String) (name : String) (args : List Arg) : Run Value :=
  let cs := s.toList
  let argText (i : Nat) : List Char := (valueAt args i).toText.toList
  match name with
  | "toUpperCase" => return textOf (Text.upper cs)
  | "toLowerCase" => return textOf (Text.lower cs)
  | "trim" => return textOf (Text.trim cs)
  | "trimStart" => return textOf (Text.trimStart cs)
  | "trimEnd" => return textOf (Text.trimEnd cs)
  | "toString" => return .string s
  | "includes" => return .bool (Text.occursIn (argText 0) cs)
  | "startsWith" => return .bool ((argText 0).isPrefixOf cs)
  | "endsWith" => return .bool ((argText 0).isSuffixOf cs)
  | "indexOf" => return positionOf (argText 0) cs
  | "slice" | "substring" => return textOf (slice cs (valueAt args 0) (valueAt args 1))
  | "split" => Run.newArray (splitText s (valueAt args 0))
  | "replace" => return textOf (Text.replaceFirst (argText 0) (argText 1) cs)
  | "replaceAll" => return textOf (Text.replaceAll (argText 0) (argText 1) cs)
  | "padStart" => return textOf (padding cs (countOf (valueAt args 0)) (valueAt args 1) ++ cs)
  | "padEnd" => return textOf (cs ++ padding cs (countOf (valueAt args 0)) (valueAt args 1))
  | _ => Run.fail (Value.notMethod (.string s) name)

/-! ## Arrays -/

/-- The position of the first item that is strictly equal to a value. -/
def positionOfItem? (items : List Value) (v : Value) : Option Nat :=
  items.findIdx? (·.strictEq v)

/-- The items of a list followed by those of arrays and by other values. -/
def concatAll (items : List Value) (more : List Value) : List Value :=
  items ++ more.flatMap fun
    | .array _ items => items
    | v => [v]

/-- An item and its position, as callbacks get them. -/
def itemArgs (item : Value) (i : Nat) : List Value :=
  [item, .number (Float.ofNat i)]

/-- The results of a callback on the items from position `i` on. -/
def mapItems (call : List Value → Run Value) : List Value → Nat → Run (List Value)
  | [], _ => return []
  | item :: rest, i => do
    let v ← call (itemArgs item i)
    return v :: (← mapItems call rest (i + 1))

/-- The items for which the call answers what is truthy. -/
def filterItems (call : List Value → Run Value) : List Value → Nat → Run (List Value)
  | [], _ => return []
  | item :: rest, i => do
    if (← call (itemArgs item i)).isTruthy then return item :: (← filterItems call rest (i + 1))
    else filterItems call rest (i + 1)

/-- The first item on which the truth of a callback's result is `sign`, with its position. -/
def findItem (call : List Value → Run Value) (sign : Bool) :
    List Value → Nat → Run (Option (Value × Nat))
  | [], _ => return none
  | item :: rest, i => do
    if (← call (itemArgs item i)).isTruthy == sign then return some (item, i)
    else findItem call sign rest (i + 1)

/-- Whether a callback puts its first argument before its second. -/
def callbackLess (call : List Value → Run Value) (a b : Value) : Run Bool := do
  return (← call [a, b]).toNumber < 0.0

/-- The order of items by their texts. -/
def sortByText (items : List Value) : List Value :=
  items.mergeSort fun a b => !(decide (b.toText < a.toText))

/-- Sorts by a callback if there is one, else by the items' texts. -/
def sortItems (items : List Value) : List Arg → Run (List Value)
  | .callback call :: _ => sortBy (callbackLess call) items
  | _ => return sortByText items

/-- The methods of arrays. -/
def arrayMethod (ref : Nat) (items : List Value) (name : String) (args : List Arg) : Run Value := do
  let first := valueAt args 0
  match name with
  | "join" =>
    let separator := if first.isUndefined then "," else first.toText
    return .string (separator.intercalate (items.map Value.toOutput))
  | "includes" => return .bool (positionOfItem? items first).isSome
  | "indexOf" =>
    match positionOfItem? items first with
    | some i => return .number (Float.ofNat i)
    | none => return .number (-1.0)
  | "slice" => Run.newArray (slice items first (valueAt args 1))
  | "concat" => Run.newArray (concatAll items ((List.range args.length).map (valueAt args)))
  | "reverse" => Run.newArray items.reverse
  | "map" => Run.newArray (← mapItems (← callbackFor name args) items 0)
  | "filter" => Run.newArray (← filterItems (← callbackFor name args) items 0)
  | "find" =>
    return ((← findItem (← callbackFor name args) true items 0).map Prod.fst).getD .undefined
  | "findIndex" =>
    match ← findItem (← callbackFor name args) true items 0 with
    | some (_, i) => return .number (Float.ofNat i)
    | none => return .number (-1.0)
  | "some" => return .bool (← findItem (← callbackFor name args) true items 0).isSome
  | "every" => return .bool (← findItem (← callbackFor name args) false items 0).isNone
  | "sort" => Run.newArray (← sortItems items args)
  | _ => Run.fail (Value.notMethod (.array ref items) name)

/-! ## All values -/

/-- The methods of numbers. -/
def numberMethod (x : Float) (name : String) (args : List Arg) : Run Value :=
  match name with
  | "toFixed" => return .string (Decimal.fixedText x (countOf (valueAt args 0)))
  | "toString" => return .string (numberString x)
  | _ => Run.fail (Value.notMethod (.number x) name)

/-- `receiver.name(args)` -/
def callMethod (receiver : Value) (name : String) (args : List Arg) : Run Value :=
  match receiver with
  | .string s => stringMethod s name args
  | .array ref items => arrayMethod ref items name args
  | .number x => numberMethod x name args
  | .object ref fields =>
    if name = "hasOwnProperty" then
      return .bool (Fields.has fields (valueAt args 0).toText)
    else Run.fail (Value.notMethod (.object ref fields) name)
  | .date _ year month day => Run.ofExcept (dateMethod year month day name (valueAt args 0))
  | .bool b =>
    if name = "toString" then return .string (Value.toText (.bool b))
    else Run.fail (Value.notMethod (.bool b) name)
  | .undefined | .null => Run.fail (receiver.unreadable name)

end StaticSite.Template
