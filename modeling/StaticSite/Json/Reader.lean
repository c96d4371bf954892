import StaticSite.Json.Basic
import StaticSite.Json.Cursor
import StaticSite.Decimal.Reading

/-!
# Reading documents

The reader takes one value and refuses anything but blanks behind it. A fault names its cause and
its place. Arrays and objects may be nested 127 levels deep; of two fields of one name the later is
kept. A number without a point or an exponent is an integer when 64 bits hold it; any other number
is its leading digits times a power of ten, multiplied out in doubles.
-/

namespace StaticSite.Json

/-- Why a text is not a document. -/
inductive Fault where
  | endInList
  | endInObject
  | endInString
  | endInValue
  | expectedColon
  | expectedListComma
  | expectedObjectComma
  | expectedIdent
  | expectedValue
  | invalidEscape
  | invalidNumber
  | numberOutOfRange
  | controlCharacter
  | keyNotString
  | loneSurrogate
  | trailingComma
  | trailingCharacters
  | unfinishedEscape
  | tooDeep
deriving DecidableEq, Repr

/-- What is wrong with a document, in words. -/
def Fault.message : Fault → String
  | .endInList => "EOF while parsing a list"
  | .endInObject => "EOF while parsing an object"
  | .endInString => "EOF while parsing a string"
  | .endInValue => "EOF while parsing a value"
  | .expectedColon => "expected `:`"
  | .expectedListComma => "expected `,` or `]`"
  | .expectedObjectComma => "expected `,` or `\x7d`"
  | .expectedIdent => "expected ident"
  | .expectedValue => "expected value"
  | .invalidEscape => "invalid escape"
  | .invalidNumber => "invalid number"
  | .numberOutOfRange => "number out of range"
  | .controlCharacter => "control character (\\u0000-\\u001F) found while parsing a string"
  | .keyNotString => "key must be a string"
  | .loneSurrogate => "lone leading surrogate in hex escape"
  | .trailingComma => "trailing comma"
  | .trailingCharacters => "trailing characters"
  | .unfinishedEscape => "unexpected end of hex escape"
  | .tooDeep => "recursion limit exceeded"

/-- A fault and its place. -/
structure ReadError where
  fault : Fault
  position : Position
deriving DecidableEq, Repr

/-- What is wrong with a document, and where. -/
def ReadError.message (e : ReadError) : String :=
  s!"{e.fault.message} at line {e.position.line} column {e.position.column}"

/-- A fault at the cursor. -/
def failAt {α : Type} (c : Cursor) (fault : Fault) : Except ReadError α :=
  .error ⟨fault, c.position⟩

/-- A fault at the next byte. -/
def failNext {α : Type} (c : Cursor) (fault : Fault) : Except ReadError α :=
  .error ⟨fault, c.ahead 1⟩

/-! ## Words and strings -/

/-- Reads the rest of a fixed word. -/
def word (c : Cursor) : List Char → Except ReadError Cursor
  | [] => .ok c
  | x :: xs =>
    match c.rest with
    | [] => failAt c .endInValue
    | y :: _ => if x = y then word c.advance xs else failNext c .expectedIdent

/-- The value of a hexadecimal digit in either case. -/
def hexValue? (c : Char) : Option Nat :=
  if c.isDigit then some (c.toNat - '0'.toNat)
  else if 'a' ≤ c ∧ c ≤ 'f' then some (c.toNat - 'a'.toNat + 10)
  else if 'A' ≤ c ∧ c ≤ 'F' then some (c.toNat - 'A'.toNat + 10)
  else none

/-- The value of four hexadecimal digits. -/
def hexFour? (a b c d : Char) : Option Nat := do
  let a ← hexValue? a
  let b ← hexValue? b
  let c ← hexValue? c
  let d ← hexValue? d
  return ((a * 16 + b) * 16 + c) * 16 + d

/-- Reads the four digits of an escape, which are four bytes of the text. -/
def hexEscape (c : Cursor) : Except ReadError (Nat × Cursor) :=
  if c.bytesLeft < 4 then .error ⟨.endInString, c.ahead c.bytesLeft⟩
  else
    let bad : Except ReadError (Nat × Cursor) := .error ⟨.invalidEscape, c.ahead 4⟩
    match c.rest with
    | w :: x :: y :: z :: _ =>
      match hexFour? w x y z with
      | some n => .ok (n, c.advanceBy 4)
      | none => bad
    | _ => bad

/-- Reads one byte that an escaped pair needs. -/
def pairByte (c : Cursor) (x : Char) : Except ReadError Cursor :=
  match c.rest with
  | [] => failAt c .endInString
  | y :: _ => if x = y then .ok c.advance else failNext c .unfinishedEscape

/-- Reads a code point after `\u`: a code point outside the first plane is written as two
escapes. -/
def unicodeEscape (c : Cursor) : Except ReadError (Char × Cursor) := do
  let (n, c) ← hexEscape c
  if 0xdc00 ≤ n ∧ n ≤ 0xdfff then failAt c .loneSurrogate
  else if n < 0xd800 ∨ 0xdbff < n then .ok (Char.ofNat n, c)
  else
    let c ← pairByte c '\\'
    let c ← pairByte c 'u'
    let (m, c) ← hexEscape c
    if m < 0xdc00 ∨ 0xdfff < m then failAt c .loneSurrogate
    else .ok (Char.ofNat ((n - 0xd800) * 1024 + (m - 0xdc00) + 0x10000), c)

/-- Reads what stands behind a backslash. -/
def escape (c : Cursor) : Except ReadError (Char × Cursor) :=
  match c.rest with
  | [] => failAt c .endInString
  | x :: _ =>
    match x with
    | '"' => .ok ('"', c.advance)
    | '\\' => .ok ('\\', c.advance)
    | '/' => .ok ('/', c.advance)
    | 'b' => .ok ('\x08', c.advance)
    | 'f' => .ok ('\x0c', c.advance)
    | 'n' => .ok ('\n', c.advance)
    | 'r' => .ok ('\r', c.advance)
    | 't' => .ok ('\t', c.advance)
    | 'u' => unicodeEscape c.advance
    | _ => failNext c .invalidEscape

/-- Reads a string behind its opening quote, with what it holds so far in reverse. -/
def stringBody : Nat → Cursor → List Char → Except ReadError (String × Cursor)
  | 0, c, _ => failAt c .endInString
  | fuel + 1, c, acc =>
    match c.rest with
    | [] => failAt c .endInString
    | '"' :: _ => .ok (String.ofList acc.reverse, c.advance)
    | '\\' :: _ => do
      let (x, c) ← escape c.advance
      stringBody fuel c (x :: acc)
    | x :: _ =>
      if x.toNat < 0x20 then failNext c .controlCharacter
      else stringBody fuel c.advance (x :: acc)

/-- Reads a string behind its opening quote. -/
def stringFrom (c : Cursor) : Except ReadError (String × Cursor) :=
  stringBody (c.rest.length + 1) c []

/-! ## Numbers -/

/-- The bound of the leading digits that are kept. -/
def digitsBound : Nat := twoTo 64

/-- The bound of the powers of ten that are read. -/
def powerBound : Nat := twoTo 31

/-- `10^n` as a double. -/
def powerOfTen (n : Nat) : Float :=
  Decimal.nearestFloat 1 n

/-- Multiplies `x` by `10^exponent`, in steps of at most `10^308`. -/
def scaleByTen : Nat → Float → Int → Option Float
  | 0, x, _ => some x
  | fuel + 1, x, exponent =>
    if exponent.natAbs ≤ 308 then
      if 0 ≤ exponent then
        let y := x * powerOfTen exponent.natAbs
        if y.isInf then none else some y
      else some (x / powerOfTen exponent.natAbs)
    else if x == 0.0 then some x
    else if 0 ≤ exponent then none
    else scaleByTen fuel (x / powerOfTen 308) (exponent + 308)

/-- The double of the kept digits and the power of ten they are counted in. -/
def floatOf (c : Cursor) (negative : Bool) (kept : Nat) (exponent : Int) :
    Except ReadError (Json × Cursor) :=
  match scaleByTen (exponent.natAbs / 308 + 2) (Float.ofNat kept) exponent with
  | some x => .ok (.float (if negative then -x else x), c)
  | none => failAt c .numberOutOfRange

/-- Splits off the digits at the cursor. -/
def digitRun (c : Cursor) : List Char × Cursor :=
  let ds := c.rest.takeWhile Char.isDigit
  (ds, ⟨c.rest.drop ds.length, c.line, c.column + ds.length⟩)

/-- The value of digits after `kept`, up to the first that would reach the bound, and the digits
from that one on. -/
def keepDigits (bound kept : Nat) : List Char → Nat × List Char
  | [] => (kept, [])
  | d :: ds =>
    let next := kept * 10 + Decimal.digitValue d
    if next < bound then keepDigits bound next ds else (kept, d :: ds)

/-- Reads an exponent behind its letter. A power beyond 32 bits is out of range, or zero when it is
negative or the digits are. -/
def exponentPart (c : Cursor) (negative : Bool) (kept : Nat) (shift : Int) :
    Except ReadError (Json × Cursor) :=
  let (down, c) := match c.rest with
    | '+' :: _ => (false, c.advance)
    | '-' :: _ => (true, c.advance)
    | _ => (false, c)
  match c.rest with
  | [] => failAt c .endInValue
  | x :: _ =>
    if !x.isDigit then failNext c .invalidNumber
    else
      let (ds, after) := digitRun c
      let (power, dropped) := keepDigits powerBound 0 ds
      if dropped = [] then
        floatOf after negative kept (if down then shift - power else shift + power)
      else if kept ≠ 0 ∧ !down then
        .error ⟨.numberOutOfRange, c.ahead (ds.length - dropped.length + 1)⟩
      else .ok (.float (if negative then -0.0 else 0.0), after)

/-- Whether an exponent begins here. -/
def isExponentMark (c : Cursor) : Bool :=
  c.rest.head? == some 'e' || c.rest.head? == some 'E'

/-- Reads what follows the digits of a number that is no integer. -/
def exponentOrEnd (c : Cursor) (negative : Bool) (kept : Nat) (shift : Int) :
    Except ReadError (Json × Cursor) :=
  if isExponentMark c then exponentPart c.advance negative kept shift
  else floatOf c negative kept shift

/-- Reads the places behind a point. -/
def fractionPart (c : Cursor) (negative : Bool) (kept : Nat) (shift : Int) :
    Except ReadError (Json × Cursor) :=
  let (ds, after) := digitRun c
  if ds = [] then
    if c.rest = [] then failAt c .endInValue else failNext c .invalidNumber
  else
    let (kept', dropped) := keepDigits digitsBound kept ds
    exponentOrEnd after negative kept' (shift - ((ds.length - dropped.length : Nat) : Int))

/-- Reads a number behind its sign. -/
def number (c : Cursor) (negative : Bool) : Except ReadError (Json × Cursor) :=
  match c.rest with
  | [] => failAt c .endInValue
  | x :: r =>
    if !x.isDigit then failNext c .invalidNumber
    else if x = '0' ∧ (r.head?.map Char.isDigit).getD false then failNext c.advance .invalidNumber
    else
      let (ds, after) := if x = '0' then (['0'], c.advance) else digitRun c
      let (kept, dropped) := keepDigits digitsBound 0 ds
      let shift : Int := dropped.length
      if after.rest.head? = some '.' then fractionPart after.advance negative kept shift
      else if isExponentMark after then exponentPart after.advance negative kept shift
      else if dropped ≠ [] then floatOf after negative kept shift
      else if !negative then .ok (.int kept, after)
      else if kept = 0 ∨ twoTo 63 < kept then .ok (.float (-(Float.ofNat kept)), after)
      else .ok (.int (-(kept : Int)), after)

/-! ## Values -/

/-- Steps to the next item of an array, if there is one. -/
def nextItem (c : Cursor) (first : Bool) : Except ReadError (Option Cursor) :=
  let c := c.skipBlanks
  match c.rest with
  | [] => failAt c .endInList
  | ']' :: _ => .ok none
  | ',' :: _ =>
    if first then .ok (some c)
    else
      let c := c.advance.skipBlanks
      match c.rest with
      | [] => failAt c .endInValue
      | ']' :: _ => failNext c .trailingComma
      | _ => .ok (some c)
  | _ => if first then .ok (some c) else failNext c .expectedListComma

/-- Steps to the next name of an object, if there is one. -/
def nextName (c : Cursor) (first : Bool) : Except ReadError (Option Cursor) :=
  let c := c.skipBlanks
  match c.rest with
  | [] => failAt c .endInObject
  | '\x7d' :: _ => .ok none
  | x :: _ =>
    if x = ',' ∧ !first then
      let c := c.advance.skipBlanks
      match c.rest with
      | [] => failAt c .endInValue
      | '"' :: _ => .ok (some c)
      | '\x7d' :: _ => failNext c .trailingComma
      | _ => failNext c .keyNotString
    else if !first then failNext c .expectedObjectComma
    else if x = '"' then .ok (some c)
    else failNext c .keyNotString

/-- Reads the colon behind a name. -/
def colon (c : Cursor) : Except ReadError Cursor :=
  let c := c.skipBlanks
  match c.rest with
  | [] => failAt c .endInObject
  | ':' :: _ => .ok c.advance
  | _ => failNext c .expectedColon

mutual

/-- Reads a value; `depth` is how many more levels may be opened. -/
def value : Nat → Nat → Cursor → Except ReadError (Json × Cursor)
  | 0, _, c => failAt c .endInValue
  | fuel + 1, depth, c =>
    let c := c.skipBlanks
    match c.rest with
    | [] => failAt c .endInValue
    | 'n' :: _ => (word c.advance ['u', 'l', 'l']).map (Json.null, ·)
    | 't' :: _ => (word c.advance ['r', 'u', 'e']).map (Json.bool true, ·)
    | 'f' :: _ => (word c.advance ['a', 'l', 's', 'e']).map (Json.bool false, ·)
    | '-' :: _ => number c.advance true
    | '"' :: _ => do
      let (s, c) ← stringFrom c.advance
      .ok (.string s, c)
    | '[' :: _ =>
      if depth ≤ 1 then failNext c .tooDeep
      else do
        let (items, c) ← items fuel (depth - 1) c.advance true
        .ok (.array items, c)
    | '\x7b' :: _ =>
      if depth ≤ 1 then failNext c .tooDeep
      else do
        let (fields, c) ← fields fuel (depth - 1) c.advance true []
        .ok (.object fields, c)
    | x :: _ => if x.isDigit then number c false else failNext c .expectedValue

/-- Reads the items of an array to its closing bracket. -/
def items : Nat → Nat → Cursor → Bool → Except ReadError (List Json × Cursor)
  | 0, _, c, _ => failAt c .endInList
  | fuel + 1, depth, c, first => do
    match ← nextItem c first with
    | none => .ok ([], c.skipBlanks.advance)
    | some c =>
      let (j, c) ← value fuel depth c
      let (rest, c) ← items fuel depth c false
      .ok (j :: rest, c)

/-- Reads the fields of an object to its closing brace, into the fields before them. -/
def fields : Nat → Nat → Cursor → Bool → Fields Json → Except ReadError (Fields Json × Cursor)
  | 0, _, c, _, _ => failAt c .endInObject
  | fuel + 1, depth, c, first, acc => do
    match ← nextName c first with
    | none => .ok (acc, c.skipBlanks.advance)
    | some c =>
      let (name, c) ← stringFrom c.advance
      let c ← colon c
      let (j, c) ← value fuel depth c
      fields fuel depth c false (acc.insert name j)

end

/-- The nesting that is refused. -/
def depthLimit : Nat := 128

/-- Reads a text that holds one document. -/
def read (s : String) : Except ReadError Json := do
  let (j, c) ← value (2 * s.toList.length + 2) depthLimit (Cursor.start s)
  let c := c.skipBlanks
  if c.rest = [] then .ok j else failNext c .trailingCharacters

end StaticSite.Json
