import StaticSite.Decimal.Reading
import StaticSite.Json.Reader
import StaticSite.Toml.Text

/-!
# Numbers, truth values and moments

A scalar is one word: a truth value, an integer of 64 bits, a double, or a moment, whose date and
time may be two words. A moment becomes an object that holds its text.
-/

namespace StaticSite.Toml

/-- The digits of a run in which single underscores may stand between digits. -/
def digits? (isDigit : Char → Bool) : List Char → Option (List Char)
  | [] => none
  | [c] => if isDigit c then some [c] else none
  | c :: '_' :: r => if isDigit c then (digits? isDigit r).map (c :: ·) else none
  | c :: r => if isDigit c then (digits? isDigit r).map (c :: ·) else none

/-- Whether a character is a hexadecimal digit. -/
def isHex (c : Char) : Bool :=
  (Json.hexValue? c).isSome

/-- Whether a character is an octal digit. -/
def isOctal (c : Char) : Bool :=
  '0' ≤ c && c ≤ '7'

/-- Whether a character is a binary digit. -/
def isBinary (c : Char) : Bool :=
  c == '0' || c == '1'

/-- The number that digits stand for in a base. -/
def numberOf (base : Nat) (digits : List Char) : Nat :=
  digits.foldl (fun n c => base * n + (Json.hexValue? c).getD 0) 0

/-- An integer that 64 bits with a sign hold. -/
def fitting? (n : Int) : Option Json :=
  if -(twoTo 63 : Int) ≤ n ∧ n < twoTo 63 then some (.int n) else none

/-- Digits without a zero in front of others. -/
def decimalDigits? (s : List Char) : Option (List Char) := do
  let ds ← digits? Char.isDigit s
  if ds.length > 1 ∧ ds.head? = some '0' then none else some ds

/-- Whether a minus sign stands in front, and what stands behind the sign. -/
def splitSign : List Char → Bool × List Char
  | '-' :: r => (true, r)
  | '+' :: r => (false, r)
  | r => (false, r)

/-- Reads an integer, in decimal or behind the mark of its base. -/
def integer? (s : List Char) : Option Json :=
  match s with
  | '0' :: 'x' :: r => (digits? isHex r).bind fun ds => fitting? (numberOf 16 ds)
  | '0' :: 'o' :: r => (digits? isOctal r).bind fun ds => fitting? (numberOf 8 ds)
  | '0' :: 'b' :: r => (digits? isBinary r).bind fun ds => fitting? (numberOf 2 ds)
  | _ =>
    let (negative, body) := splitSign s
    (decimalDigits? body).bind fun ds =>
      fitting? (if negative then -(numberOf 10 ds : Int) else (numberOf 10 ds : Int))

/-- The digits of a fraction or an exponent behind their mark, or nothing without it. -/
def markedPart? (isMark : Char → Bool) (withSign : Bool) : List Char → Option (List Char)
  | [] => some []
  | mark :: r =>
    if isMark mark then
      match r with
      | sign :: r =>
        if withSign ∧ (sign = '+' ∨ sign = '-') then
          (digits? Char.isDigit r).map fun ds => mark :: sign :: ds
        else (digits? Char.isDigit (sign :: r)).map (mark :: ·)
      | [] => none
    else none

/-- Whether a character begins an exponent. -/
def isExponentMark (c : Char) : Bool :=
  c == 'e' || c == 'E'

/-- The text of a double without its underscores. -/
def doubleText? (s : List Char) : Option (List Char) := do
  let (negative, body) := splitSign s
  let whole := body.takeWhile fun c => c != '.' && !isExponentMark c
  let rest := body.drop whole.length
  let fraction := rest.takeWhile (!isExponentMark ·)
  let exponent := rest.drop fraction.length
  if rest = [] then none
  let ds ← decimalDigits? whole
  let fs ← markedPart? (· == '.') false fraction
  let es ← markedPart? isExponentMark true exponent
  return (if negative then ['-'] else []) ++ ds ++ fs ++ es

/-- A double; infinity has to be named, and neither it nor not-a-number is a document. -/
def double? (s : List Char) : Option Json :=
  let name := (splitSign s).2
  if name = ['i', 'n', 'f'] ∨ name = ['n', 'a', 'n'] then some .null
  else do
    let x ← Decimal.float? (← doubleText? s)
    if x == 1.0 / 0.0 then none
    else if x == -1.0 / 0.0 then some .null
    else some (.float x)

/-! ## Moments -/

/-- A number of two digits between two bounds, and what follows it. -/
def twoDigits? (low high : Nat) : List Char → Option (Nat × List Char)
  | a :: b :: r =>
    let n := numberOf 10 [a, b]
    if a.isDigit ∧ b.isDigit ∧ low ≤ n ∧ n ≤ high then some (n, r) else none
  | _ => none

/-- Whether a year has a leap day. -/
def isLeapYear (year : Nat) : Bool :=
  year % 4 == 0 && (year % 100 != 0 || year % 400 == 0)

/-- The number of days in a month. -/
def daysIn (year month : Nat) : Nat :=
  if month = 2 then (if isLeapYear year then 29 else 28)
  else if month ∈ [4, 6, 9, 11] then 30
  else 31

/-- The text of a date, and what follows it. -/
def date? (s : List Char) : Option (List Char × List Char) := do
  let ys := s.take 4
  if ys.length = 4 ∧ ys.all Char.isDigit then
    let year := numberOf 10 ys
    match s.drop 4 with
    | '-' :: r =>
      let (month, r) ← twoDigits? 1 12 r
      match r with
      | '-' :: r =>
        let (_, r) ← twoDigits? 1 (daysIn year month) r
        return (s.take 10, r)
      | _ => none
    | _ => none
  else none

/-- Up to nine digits of a fraction of a second, without the zeros at their end. -/
def secondFraction (ds : List Char) : List Char :=
  match ((ds.take 9).reverse.dropWhile (· == '0')).reverse with
  | [] => []
  | ds => '.' :: ds

/-- The text of a time of day, and what follows it. -/
def time? (s : List Char) : Option (List Char × List Char) := do
  let (_, r) ← twoDigits? 0 23 s
  match r with
  | ':' :: r =>
    let (_, r) ← twoDigits? 0 59 r
    match r with
    | ':' :: r =>
      let (_, r) ← twoDigits? 0 60 r
      match r with
      | '.' :: r =>
        let ds := r.takeWhile Char.isDigit
        if ds = [] then none
        else return (s.take 8 ++ secondFraction ds, r.drop ds.length)
      | _ => return (s.take 8, r)
    | _ => none
  | _ => none

/-- The distance from universal time that ends a moment, if it has one. -/
def offset? : List Char → Option (List Char)
  | [] => some []
  | ['Z'] | ['z'] => some ['Z']
  | sign :: r =>
    if sign = '+' ∨ sign = '-' then
      match twoDigits? 0 23 r with
      | some (hours, ':' :: rest) =>
        match twoDigits? 0 59 rest with
        | some (minutes, []) =>
          some ((if hours = 0 ∧ minutes = 0 then '+' else sign) :: r)
        | _ => none
      | _ => none
    else none

/-- Whether a character may stand between a date and a time. -/
def isDateSeparator (c : Char) : Bool :=
  c == 'T' || c == 't' || c == ' '

/-- The text of a date, of a time of day, or of both with an offset. -/
def moment? (s : List Char) : Option (List Char) :=
  match date? s with
  | some (date, []) => some date
  | some (date, c :: r) => do
    if isDateSeparator c then
      let (time, r) ← time? r
      return date ++ 'T' :: time ++ (← offset? r)
    else none
  | none =>
    match time? s with
    | some (time, []) => some time
    | _ => none

/-- A date or a time as a document, which keeps its text. -/
def ofMoment (text : List Char) : Json :=
  .object [("$__toml_private_datetime", .string (String.ofList text))]

/-- Reads a word as a scalar. -/
def scalar? (s : List Char) : Option Json :=
  if s = ['t', 'r', 'u', 'e'] then some (.bool true)
  else if s = ['f', 'a', 'l', 's', 'e'] then some (.bool false)
  else ((moment? s).map ofMoment).or ((integer? s).or (double? s))

end StaticSite.Toml
