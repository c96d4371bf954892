import StaticSite.Decimal.Text

/-!
# Reading doubles

A decimal numeral is an optional sign, digits with an optional point among or beside them, and an
optional exponent; the names of infinity and of not-a-number are read in any case. The double is the
one nearest to the written number.
-/

namespace StaticSite.Decimal

/-- The value of a decimal digit. -/
def digitValue (c : Char) : Nat :=
  c.toNat - '0'.toNat

/-- The number that a run of digits spells. -/
def digitsValue (ds : List Char) : Nat :=
  ds.foldl (fun n c => 10 * n + digitValue c) 0

/-- The double nearest to `mantissa · 10^exponent`. Beyond the range of doubles the answer is known
from the position of the first digit. -/
def nearestFloat (mantissa : Nat) (exponent : Int) : Float :=
  let top := ((natText mantissa).length : Int) + exponent
  if mantissa = 0 ∨ top < -330 then 0.0
  else if 310 < top then 1.0 / 0.0
  else if 0 ≤ exponent then Float.ofScientific mantissa false exponent.toNat
  else Float.ofScientific mantissa true (-exponent).toNat

/-- An exponent behind its mark: a sign and at least one digit, to the end of the text. -/
def exponentValue? (s : List Char) : Option Int :=
  let (negative, ds) := match s with
    | '-' :: r => (true, r)
    | '+' :: r => (false, r)
    | r => (false, r)
  if ds ≠ [] ∧ ds.all Char.isDigit then
    some (if negative then -(digitsValue ds : Int) else (digitsValue ds : Int))
  else none

/-- The digits before a point, those behind it, and what follows. -/
def splitNumeral (s : List Char) : List Char × List Char × List Char :=
  let whole := s.takeWhile Char.isDigit
  match s.dropWhile Char.isDigit with
  | '.' :: r => (whole, r.takeWhile Char.isDigit, r.dropWhile Char.isDigit)
  | r => (whole, [], r)

/-- Reads an unsigned numeral that takes up the whole text. -/
def unsignedFloat? (s : List Char) : Option Float :=
  let (whole, fraction, rest) := splitNumeral s
  if whole = [] ∧ fraction = [] then none
  else
    let mantissa := digitsValue (whole ++ fraction)
    let shift : Int := -(fraction.length : Int)
    match rest with
    | [] => some (nearestFloat mantissa shift)
    | c :: r =>
      if c = 'e' ∨ c = 'E' then
        (exponentValue? r).map fun e => nearestFloat mantissa (shift + e)
      else none

/-- Reads a text as a double. -/
def float? (s : List Char) : Option Float :=
  let (negative, body) := match s with
    | '-' :: r => (true, r)
    | '+' :: r => (false, r)
    | r => (false, r)
  let name := String.ofList (body.map Char.toLower)
  let magnitude :=
    if name = "inf" ∨ name = "infinity" then some (1.0 / 0.0)
    else if name = "nan" then some (0.0 / 0.0)
    else unsignedFloat? body
  magnitude.map fun x => if negative then -x else x

end StaticSite.Decimal
