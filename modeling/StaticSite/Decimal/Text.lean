import StaticSite.Decimal.Shortest

/-!
# Decimal texts of doubles

Three written forms of a double: positional with the fewest digits, with a fixed number of places
(a half goes to the even neighbour), and the form of documents, where far exponents are written out.
-/

namespace StaticSite.Decimal

/-- The decimal digits of a natural number. -/
def natText (n : Nat) : List Char :=
  Nat.toDigits 10 n

/-- The decimal digits of an integer, behind its sign if it is negative. -/
def intText : Int → List Char
  | .ofNat n => natText n
  | .negSucc n => '-' :: natText (n + 1)

/-- A run of zeros. -/
def zeros (n : Nat) : List Char :=
  List.replicate n '0'

/-- Positional text, without a point when there is nothing behind it. -/
def Numeral.positional (d : Numeral) : List Char :=
  let ds := natText d.digits
  if 0 ≤ d.exponent then ds ++ zeros d.exponent.toNat
  else
    let places := (-d.exponent).toNat
    if places < ds.length then
      ds.take (ds.length - places) ++ '.' :: ds.drop (ds.length - places)
    else '0' :: '.' :: zeros (places - ds.length) ++ ds

/-- The text in a document: positional while the point stands within sixteen digits or at most five
zeros precede them, else one digit before the point and a signed exponent. -/
def Numeral.document (d : Numeral) : List Char :=
  let ds := natText d.digits
  let point := (ds.length : Int) + d.exponent
  if 0 ≤ d.exponent ∧ point ≤ 16 then d.positional ++ ['.', '0']
  else if -5 < point ∧ point ≤ 16 then d.positional
  else
    let power := point - 1
    let fraction := if ds.length = 1 then [] else '.' :: ds.drop 1
    ds.take 1 ++ fraction ++ 'e' :: (if 0 ≤ power then ['+'] else []) ++ intText power

/-- A text behind a minus sign, if there is one. -/
def signed (negative : Bool) (text : List Char) : List Char :=
  if negative then '-' :: text else text

/-- The fewest digits that read back, never an exponent. -/
def plainText (x : Float) : String :=
  match Double.ofFloat x with
  | .notANumber => "NaN"
  | .infinite negative => String.ofList (signed negative ['i', 'n', 'f'])
  | .finite negative m e => String.ofList (signed negative (shortest m e).positional)

/-- The form of documents; a double that is not finite has none. -/
def documentText (x : Float) : String :=
  match Double.ofFloat x with
  | .finite negative m e =>
    if m = 0 then String.ofList (signed negative ['0', '.', '0'])
    else String.ofList (signed negative (shortest m e).document)
  | _ => "null"

/-- The nearest natural number to `num / den`; a half goes to the even neighbour. -/
def roundHalfEven (num den : Nat) : Nat :=
  let q := num / den
  let r := num % den
  if den < 2 * r ∨ (2 * r = den ∧ q % 2 = 1) then q + 1 else q

/-- The text with exactly `places` digits behind the point. -/
def fixedText (x : Float) (places : Nat) : String :=
  match Double.ofFloat x with
  | .notANumber => "NaN"
  | .infinite negative => String.ofList (signed negative ['i', 'n', 'f'])
  | .finite negative m e =>
    let n := roundHalfEven (m * twoTo e.toNat * tenTo places) (twoTo (-e).toNat)
    let ds := natText n
    let padded := zeros (places + 1 - ds.length) ++ ds
    let whole := padded.take (padded.length - places)
    let fraction := padded.drop (padded.length - places)
    String.ofList (signed negative (if places = 0 then whole else whole ++ '.' :: fraction))

end StaticSite.Decimal
