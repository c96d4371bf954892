import StaticSite.Decimal.Double

/-!
# Shortest decimals

The decimal of a finite double is the point of the coarsest power-of-ten grid that lies in the
interval of reals which round to the double; of two such points the nearer one is taken. The ends
belong to the interval exactly when the mantissa is even.
-/

namespace StaticSite.Decimal

/-- A decimal number `digits · 10^exponent`. -/
structure Numeral where
  digits : Nat
  exponent : Int
deriving DecidableEq, Repr

/-- A non-negative fraction `num / den`. -/
structure Fraction where
  num : Nat
  den : Nat

/-- `n · 2^e · 10^(-g)` as a fraction. -/
def Fraction.scaled (n : Nat) (e g : Int) : Fraction where
  num := n * twoTo e.toNat * tenTo (-g).toNat
  den := twoTo (-e).toNat * tenTo g.toNat

/-- Whether a fraction is at most another one. -/
def Fraction.le (a b : Fraction) : Bool :=
  a.num * b.den ≤ b.num * a.den

/-- Whether a fraction is less than another one. -/
def Fraction.lt (a b : Fraction) : Bool :=
  a.num * b.den < b.num * a.den

/-- The point of the grid of `10^g` in the interval around `m · 2^e` that is nearest to it. -/
def gridPoint? (m : Nat) (e g : Int) : Option Nat :=
  let below := if m = twoTo 52 ∧ -1074 < e then 1 else 2
  let value := Fraction.scaled (4 * m) (e - 2) g
  let low := Fraction.scaled (4 * m - below) (e - 2) g
  let high := Fraction.scaled (4 * m + 2) (e - 2) g
  let inside (p : Nat) : Bool :=
    if m % 2 = 0 then low.le ⟨p, 1⟩ && Fraction.le ⟨p, 1⟩ high
    else low.lt ⟨p, 1⟩ && Fraction.lt ⟨p, 1⟩ high
  let floor := value.num / value.den
  let upperNearer := value.den < 2 * (value.num % value.den)
  match inside floor, inside (floor + 1) with
  | true, true => some (if upperNearer then floor + 1 else floor)
  | true, false => some floor
  | false, true => some (floor + 1)
  | false, false => none

/-- Tries the grids from `10^g` downward. -/
def coarsest (m : Nat) (e : Int) : Nat → Int → Numeral
  | 0, g => ⟨0, g⟩
  | fuel + 1, g =>
    match gridPoint? m e g with
    | some p => ⟨p, g⟩
    | none => coarsest m e fuel (g - 1)

/-- The shortest decimal that reads back as `m · 2^e`. The search starts above the value and needs
at most nineteen grids. -/
def shortest (m : Nat) (e : Int) : Numeral :=
  if m = 0 then ⟨0, 0⟩
  else coarsest m e 40 (((m.log2 : Int) + e + 1) * 30103 / 100000 + 1)

end StaticSite.Decimal
