/-!
# What a double stands for

A double is not a number, an infinity, or a sign with a mantissa and a power of two. Everything that
prints, rounds or divides doubles exactly works on this form, in integers. Words are bounded by
powers of two and digits are shifted by powers of ten, none of which is zero.
-/

namespace StaticSite

/-- The power of two with exponent `n`. -/
abbrev twoTo (n : Nat) : Nat :=
  Nat.pow 2 n

/-- The power of ten with exponent `n`. -/
abbrev tenTo (n : Nat) : Nat :=
  Nat.pow 10 n

theorem twoTo_pos (n : Nat) : 0 < twoTo n :=
  Nat.pow_pos (by decide)

/-- The value of a double: `(-1)^negative · mantissa · 2^exponent` when it is finite. -/
inductive Double where
  | notANumber
  | infinite (negative : Bool)
  | finite (negative : Bool) (mantissa : Nat) (exponent : Int)
deriving DecidableEq, Repr

namespace Double

/-- Reads sign, exponent field and fraction field off the bits. -/
def ofBits (bits : Nat) : Double :=
  let negative := bits / twoTo 63 == 1
  let field : Nat := bits / twoTo 52 % twoTo 11
  let fraction : Nat := bits % twoTo 52
  if field = 2047 then
    if fraction = 0 then .infinite negative else .notANumber
  else if field = 0 then .finite negative fraction (-1074)
  else .finite negative (twoTo 52 + fraction) ((field : Int) - 1075)

/-- What a floating-point number is, read off its bits. -/
def ofFloat (x : Float) : Double :=
  ofBits x.toBits.toNat

/-- The bits of a finite double, from a mantissa below `2^53`: the mantissa is doubled until it
fills its field or the least exponent is reached. -/
def finiteBits (negative : Bool) (mantissa : Nat) (exponent : Int) : Nat :=
  let room := min (52 - mantissa.log2) (exponent + 1074).toNat
  let m := mantissa * twoTo room
  let e := exponent - room
  (if negative then twoTo 63 else 0) +
    (if m < twoTo 52 then m else (e + 1075).toNat * twoTo 52 + (m - twoTo 52))

/-- The floating-point number for a double. -/
def toFloat : Double → Float
  | .notANumber => 0.0 / 0.0
  | .infinite negative => if negative then -1.0 / 0.0 else 1.0 / 0.0
  | .finite negative m e => Float.ofBits (UInt64.ofNat (finiteBits negative m e))

/-- The integer part of a finite double, toward zero; zero for the others. -/
def truncate : Double → Int
  | .finite negative m e =>
    let n : Nat := if 0 ≤ e then m * twoTo e.toNat else m / twoTo (-e).toNat
    if negative then -(n : Int) else (n : Int)
  | _ => 0

/-- Whether a double is finite and has no fractional part. -/
def isIntegral : Double → Bool
  | .finite _ m e => 0 ≤ e || m % twoTo (-e).toNat == 0
  | _ => false

/-- The greatest count that is kept. -/
def greatestCount : Nat := twoTo 64 - 1

/-- The integer part as a count: zero for what is negative or no number, and at most the greatest
count. -/
def toCount : Double → Nat
  | .notANumber => 0
  | .infinite negative => if negative then 0 else greatestCount
  | d => min d.truncate.toNat greatestCount

end Double

/-- Whether a double is finite and has no fractional part. -/
def isIntegral (x : Float) : Bool :=
  (Double.ofFloat x).isIntegral

/-- The double with the given integral value, which keeps the sign of a zero. -/
def integralFloat (negative : Bool) (n : Nat) : Float :=
  if negative then -(Float.ofNat n) else Float.ofNat n

/-- The greatest integral double that is not above `x`. -/
def floorFloat (x : Float) : Float :=
  match Double.ofFloat x with
  | .finite negative m e =>
    if 0 ≤ e then x
    else
      let unit := twoTo (-e).toNat
      if negative && m % unit != 0 then integralFloat true (m / unit + 1)
      else integralFloat negative (m / unit)
  | _ => x

/-- The least integral double that is not below `x`. -/
def ceilFloat (x : Float) : Float :=
  -(floorFloat (-x))

/-- The integral part of `x`, toward zero. -/
def truncFloat (x : Float) : Float :=
  match Double.ofFloat x with
  | .finite negative m e => if 0 ≤ e then x else integralFloat negative (m / twoTo (-e).toNat)
  | _ => x

/-- The remainder of the division of `x` by `y` toward zero, which is exact and has the sign of
`x`. -/
def remFloat (x y : Float) : Float :=
  match Double.ofFloat x, Double.ofFloat y with
  | .finite negative m e, .finite _ n f =>
    if n = 0 then 0.0 / 0.0
    else
      let low := min e f
      let r := (m * twoTo (e - low).toNat) % (n * twoTo (f - low).toNat)
      (Double.finite negative r low).toFloat
  | .finite _ _ _, .infinite _ => x
  | _, _ => 0.0 / 0.0

end StaticSite
