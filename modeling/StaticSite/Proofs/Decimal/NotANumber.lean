import StaticSite.Proofs.Decimal.Order
import StaticSite.Proofs.Decimal.Integral
import StaticSite.Decimal.Reading

/-!
# What is not a number

A difference, product, quotient or remainder of doubles is not a number when one of its operands is
not, and for the few pairs of numbers that have none: a difference of equal infinities, a product of
zero and an infinity, a quotient of zeros or of infinities, a remainder of an infinity or by zero
(`isNaN_sub`, `isNaN_mul`, `isNaN_div`, `isNaN_rem`). What is rounded is a number, so whatever
digits and exponent are read stand for one (`isNaN_nearestFloat`).

The rules are read off the unpacked numbers: packing keeps what they are (`isNaN_unpack_pack`), and
the two readings of a word agree (`ofBits_toNat`).
-/

namespace StaticSite

open Float.Model (UnpackedFloat Format)
open Float.Model.UnpackedFloat

/-! ## Reading the bits -/

theorem isNaN_unpack_iff (b : BitVec Format.binary64.numBits) :
    (unpack .binary64 b).isNaN = true ↔ Double.ofBits b.toNat = .notANumber := by
  rw [ofBits_toNat]
  cases unpack .binary64 b <;> simp [Double.ofUnpacked, UnpackedFloat.isNaN]

/-- A finite double has a mantissa of at most 53 bits. -/
theorem Double.bounds_of_ofBits {bits m : Nat} {negative : Bool} {e : Int}
    (h : ofBits bits = .finite negative m e) : m < 2 ^ 53 ∧ -1074 ≤ e ∧ e ≤ 971 := by
  unfold ofBits at h
  simp only [show ∀ k, twoTo k = 2 ^ k from fun _ => rfl] at h
  split_ifs at h <;> simp only [finite.injEq] at h
  · omega
  · omega

/-! ## Packing -/

/-- The exponent field of what is packed without an overflow. -/
theorem ofNat_field_ne_ones {field : Nat} (h : ¬ 2 ^ 11 ≤ field + 1) :
    BitVec.ofNat 11 field ≠ -1#11 := by
  intro heq
  have hfield := congrArg BitVec.toNat heq
  rw [BitVec.toNat_ofNat, Nat.mod_eq_of_lt (by omega)] at hfield
  change field = 2047 at hfield
  omega

/-- Packing makes numbers of numbers. -/
theorem isNaN_unpack_pack (f : UnpackedFloat) :
    (unpack .binary64 (pack .binary64 f)).isNaN = f.isNaN := by
  -- with a full exponent field only an infinity is packed, and it has no fraction
  have number {s : Sign} {field : BitVec 11} {m : BitVec 52} (h : field = -1#11 → m = 0#52) :
      (unpack .binary64 (packComponents .binary64 s field m)).isNaN = false := by
    unfold unpack
    simp only [unpackMantissa_packComponents, unpackExponent_packComponents]
    split_ifs with h1 h2 h3 h4
    · rfl
    · exact absurd (h h1) h2
    · rfl
    · rfl
    · rfl
  fun_cases pack with
  | case1 => rfl
  | case2 s => exact number fun _ => rfl
  | case3 s => exact number fun _ => rfl
  | case4 s m e hm field overflows => exact number fun _ => rfl
  | case5 s m e hm bits field fits normal =>
    exact number fun h => absurd h (ofNat_field_ne_ones fits)
  | case6 s m e hm bits field fits subnormal => exact number fun h => absurd h (by decide)

theorem isNaN_ofModel_pack (f : UnpackedFloat) : (Float.ofModel (.pack f)).isNaN = f.isNaN :=
  isNaN_unpack_pack f

/-! ## Rounding -/

theorem isNaN_roundWithAccuracy (s : Sign) (m : Nat) (e : Int) (a : Accuracy) :
    (roundWithAccuracy .binary64 s m e a).isNaN = false := by
  unfold roundWithAccuracy
  dsimp only
  split_ifs <;> rfl

theorem isNaN_normalize (m e : Int) (s : Sign) :
    (UnpackedFloat.normalize .binary64 m e s).isNaN = false := by
  unfold UnpackedFloat.normalize
  split
  · exact isNaN_roundWithAccuracy ..
  · rfl
  · exact isNaN_roundWithAccuracy ..

/-! ## Operations -/

/-- Whether an unpacked number is zero. -/
def unpackedIsZero : UnpackedFloat → Bool
  | .zero _ => true
  | _ => false

section Operations

variable (x y : Float)

theorem beq_zero_eq : (x == 0.0) = unpackedIsZero x.toModel.unpack := by
  change x.toModel.unpack.beq (0.0 : Float).toModel.unpack = _
  rw [unpack_zero]
  rcases x.toModel.unpack with (_ | _) | _ | _ | ⟨_ | _, m, e, hm⟩ <;> rfl

theorem isNaN_neg : (-x).isNaN = x.isNaN := by
  change (Float.ofModel (.pack x.toModel.unpack.neg)).isNaN = x.toModel.unpack.isNaN
  rw [isNaN_ofModel_pack]
  cases x.toModel.unpack <;> rfl

theorem isNaN_sub : (x - y).isNaN = (x.isNaN || y.isNaN || x.isInf && x == y) := by
  change (Float.ofModel (.pack (sub .binary64 x.toModel.unpack y.toModel.unpack))).isNaN =
    (x.toModel.unpack.isNaN || y.toModel.unpack.isNaN ||
      x.toModel.unpack.isInf && x.toModel.unpack.beq y.toModel.unpack)
  rw [isNaN_ofModel_pack]
  rcases x.toModel.unpack with (_ | _) | _ | s | ⟨s, m, e, hm⟩ <;>
    rcases y.toModel.unpack with (_ | _) | _ | s' | ⟨s', m', e', hm'⟩
  case zero.zero => cases s <;> cases s' <;> rfl
  case finite.finite => exact isNaN_normalize ..
  all_goals rfl

theorem isNaN_mul : (x * y).isNaN =
    (x.isNaN || y.isNaN || (x == 0.0 && y.isInf || x.isInf && y == 0.0)) := by
  rw [beq_zero_eq, beq_zero_eq]
  change (Float.ofModel (.pack (mul .binary64 x.toModel.unpack y.toModel.unpack))).isNaN =
    (x.toModel.unpack.isNaN || y.toModel.unpack.isNaN ||
      (_ && y.toModel.unpack.isInf || x.toModel.unpack.isInf && _))
  rw [isNaN_ofModel_pack]
  cases x.toModel.unpack <;> cases y.toModel.unpack
  case finite.finite => exact isNaN_roundWithAccuracy ..
  all_goals rfl

theorem isNaN_div : (x / y).isNaN =
    (x.isNaN || y.isNaN || (x == 0.0 && y == 0.0 || x.isInf && y.isInf)) := by
  rw [beq_zero_eq, beq_zero_eq]
  change (Float.ofModel (.pack (div .binary64 x.toModel.unpack y.toModel.unpack))).isNaN =
    (x.toModel.unpack.isNaN || y.toModel.unpack.isNaN ||
      (_ || x.toModel.unpack.isInf && y.toModel.unpack.isInf))
  rw [isNaN_ofModel_pack]
  cases x.toModel.unpack <;> cases y.toModel.unpack
  case finite.finite => exact isNaN_roundWithAccuracy ..
  all_goals rfl

end Operations

/-! ## Remainders -/

theorem isNaN_ofBits (bits : UInt64) :
    (Float.ofBits bits).isNaN = (unpack .binary64 bits.toBitVec).isNaN :=
  isNaN_ofModel_pack _

namespace Double

theorem ofBits_ne_notANumber {bits : Nat} (h : bits / 2 ^ 52 % 2 ^ 11 ≠ 2047) :
    ofBits bits ≠ .notANumber := by
  unfold ofBits
  simp only [show ∀ k, twoTo k = 2 ^ k from fun _ => rfl]
  rw [if_neg h]
  split_ifs <;> exact Double.noConfusion

variable {m : Nat} {e : Int}

theorem mul_twoTo_lt (hm : m < 2 ^ 53) {room : Nat} (h : room ≤ 52 - m.log2) :
    m * twoTo room < 2 ^ 53 := by
  rcases Nat.eq_zero_or_pos m with rfl | hpos
  · rw [Nat.zero_mul]
    exact Nat.two_pow_pos 53
  · have hlog : m.log2 < 53 := (Nat.log2_lt hpos.ne').2 hm
    calc m * twoTo room < 2 ^ (m.log2 + 1) * 2 ^ room :=
          Nat.mul_lt_mul_of_pos_right Nat.lt_log2_self (Nat.two_pow_pos room)
      _ = 2 ^ (m.log2 + 1 + room) := (Nat.pow_add ..).symm
      _ ≤ 2 ^ 53 := Nat.pow_le_pow_right Nat.two_pos (by omega)

/-- The bits of a finite double are not those of an infinity. -/
theorem finiteBits_field (negative : Bool) (hm : m < 2 ^ 53) (he : -1074 ≤ e) (he' : e ≤ 971) :
    finiteBits negative m e % 2 ^ 64 / 2 ^ 52 % 2 ^ 11 ≠ 2047 := by
  unfold finiteBits
  extract_lets room m' e'
  have hm' : m' < 2 ^ 53 := mul_twoTo_lt hm (Nat.min_le_left ..)
  have hroom : (room : Int) ≤ e + 1074 := by
    have := Nat.min_le_right (52 - m.log2) (e + 1074).toNat
    omega
  have hfield : (e' + 1075).toNat ≤ 2046 := by omega
  simp only [show ∀ k, twoTo k = 2 ^ k from fun _ => rfl]
  split_ifs <;> omega

theorem isNaN_toFloat (negative : Bool) (hm : m < 2 ^ 53) (he : -1074 ≤ e) (he' : e ≤ 971) :
    (finite negative m e).toFloat.isNaN = false := by
  rw [toFloat, isNaN_ofBits, ← Bool.not_eq_true, isNaN_unpack_iff]
  refine ofBits_ne_notANumber ?_
  change (UInt64.ofNat (finiteBits negative m e)).toNat / 2 ^ 52 % 2 ^ 11 ≠ 2047
  rw [UInt64.toNat_ofNat']
  exact finiteBits_field negative hm he he'

end Double

/-- The remainder of finite doubles is finite. -/
theorem isNaN_rem_finite {x y : Float} {s s' : Bool} {m n : Nat} {e f : Int}
    (hx : Double.ofFloat x = .finite s m e) (hy : Double.ofFloat y = .finite s' n f) (hn : n ≠ 0) :
    (remFloat x y).isNaN = false := by
  obtain ⟨hm, he, he'⟩ := Double.bounds_of_ofBits hx
  obtain ⟨hn', hf, hf'⟩ := Double.bounds_of_ofBits hy
  rw [remFloat, hx, hy]
  dsimp only
  rw [if_neg hn]
  refine Double.isNaN_toFloat s ?_ (by omega) (by omega)
  -- one of the two mantissas is not shifted, and the remainder is not above it
  rcases Int.le_total e f with h | h
  · rw [Int.min_eq_left h]
    refine (Nat.mod_le _ _).trans_lt ?_
    simpa using hm
  · rw [Int.min_eq_right h]
    have hpos : 0 < n * twoTo (f - f).toNat := by simpa using Nat.pos_of_ne_zero hn
    refine (Nat.mod_lt _ hpos).trans ?_
    simpa using hn'

theorem isNaN_rem (x y : Float) :
    (remFloat x y).isNaN = (x.isNaN || y.isNaN || (x.isInf || y == 0.0)) := by
  have hx := ofFloat_eq_ofUnpacked x
  have hy := ofFloat_eq_ofUnpacked y
  have hnan : ((0.0 / 0.0 : Float)).isNaN = true := by decide +kernel
  rw [beq_zero_eq]
  change _ = (x.toModel.unpack.isNaN || y.toModel.unpack.isNaN || (x.toModel.unpack.isInf || _))
  have hxn : x.isNaN = x.toModel.unpack.isNaN := rfl
  cases hxu : x.toModel.unpack <;> cases hyu : y.toModel.unpack <;> rw [hxu] at hx hxn <;>
    rw [hyu] at hy <;>
    simp only [Double.ofUnpacked] at hx hy
  case zero.finite hn => exact isNaN_rem_finite hx hy hn.ne'
  case finite.finite hn => exact isNaN_rem_finite hx hy hn.ne'
  all_goals rw [remFloat, hx, hy]
  case zero.infinity => exact hxn
  case finite.infinity => exact hxn
  all_goals exact hnan

/-! ## Decimals -/

/-- The powers of ten that are doubles are numbers, finite, and not zero. -/
theorem powersOfTen_all : Float.exactlyRepresentablePowersOfTen.all
    (fun p => !p.isNaN && !p.isInf && !(p == 0.0)) = true := by
  decide +kernel

theorem isNaN_toFloat_uint64 (n : UInt64) : n.toFloat.isNaN = false :=
  (isNaN_ofModel_pack _).trans (isNaN_normalize ..)

theorem isNaN_ofScientific_unpacked (m : Nat) (e : Int) :
    (ofScientific .binary64 m e).isNaN = false := by
  unfold ofScientific
  split_ifs
  · rfl
  · rfl
  · rfl
  · exact isNaN_roundWithAccuracy ..
  · exact isNaN_roundWithAccuracy ..

/-- Whatever digits and exponent are written, they stand for a number. -/
theorem isNaN_ofScientific (m : Nat) (s : Bool) (e : Nat) :
    (Float.ofScientific m s e).isNaN = false := by
  unfold Float.ofScientific
  by_cases h : m < 2 ^ 53 ∧ e ≤ 22
  · have hsize : e < Float.exactlyRepresentablePowersOfTen.size := Nat.lt_succ_of_le h.2
    have hpower := Array.all_eq_true.1 powersOfTen_all e hsize
    simp only [Bool.and_eq_true, Bool.not_eq_true'] at hpower
    obtain ⟨⟨hnan, hinf⟩, hzero⟩ := hpower
    rw [dif_pos h]
    dsimp only
    split_ifs
    · simp only [isNaN_div, isNaN_toFloat_uint64, hnan, hinf, hzero, Bool.and_false, Bool.or_false]
    · simp only [isNaN_mul, isNaN_toFloat_uint64, hnan, hinf, hzero, Bool.and_false, Bool.or_false]
  · rw [dif_neg h]
    exact (isNaN_ofModel_pack _).trans (isNaN_ofScientific_unpacked ..)

theorem isNaN_nearestFloat (m : Nat) (e : Int) : (Decimal.nearestFloat m e).isNaN = false := by
  unfold Decimal.nearestFloat
  dsimp only
  split_ifs
  · rfl
  · decide +kernel
  · exact isNaN_ofScientific ..
  · exact isNaN_ofScientific ..

end StaticSite
