import Mathlib
import StaticSite.Decimal.Double

/-!
# Whole doubles

Every number below `2^53` is a double: its mantissa is the number, doubled until it fills 53 bits.
Nothing is lost when such a double is made, so reading it back gives the number (`isIntegral_ofNat`,
`truncate_ofNat`). The double of an integer is the one of its absolute value with its sign; it is
read back in the same way (`truncate_ofInt`), and such doubles are in the order of the numbers
(`ofNat_lt_ofNat`). The steps follow the logical model of doubles, in which an operation works on a
sign, a mantissa and an exponent and then rounds and packs them; reading the bits of a double gives
what that model unpacks (`ofFloat_eq_ofUnpacked`).
-/

namespace StaticSite

open Float.Model (Format UnpackedFloat totalExponent)
open Float.Model.UnpackedFloat

theorem log2_mul_twoTo {m : Nat} (hm : 0 < m) (k : Nat) : (m * twoTo k).log2 = m.log2 + k := by
  rw [Nat.log2_eq_iff (Nat.mul_pos hm (twoTo_pos k)).ne']
  refine ⟨?_, ?_⟩
  · rw [Nat.pow_add]
    exact Nat.mul_le_mul_right _ (Nat.log2_self_le hm.ne')
  · rw [Nat.add_right_comm, Nat.pow_add]
    exact Nat.mul_lt_mul_of_pos_right Nat.lt_log2_self (twoTo_pos k)

/-- A mantissa of 53 bits with an exponent that it may have. -/
structure IsFull (m : Nat) (e : Int) : Prop where
  low : twoTo 52 ≤ m
  high : m < twoTo 53
  least : -1074 ≤ e
  greatest : e ≤ 971

namespace IsFull

variable {m : Nat} {e : Int}

theorem pos (h : IsFull m e) : 0 < m :=
  (twoTo_pos 52).trans_le h.low

theorem log2_eq (h : IsFull m e) : m.log2 = 52 :=
  (Nat.log2_eq_iff h.pos.ne').2 ⟨h.low, h.high⟩

theorem log2_shift (h : IsFull m e) (k : Nat) : (m * twoTo k).log2 = 52 + k := by
  rw [log2_mul_twoTo h.pos, h.log2_eq]

/-- A number below `2^53`, doubled until it is full. -/
theorem ofNat {n : Nat} (hn : 0 < n) (hlt : n < twoTo 53) :
    IsFull (n * twoTo (52 - n.log2)) ((n.log2 : Int) - 52) := by
  have hlog : n.log2 < 53 := (Nat.log2_lt hn.ne').2 hlt
  have hsum : n.log2 + (52 - n.log2) = 52 := by omega
  refine ⟨?_, ?_, by omega, by omega⟩
  · have := Nat.mul_le_mul_right (2 ^ (52 - n.log2)) (Nat.log2_self_le hn.ne')
    rwa [← Nat.pow_add, hsum] at this
  · have := Nat.mul_lt_mul_of_pos_right (Nat.lt_log2_self (n := n)) (Nat.two_pow_pos (52 - n.log2))
    rwa [← Nat.pow_add, Nat.add_right_comm, hsum] at this

end IsFull

/-! ## Reading the bits -/

/-- What a number of the model stands for. Zero has the least exponent. -/
def Double.ofUnpacked : UnpackedFloat → Double
  | .notANumber => .notANumber
  | .infinity s => .infinite (s == .negative)
  | .zero s => .finite (s == .negative) 0 (-1074)
  | .finite s m e _ => .finite (s == .negative) m e

section Bits

variable (b : BitVec Format.binary64.numBits)

theorem toNat_unpackExponent : (unpackExponent b).toNat = b.toNat / 2 ^ 52 % 2 ^ 11 := by
  rw [unpackExponent, BitVec.toNat_cast, BitVec.extractLsb_toNat, Nat.shiftRight_eq_div_pow]
  rfl

theorem toNat_unpackMantissa : (unpackMantissa b).toNat = b.toNat % 2 ^ 52 := by
  rw [unpackMantissa, BitVec.toNat_cast, BitVec.extractLsb_toNat, Nat.shiftRight_eq_div_pow,
    Nat.pow_zero, Nat.div_one]
  rfl

theorem toNat_unpackSign : (unpackSign b).toNat = b.toNat / 2 ^ 63 := by
  have hlt : b.toNat < 2 ^ 64 := b.isLt
  rw [unpackSign, BitVec.toNat_cast, BitVec.extractLsb_toNat, Nat.shiftRight_eq_div_pow]
  change b.toNat / 2 ^ 63 % 2 ^ 1 = _
  omega

theorem ofBitVec_beq_negative (b : BitVec 1) : (Sign.ofBitVec b == .negative) = (b.toNat == 1) := by
  revert b
  decide

/-- Both readings of a word agree. -/
theorem ofBits_toNat : Double.ofBits b.toNat = .ofUnpacked (unpack .binary64 b) := by
  have hones : unpackExponent b = (-1#_) ↔ b.toNat / 2 ^ 52 % 2 ^ 11 = 2047 := by
    rw [← BitVec.toNat_inj, toNat_unpackExponent]
    rfl
  have hzero : unpackExponent b = 0#_ ↔ b.toNat / 2 ^ 52 % 2 ^ 11 = 0 := by
    rw [← BitVec.toNat_inj, toNat_unpackExponent]
    rfl
  have hfraction : unpackMantissa b = 0#_ ↔ b.toNat % 2 ^ 52 = 0 := by
    rw [← BitVec.toNat_inj, toNat_unpackMantissa]
    rfl
  have hsign : (Sign.ofBitVec (unpackSign b) == .negative) = (b.toNat / 2 ^ 63 == 1) := by
    rw [ofBitVec_beq_negative, toNat_unpackSign]
  have hfull : (1#1 ++ unpackMantissa b).toNat = 2 ^ 52 + b.toNat % 2 ^ 52 := by
    rw [BitVec.toNat_append, ← Nat.shiftLeft_add_eq_or_of_lt (BitVec.isLt _), toNat_unpackMantissa]
    rfl
  unfold Double.ofBits unpack
  simp only [show ∀ k, twoTo k = 2 ^ k from fun _ => rfl, hones, hzero, hfraction]
  split_ifs with h1 h2 h3 h4
  · simp only [Double.ofUnpacked, hsign]
  · rfl
  · simp only [Double.ofUnpacked, hsign, h4]
  · simp only [Double.ofUnpacked, hsign, toNat_unpackExponent, toNat_unpackMantissa, h3]
    rfl
  · simp only [Double.ofUnpacked, hsign, toNat_unpackExponent, hfull]
    rfl

end Bits

theorem ofFloat_eq_ofUnpacked (x : Float) : Double.ofFloat x = .ofUnpacked x.toModel.unpack :=
  ofBits_toNat x.toModel.toBits.toBitVec

/-! ## Rounding what is exact -/

/-- Bits that are zero are shifted out without a trace. -/
theorem shiftRight_exact (m k : Nat) :
    (⟨m * twoTo k, false, false⟩ : ExtendedMantissa) >>> k = ⟨m, false, false⟩ := by
  change Nat.repeat ExtendedMantissa.shiftRightOne k _ = _
  induction k generalizing m with
  | zero => simp [Nat.repeat]
  | succ k ih =>
    have hm : m * twoTo (k + 1) = m * 2 * twoTo k := by
      rw [show twoTo (k + 1) = twoTo k * 2 from Nat.pow_succ ..]
      ring
    rw [Nat.repeat, hm, ih, ExtendedMantissa.shiftRightOne]
    simp

/-- Rounding keeps a full mantissa, however many zeros stand behind it. -/
theorem roundWithAccuracy_of_isFull {m : Nat} {e : Int} (h : IsFull m e) (s : Sign) (k : Nat) :
    roundWithAccuracy .binary64 s (m * twoTo k) (e - k) .exact = .finite s m e h.pos := by
  have shifted (j : Nat) : shiftToTargetExponent .binary64 (m * twoTo j) (e - j) .exact =
      (⟨m, false, false⟩, e) := by
    have target : Format.binary64.targetExponent (totalExponent (m * twoTo j) (e - j)) = e := by
      have := h.least
      simp only [Format.targetExponent, totalExponent, h.log2_shift, Format.mantissaBits,
        Format.minExponent]
      omega
    have hj : (e - (e - j)).toNat = j := by omega
    have he : e - j + j = e := by omega
    simp only [shiftToTargetExponent, target, shiftToExponent, hj, he,
      ExtendedMantissa.ofMantissaAndAccuracy, shiftRight_exact]
  have again : shiftToTargetExponent .binary64 m e .exact = (⟨m, false, false⟩, e) := by
    simpa using shifted 0
  simp only [roundWithAccuracy, shifted, ExtendedMantissa.roundedMantissa,
    ExtendedMantissa.accuracy, Accuracy.roundToNearestEven, again]
  exact dif_neg h.pos.ne'

/-- Rounding keeps a number below `2^53`, however many zeros stand behind its point. -/
theorem round_shifted {n : Nat} (hn : 0 < n) (hlt : n < twoTo 53) (k : Nat) :
    UnpackedFloat.round .binary64 .positive (n * twoTo k) (-k) =
      .finite .positive (n * twoTo (52 - n.log2)) (n.log2 - 52) (IsFull.ofNat hn hlt).pos := by
  have hlog : n.log2 < 53 := (Nat.log2_lt hn.ne').2 hlt
  have target : Format.binary64.targetExponent (totalExponent (n * twoTo k) (-k)) =
      (n.log2 : Int) - 52 := by
    simp only [Format.targetExponent, totalExponent, log2_mul_twoTo hn, Format.mantissaBits,
      Format.minExponent]
    omega
  -- what fills the mantissa, and the zeros that are left behind the full mantissa
  obtain ⟨j, hj⟩ : ∃ j, (-(k : Int) - (n.log2 - 52)).toNat = j := ⟨_, rfl⟩
  obtain ⟨i, hi⟩ : ∃ i, k + j = 52 - n.log2 + i := ⟨k + j - (52 - n.log2), by omega⟩
  have hmantissa : n * twoTo k * 2 ^ j = n * twoTo (52 - n.log2) * twoTo i := by
    change n * 2 ^ k * 2 ^ j = n * 2 ^ (52 - n.log2) * 2 ^ i
    rw [Nat.mul_assoc, ← Nat.pow_add, hi, Nat.pow_add, Nat.mul_assoc]
  have hexp : -(k : Int) - j = n.log2 - 52 - i := by omega
  simp only [UnpackedFloat.round, target, decreaseExponent, hj, hexp, Nat.shiftLeft_eq, hmantissa]
  exact roundWithAccuracy_of_isFull (IsFull.ofNat hn hlt) .positive i

theorem round_ofNat {n : Nat} (hn : 0 < n) (hlt : n < twoTo 53) :
    UnpackedFloat.round .binary64 .positive n 0 =
      .finite .positive (n * twoTo (52 - n.log2)) (n.log2 - 52) (IsFull.ofNat hn hlt).pos := by
  simpa using round_shifted hn hlt 0

/-! ## Packing -/

/-- The exponent field of a full mantissa. -/
def exponentField (e : Int) : Nat :=
  (e + 1075).toNat

theorem pack_of_isFull {m : Nat} {e : Int} (h : IsFull m e) (s : Sign) :
    pack .binary64 (.finite s m e h.pos) =
      packComponents .binary64 s (BitVec.ofNat 11 (exponentField e)) (BitVec.ofNat 52 m) := by
  have hfield :
      (e + Format.binary64.exponentBias + Format.binary64.mantissaBitsWithoutImplicit).toNat =
      exponentField e := by
    change (e + 1023 + 52).toNat = (e + 1075).toNat
    rw [Int.add_assoc]
    rfl
  have hroom : ¬ 2 ^ Format.binary64.exponentBits ≤ exponentField e + 1 := by
    have := h.greatest
    change ¬ 2048 ≤ (e + 1075).toNat + 1
    omega
  simp only [pack, hfield, if_neg hroom, h.log2_eq]
  rfl

theorem toNat_exponentField {e : Int} (h : -1074 ≤ e) (h' : e ≤ 971) :
    (BitVec.ofNat 11 (exponentField e)).toNat = exponentField e := by
  rw [BitVec.toNat_ofNat]
  unfold exponentField
  omega

theorem unpack_pack_of_isFull {m : Nat} {e : Int} (h : IsFull m e) (s : Sign) :
    unpack .binary64 (pack .binary64 (.finite s m e h.pos)) = .finite s m e h.pos := by
  have hlow : 2 ^ 52 ≤ m := h.low
  have hhigh : m < 2 ^ 53 := h.high
  have hleast := h.least
  have hgreatest := h.greatest
  have hfield := toNat_exponentField h.least h.greatest
  have hinner : exponentField e ≠ 0 ∧ exponentField e ≠ 2047 := by
    unfold exponentField
    omega
  have hzero : BitVec.ofNat 11 (exponentField e) ≠ 0#11 := fun he =>
    hinner.1 (hfield.symm.trans (congrArg BitVec.toNat he))
  have hones : BitVec.ofNat 11 (exponentField e) ≠ -1#11 := fun he =>
    hinner.2 (hfield.symm.trans (congrArg BitVec.toNat he))
  have hmantissa : (1#1 ++ BitVec.ofNat 52 m).toNat = m := by
    rw [BitVec.toNat_append, ← Nat.shiftLeft_add_eq_or_of_lt (BitVec.isLt _), BitVec.toNat_ofNat,
      Nat.shiftLeft_eq]
    change 1 * 2 ^ 52 + m % 2 ^ 52 = m
    omega
  have hexponent : (exponentField e : Int) - (Format.binary64.exponentBias + (52 : Nat)) = e := by
    change ((e + 1075).toNat : Int) - (1023 + 52) = e
    omega
  rw [pack_of_isFull h]
  simp only [unpack, unpackMantissa_packComponents, unpackExponent_packComponents,
    unpackSign_packComponents, if_neg hzero, if_neg hones, hfield, hmantissa, hexponent]
  cases s <;> rfl

/-! ## Whole numbers as doubles -/

/-- The double with a sign and a full mantissa. -/
def fullFloat (s : Sign) {m : Nat} {e : Int} (h : IsFull m e) : Float :=
  .ofModel (.pack (.finite s m e h.pos))

theorem unpack_fullFloat (s : Sign) {m : Nat} {e : Int} (h : IsFull m e) :
    (fullFloat s h).toModel.unpack = .finite s m e h.pos :=
  unpack_pack_of_isFull h s

theorem toFloat_toUInt64 {n : Nat} (hn : 0 < n) (hlt : n < twoTo 53) :
    n.toUInt64.toFloat = fullFloat .positive (IsFull.ofNat hn hlt) := by
  have hword : n.toUInt64.toNat = n := Nat.mod_eq_of_lt (hlt.trans (by decide))
  have hsign : compare (n : Int) 0 = .gt := Int.compare_eq_gt.2 (by omega)
  unfold UInt64.toFloat Float.Model.ofUInt64 ofUInt64 ofNat ofInt UnpackedFloat.normalize fullFloat
  rw [hword]
  simp only [hsign, Int.toNat_natCast, round_ofNat hn hlt]

theorem fullFloat_mul_one {m : Nat} {e : Int} (h : IsFull m e) :
    fullFloat .positive h * Float.ofBits 0x3FF0000000000000 = fullFloat .positive h := by
  have hone : (Float.ofBits 0x3FF0000000000000).toModel.unpack =
      .finite .positive (2 ^ 52) (-52) (by decide) := rfl
  have hround := roundWithAccuracy_of_isFull h .positive 52
  change Float.ofModel (Float.Model.pack (mul .binary64 _ _)) = _
  rw [unpack_fullFloat, hone]
  exact congrArg (Float.ofModel ∘ Float.Model.pack) hround

theorem ofNat_eq_fullFloat {n : Nat} (hn : 0 < n) (hlt : n < twoTo 53) :
    Float.ofNat n = fullFloat .positive (IsFull.ofNat hn hlt) := by
  change Float.ofScientific n false 0 = _
  unfold Float.ofScientific
  rw [dif_pos ⟨hlt, by decide⟩, if_neg (by decide)]
  change n.toUInt64.toFloat * Float.ofBits 0x3FF0000000000000 = _
  rw [toFloat_toUInt64 hn hlt, fullFloat_mul_one]

/-- Reading a double with a full mantissa. -/
theorem ofFloat_fullFloat (s : Sign) {m : Nat} {e : Int} (h : IsFull m e) :
    Double.ofFloat (fullFloat s h) = .finite (s == .negative) m e := by
  rw [ofFloat_eq_ofUnpacked, unpack_fullFloat, Double.ofUnpacked]

theorem ofFloat_zero : Double.ofFloat (Float.ofNat 0) = .finite false 0 (-1074) := by
  rfl

/-- What is read of a whole number above zero. -/
theorem ofFloat_ofNat {n : Nat} (hn : 0 < n) (hlt : n < twoTo 53) :
    Double.ofFloat (Float.ofNat n) = .finite false (n * twoTo (52 - n.log2)) (n.log2 - 52) := by
  rw [ofNat_eq_fullFloat hn hlt, ofFloat_fullFloat]
  rfl

theorem zero_le_ofNat {n : Nat} (hlt : n < twoTo 53) : (0.0 : Float) ≤ Float.ofNat n := by
  rcases Nat.eq_zero_or_pos n with rfl | hn
  · decide
  · have hzero : (0.0 : Float).toModel.unpack = .zero .positive := by
      with_unfolding_all rfl
    rw [ofNat_eq_fullFloat hn hlt]
    have hle : (0.0 : Float).toModel.unpack.le
        (fullFloat .positive (IsFull.ofNat hn hlt)).toModel.unpack = true := by
      rw [hzero, unpack_fullFloat]
      rfl
    exact decide_eq_true hle

/-- The zeros behind a whole number in its mantissa. -/
theorem neg_exponent_ofNat {n : Nat} (hn : 0 < n) (hlt : n < twoTo 53) :
    -((n.log2 : Int) - 52) = (52 - n.log2 : Nat) := by
  have hlog : n.log2 < 53 := (Nat.log2_lt hn.ne').2 hlt
  omega

/-- The whole part of a double that is a whole number. -/
theorem truncate_ofNat {n : Nat} (hlt : n < twoTo 53) :
    (Double.ofFloat (Float.ofNat n)).truncate = n := by
  rcases Nat.eq_zero_or_pos n with rfl | hn
  · rw [ofFloat_zero]
    simp only [Double.truncate, Nat.zero_mul, Nat.zero_div, ite_self, Bool.false_eq_true, if_false]
  · rw [ofFloat_ofNat hn hlt]
    simp only [Double.truncate, neg_exponent_ofNat hn hlt, Int.toNat_natCast,
      Nat.mul_div_left _ (twoTo_pos _), Bool.false_eq_true, if_false]
    split
    · have hlog : n.log2 < 53 := (Nat.log2_lt hn.ne').2 hlt
      have hfull : n.log2 = 52 := by omega
      simp [hfull]
    · rfl

theorem isIntegral_ofNat {n : Nat} (hlt : n < twoTo 53) : isIntegral (Float.ofNat n) = true := by
  rcases Nat.eq_zero_or_pos n with rfl | hn
  · rw [isIntegral, ofFloat_zero]
    simp only [Double.isIntegral, Nat.zero_mod, beq_self_eq_true, Bool.or_true]
  · unfold isIntegral Double.isIntegral
    rw [ofFloat_ofNat hn hlt]
    simp only [neg_exponent_ofNat hn hlt, Int.toNat_natCast, Nat.mul_mod_left, beq_self_eq_true,
      Bool.or_true]

/-! ## Signs and order -/

section Full

variable {m m' : Nat} {e e' : Int}

theorem neg_fullFloat (s : Sign) (h : IsFull m e) : -fullFloat s h = fullFloat (-s) h := by
  change Float.ofModel (.pack (neg (fullFloat s h).toModel.unpack)) = _
  rw [unpack_fullFloat]
  rfl

theorem abs_fullFloat (s : Sign) (h : IsFull m e) :
    (fullFloat s h).abs = fullFloat .positive h := by
  change Float.ofModel (.pack (abs (fullFloat s h).toModel.unpack)) = _
  rw [unpack_fullFloat]
  rfl

theorem isFinite_fullFloat (s : Sign) (h : IsFull m e) : (fullFloat s h).isFinite = true := by
  change (fullFloat s h).toModel.unpack.isFinite = true
  rw [unpack_fullFloat]
  rfl

/-- Full mantissas are compared where the exponents are equal. -/
theorem fullFloat_lt (h : IsFull m e) (h' : IsFull m' e') :
    fullFloat .positive h < fullFloat .positive h' ↔ e < e' ∨ e = e' ∧ m < m' := by
  have compares : fullFloat .positive h < fullFloat .positive h' ↔
      ((fullFloat .positive h).toModel.unpack.lt (fullFloat .positive h').toModel.unpack) = true :=
    decide_eq_true_iff
  rw [compares, unpack_fullFloat, unpack_fullFloat, ← compare_lt_iff_lt, ← compare_lt_iff_lt]
  simp [UnpackedFloat.lt, UnpackedFloat.compare, Ordering.then_eq_lt]

end Full

theorem lt_of_log2_lt {a b : Nat} (hb : b ≠ 0) (h : a.log2 < b.log2) : a < b :=
  calc a < 2 ^ (a.log2 + 1) := Nat.lt_log2_self
    _ ≤ 2 ^ b.log2 := Nat.pow_le_pow_right Nat.two_pos h
    _ ≤ b := Nat.log2_self_le hb

/-- The doubles of whole numbers are in the order of the numbers. -/
theorem ofNat_lt_ofNat {a b : Nat} (ha : 0 < a) (ha' : a < twoTo 53) (hb : 0 < b)
    (hb' : b < twoTo 53) :
    Float.ofNat a < Float.ofNat b ↔ a < b := by
  rw [ofNat_eq_fullFloat ha ha', ofNat_eq_fullFloat hb hb', fullFloat_lt]
  rcases Nat.lt_trichotomy a.log2 b.log2 with h | h | h
  · have hlt := lt_of_log2_lt hb.ne' h
    omega
  · rw [h]
    simp
  · have hlt := lt_of_log2_lt ha.ne' h
    omega

/-! ## Integers -/

theorem ofInt_eq_fullFloat {n : Int} (hn : n ≠ 0) (h : n.natAbs < twoTo 53) :
    Float.ofInt n = fullFloat (if n < 0 then .negative else .positive)
      (IsFull.ofNat (Int.natAbs_pos.2 hn) h) := by
  cases n with
  | ofNat k =>
    have hpos : ¬ Int.ofNat k < 0 := Int.not_lt.2 (Int.natCast_nonneg k)
    rw [if_neg hpos]
    exact ofNat_eq_fullFloat (Int.natAbs_pos.2 hn) h
  | negSucc k =>
    have hneg : Float.ofInt (.negSucc k) = -Float.ofNat (k + 1) := rfl
    rw [if_pos (Int.negSucc_lt_zero k), hneg, ofNat_eq_fullFloat k.succ_pos h, neg_fullFloat]
    rfl

theorem abs_ofInt {n : Int} (hn : n ≠ 0) (h : n.natAbs < twoTo 53) :
    (Float.ofInt n).abs = Float.ofNat n.natAbs := by
  rw [ofInt_eq_fullFloat hn h, abs_fullFloat, ofNat_eq_fullFloat (Int.natAbs_pos.2 hn) h]

theorem isFinite_ofInt {n : Int} (hn : n ≠ 0) (h : n.natAbs < twoTo 53) :
    (Float.ofInt n).isFinite = true := by
  rw [ofInt_eq_fullFloat hn h, isFinite_fullFloat]

/-- What is read of an integer is what is read of its absolute value, with its sign. -/
theorem ofFloat_ofInt {n : Int} (hn : n ≠ 0) (h : n.natAbs < twoTo 53) :
    Double.ofFloat (Float.ofInt n) =
      .finite (decide (n < 0)) (n.natAbs * twoTo (52 - n.natAbs.log2)) (n.natAbs.log2 - 52) := by
  rw [ofInt_eq_fullFloat hn h, ofFloat_fullFloat]
  by_cases hneg : n < 0
  · rw [if_pos hneg, decide_eq_true hneg]
    rfl
  · rw [if_neg hneg, decide_eq_false hneg]
    rfl

theorem isIntegral_ofInt {n : Int} (h : n.natAbs < twoTo 53) :
    isIntegral (Float.ofInt n) = true := by
  by_cases hn : n = 0
  · subst hn
    exact isIntegral_ofNat h
  · have habs := isIntegral_ofNat h
    unfold isIntegral at habs ⊢
    rw [ofFloat_ofNat (Int.natAbs_pos.2 hn) h] at habs
    rw [ofFloat_ofInt hn h]
    exact habs

theorem truncate_finite (negative : Bool) (m : Nat) (e : Int) :
    (Double.finite negative m e).truncate =
    if negative then -(Double.finite false m e).truncate
    else (Double.finite false m e).truncate := by
  cases negative <;> rfl

/-- The whole part of a double that is an integer. -/
theorem truncate_ofInt {n : Int} (h : n.natAbs < twoTo 53) :
    (Double.ofFloat (Float.ofInt n)).truncate = n := by
  by_cases hn : n = 0
  · subst hn
    exact truncate_ofNat h
  · have habs := truncate_ofNat h
    rw [ofFloat_ofNat (Int.natAbs_pos.2 hn) h] at habs
    rw [ofFloat_ofInt hn h, truncate_finite, habs]
    split
    · rename_i hneg
      have := of_decide_eq_true hneg
      omega
    · rename_i hpos
      have : ¬ n < 0 := fun hlt => hpos (decide_eq_true hlt)
      omega

end StaticSite
