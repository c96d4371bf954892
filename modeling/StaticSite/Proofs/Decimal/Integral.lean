import StaticSite.Proofs.Decimal.Whole

/-!
# Doubles that are integers

A double without a fractional part is a zero of either sign, or it has a full mantissa
(`StandsFor.zero_or_full`). So its sign and its count are those of the integer that it stands for,
and below `2^53` an integer above zero has one double. Sums of such doubles are exact
(`StandsFor.add`).
-/

namespace StaticSite

open Float.Model (UnpackedFloat)
open Float.Model.UnpackedFloat

/-! ## Doubles and what is read of them -/

theorem mod_twoTo_of_le {a i j : Nat} (h : a < twoTo i) (hij : i ≤ j) : a % twoTo j = a :=
  Nat.mod_eq_of_lt (h.trans_le (Nat.pow_le_pow_right Nat.two_pos hij))

namespace Double

variable {negative : Bool} {m n : Nat} {e : Int}

theorem isIntegral_finite (negative : Bool) (m : Nat) (e : Int) :
    (finite negative m e).isIntegral = (finite false m e).isIntegral :=
  rfl

theorem mod_of_isIntegral (he : ¬ 0 ≤ e) (h : (finite negative m e).isIntegral = true) :
    m % twoTo (-e).toNat = 0 := by
  simpa only [isIntegral, decide_eq_false he, Bool.false_or, beq_iff_eq] using h

theorem truncate_positive (m : Nat) (e : Int) : (finite false m e).truncate =
    (if 0 ≤ e then m * twoTo e.toNat else m / twoTo (-e).toNat : Nat) :=
  rfl

/-- The bits of finite doubles differ where what is read of them differs. -/
theorem eq_of_ofBits {a b : Nat} (ha : a < twoTo 64) (hb : b < twoTo 64)
    (h : ofBits a = .finite negative m e) (h' : ofBits b = .finite negative m e) : a = b := by
  simp only [show ∀ k, twoTo k = 2 ^ k from fun _ => rfl] at ha hb
  have hsign (he : (a / 2 ^ 63 == 1) = (b / 2 ^ 63 == 1)) : a / 2 ^ 63 = b / 2 ^ 63 := by
    rw [Bool.eq_iff_iff, beq_iff_eq, beq_iff_eq] at he
    omega
  unfold ofBits at h h'
  simp only [show ∀ k, twoTo k = 2 ^ k from fun _ => rfl] at h h'
  split_ifs at h h' <;> simp only [finite.injEq] at h h'
  all_goals
    have := hsign (h.1.trans h'.1.symm)
    omega

/-- The bits of an integer are those of a zero, or they have a full mantissa. -/
theorem ofBits_of_isIntegral {bits : Nat} (h : (ofBits bits).isIntegral = true) :
    (∃ negative, ofBits bits = .finite negative 0 (-1074)) ∨
      ∃ negative m e, ofBits bits = .finite negative m e ∧ IsFull m e := by
  have hfraction : bits % twoTo 52 < twoTo 52 := Nat.mod_lt _ (twoTo_pos 52)
  unfold ofBits at h ⊢
  dsimp only at h ⊢
  split_ifs at h ⊢ with hones hinfinite hzero
  · simp [isIntegral] at h
  · simp [isIntegral] at h
  · -- a fraction without a leading one is less than the unit of the least exponent
    left
    have hmod := mod_of_isIntegral (by decide) h
    exact ⟨_, by rw [(mod_twoTo_of_le hfraction (by decide)).symm.trans hmod]⟩
  · right
    have hfield : bits / twoTo 52 % twoTo 11 < 2 ^ 11 := Nat.mod_lt _ (twoTo_pos 11)
    exact ⟨_, _, _, rfl, Nat.le_add_right _ _, Nat.add_lt_add_left hfraction _, by omega, by omega⟩

/-- A full mantissa that is an integer is one above zero. -/
theorem truncate_of_isFull (h : IsFull m e) (hi : (finite false m e).isIntegral = true) :
    ∃ n : Nat, 0 < n ∧ (finite false m e).truncate = n := by
  by_cases he : 0 ≤ e
  · exact ⟨m * twoTo e.toNat, Nat.mul_pos h.pos (twoTo_pos _), by rw [truncate_positive, if_pos he]⟩
  · have hdvd := Nat.dvd_of_mod_eq_zero (mod_of_isIntegral he hi)
    refine ⟨m / twoTo (-e).toNat, ?_, by rw [truncate_positive, if_neg he]⟩
    exact Nat.div_pos (Nat.le_of_dvd h.pos hdvd) (twoTo_pos _)

/-- The number below `2^53` that a full mantissa stands for determines it. -/
theorem eq_of_truncate (h : IsFull m e) (hn : 0 < n) (hlt : n < twoTo 53)
    (hi : (finite false m e).isIntegral = true) (ht : (finite false m e).truncate = n) :
    m = n * twoTo (52 - n.log2) ∧ e = n.log2 - 52 := by
  have hlog : n.log2 < 53 := (Nat.log2_lt hn.ne').2 hlt
  obtain ⟨k, hk, hm⟩ : ∃ k : Nat, e = -k ∧ m = n * twoTo k := by
    rw [truncate_positive, Int.ofNat_inj] at ht
    by_cases he : 0 ≤ e
    · rw [if_pos he] at ht
      have hlog' : 52 + e.toNat = n.log2 := by rw [← h.log2_shift, ht]
      obtain rfl : e = 0 := by omega
      exact ⟨0, rfl, by simpa using ht⟩
    · rw [if_neg he] at ht
      have hdvd := Nat.dvd_of_mod_eq_zero (mod_of_isIntegral he hi)
      exact ⟨(-e).toNat, by omega, by rw [← ht, Nat.div_mul_cancel hdvd]⟩
  have hsum : n.log2 + k = 52 := by rw [← log2_mul_twoTo hn, ← hm, h.log2_eq]
  have hk' : k = 52 - n.log2 := by omega
  exact ⟨by rw [hm, hk'], by omega⟩

end Double

theorem eq_of_toBits {x y : Float} (h : x.toBits = y.toBits) : x = y := by
  obtain ⟨⟨u, hu⟩⟩ := x
  obtain ⟨⟨v, hv⟩⟩ := y
  obtain rfl : u = v := h
  rfl

theorem eq_of_ofFloat {x y : Float} {negative : Bool} {m : Nat} {e : Int}
    (h : Double.ofFloat x = .finite negative m e) (h' : Double.ofFloat y = .finite negative m e) :
    x = y :=
  eq_of_toBits
    (UInt64.toNat_inj.1 (Double.eq_of_ofBits (UInt64.toNat_lt _) (UInt64.toNat_lt _) h h'))

theorem ofFloat_negZero : Double.ofFloat (-0.0) = .finite true 0 (-1074) := by
  rfl

/-! ## Comparisons of full mantissas -/

theorem unpack_zero : (0.0 : Float).toModel.unpack = .zero .positive := by
  with_unfolding_all rfl

theorem unpack_negOne :
    (-1.0 : Float).toModel.unpack = .finite .negative (2 ^ 52) (-52) (by decide) := by
  with_unfolding_all rfl

section Full

variable {m : Nat} {e : Int}

theorem isNaN_fullFloat (s : Sign) (h : IsFull m e) : (fullFloat s h).isNaN = false := by
  change (fullFloat s h).toModel.unpack.isNaN = false
  rw [unpack_fullFloat]
  rfl

theorem fullFloat_lt_zero (s : Sign) (h : IsFull m e) : fullFloat s h < 0.0 ↔ s = .negative := by
  have compares : fullFloat s h < 0.0 ↔
      ((fullFloat s h).toModel.unpack.lt (0.0 : Float).toModel.unpack) = true := decide_eq_true_iff
  rw [compares, unpack_fullFloat, unpack_zero]
  cases s <;> simp [UnpackedFloat.lt, UnpackedFloat.compare]

theorem zero_le_fullFloat (s : Sign) (h : IsFull m e) : 0.0 ≤ fullFloat s h ↔ s = .positive := by
  have compares : 0.0 ≤ fullFloat s h ↔
      ((0.0 : Float).toModel.unpack.le (fullFloat s h).toModel.unpack) = true := decide_eq_true_iff
  rw [compares, unpack_fullFloat, unpack_zero]
  cases s <;> simp [UnpackedFloat.le, UnpackedFloat.compare]

theorem fullFloat_beq_negOne (h : IsFull m e) : (fullFloat .positive h == -1.0) = false := by
  change (fullFloat .positive h).toModel.unpack.beq (-1.0 : Float).toModel.unpack = false
  rw [unpack_fullFloat, unpack_negOne]
  rfl

end Full

/-! ## Integers -/

/-- The double is an integer, and which one. Both zeros stand for zero. -/
structure StandsFor (x : Float) (n : Int) : Prop where
  isIntegral : isIntegral x = true
  truncate : (Double.ofFloat x).truncate = n

theorem StandsFor.ofNat {n : Nat} (h : n < twoTo 53) : StandsFor (Float.ofNat n) n :=
  ⟨isIntegral_ofNat h, truncate_ofNat h⟩

theorem StandsFor.ofInt {n : Int} (h : n.natAbs < twoTo 53) : StandsFor (Float.ofInt n) n :=
  ⟨isIntegral_ofInt h, truncate_ofInt h⟩

theorem StandsFor.of_zero {x : Float} (hx : x = 0.0 ∨ x = -0.0) : StandsFor x 0 := by
  rcases hx with rfl | rfl
  · exact ⟨by decide +kernel, by decide +kernel⟩
  · exact ⟨by decide +kernel, by decide +kernel⟩

theorem StandsFor.one : StandsFor 1.0 1 :=
  ⟨by decide +kernel, by decide +kernel⟩

namespace StandsFor

variable {x : Float} {n : Int}

/-- A double that is an integer is a zero, or it has a full mantissa and the sign of the integer. -/
theorem zero_or_full (h : StandsFor x n) : (n = 0 ∧ (x = 0.0 ∨ x = -0.0)) ∨
    ∃ (s : Sign) (m : Nat) (e : Int) (hm : IsFull m e), x = fullFloat s hm ∧
      (Double.finite false m e).isIntegral = true ∧
      ∃ k : Nat, 0 < k ∧ (Double.finite false m e).truncate = k ∧ n = s.apply k := by
  have hi : (Double.ofFloat x).isIntegral = true := h.isIntegral
  have ht := h.truncate
  rcases Double.ofBits_of_isIntegral hi with ⟨negative, hx⟩ | ⟨negative, m, e, hx, hm⟩
  · left
    have hx : Double.ofFloat x = .finite negative 0 (-1074) := hx
    rw [hx, truncate_finite, Double.truncate_positive, Nat.zero_mul, Nat.zero_div, ite_self,
      Nat.cast_zero, Int.neg_zero, ite_self] at ht
    cases negative with
    | false => exact ⟨ht.symm, .inl (eq_of_ofFloat hx ofFloat_zero)⟩
    | true => exact ⟨ht.symm, .inr (eq_of_ofFloat hx ofFloat_negZero)⟩
  · right
    have hx : Double.ofFloat x = .finite negative m e := hx
    rw [hx, Double.isIntegral_finite] at hi
    obtain ⟨k, hk, htrunc⟩ := Double.truncate_of_isFull hm hi
    rw [hx, truncate_finite, htrunc] at ht
    cases negative with
    | false =>
      have hfull := eq_of_ofFloat hx (ofFloat_fullFloat .positive hm)
      exact ⟨.positive, m, e, hm, hfull, hi, k, hk, htrunc, ht.symm⟩
    | true =>
      have hfull := eq_of_ofFloat hx (ofFloat_fullFloat .negative hm)
      exact ⟨.negative, m, e, hm, hfull, hi, k, hk, htrunc, ht.symm⟩

theorem eq_zero (h : StandsFor x 0) : x = 0.0 ∨ x = -0.0 := by
  rcases h.zero_or_full with ⟨-, hx⟩ | ⟨s, -, -, -, -, -, k, hk, -, hs⟩
  · exact hx
  · cases s <;> simp only [Sign.apply] at hs <;> omega

theorem isNaN (h : StandsFor x n) : x.isNaN = false := by
  rcases h.zero_or_full with ⟨-, rfl | rfl⟩ | ⟨s, m, e, hm, rfl, -⟩
  · rfl
  · rfl
  · exact isNaN_fullFloat s hm

theorem lt_zero_iff (h : StandsFor x n) : x < 0.0 ↔ n < 0 := by
  rcases h.zero_or_full with ⟨rfl, rfl | rfl⟩ | ⟨s, m, e, hm, rfl, -, k, hk, -, rfl⟩
  · decide
  · decide
  · rw [fullFloat_lt_zero]
    cases s with
    | positive => simp [Sign.apply]
    | negative => simpa [Sign.apply] using hk

theorem zero_le_iff (h : StandsFor x n) : 0.0 ≤ x ↔ 0 ≤ n := by
  rcases h.zero_or_full with ⟨rfl, rfl | rfl⟩ | ⟨s, m, e, hm, rfl, -, k, hk, -, rfl⟩
  · decide
  · decide
  · rw [zero_le_fullFloat]
    cases s with
    | positive => simp [Sign.apply]
    | negative => simpa [Sign.apply] using hk.ne'

theorem beq_negOne (h : StandsFor x n) (hn : 0 ≤ n) : (x == -1.0) = false := by
  rcases h.zero_or_full with ⟨-, rfl | rfl⟩ | ⟨s, m, e, hm, rfl, -, k, hk, -, rfl⟩
  · decide
  · decide
  · cases s with
    | positive => exact fullFloat_beq_negOne hm
    | negative => simp only [Sign.apply] at hn; omega

theorem neg (h : StandsFor x n) : StandsFor (-x) (-n) := by
  rcases h.zero_or_full with ⟨rfl, rfl | rfl⟩ | ⟨s, m, e, hm, rfl, hi, k, -, ht, rfl⟩
  · exact .of_zero (.inr rfl)
  · exact .of_zero (.inl (by with_unfolding_all rfl))
  · rw [neg_fullFloat]
    refine ⟨?_, ?_⟩
    · rw [StaticSite.isIntegral, ofFloat_fullFloat, Double.isIntegral_finite, hi]
    · rw [ofFloat_fullFloat, truncate_finite, ht]
      cases s with
      | positive => rfl
      | negative => exact (Int.neg_neg k).symm

/-- The count of an integer: none if it is negative. -/
theorem toCount (h : StandsFor x n) :
    (Double.ofFloat x).toCount = min n.toNat Double.greatestCount := by
  have hi : (Double.ofFloat x).isIntegral = true := h.isIntegral
  rw [← h.truncate]
  cases hx : Double.ofFloat x with
  | notANumber => simp [hx, Double.isIntegral] at hi
  | infinite negative => simp [hx, Double.isIntegral] at hi
  | finite negative m e => rfl

/-- A number above zero and below `2^53` has one double. -/
theorem eq_ofNat {n : Nat} (h : StandsFor x n) (hn : 0 < n) (hlt : n < twoTo 53) :
    x = Float.ofNat n := by
  rcases h.zero_or_full with ⟨hzero, -⟩ | ⟨s, m, e, hm, rfl, hi, k, hk, ht, hs⟩
  · omega
  · cases s with
    | negative => simp only [Sign.apply] at hs; omega
    | positive =>
      obtain rfl : n = k := Int.ofNat_inj.1 hs
      obtain ⟨rfl, rfl⟩ := Double.eq_of_truncate hm hn hlt hi ht
      exact (ofNat_eq_fullFloat hn hlt).symm

end StandsFor

/-! ## Sums -/

/-- The mantissa of a whole number with more zeros behind its point. -/
theorem decreaseExponent_ofNat {n k : Nat} (hn : 0 < n) (hlt : n < twoTo 53)
    (hk : 52 - n.log2 ≤ k) :
    decreaseExponent (n * twoTo (52 - n.log2)) (n.log2 - 52) (-k) = (n * twoTo k, -(k : Int)) := by
  have hlog : n.log2 < 53 := (Nat.log2_lt hn.ne').2 hlt
  obtain ⟨j, rfl⟩ := Nat.exists_eq_add_of_le hk
  have hroom : ((n.log2 : Int) - 52 - -(52 - n.log2 + j : Nat)).toNat = j := by omega
  have hexp : (n.log2 : Int) - 52 - j = -(52 - n.log2 + j : Nat) := by omega
  have hmantissa : n * twoTo (52 - n.log2) * 2 ^ j = n * twoTo (52 - n.log2 + j) := by
    change n * 2 ^ (52 - n.log2) * 2 ^ j = n * 2 ^ (52 - n.log2 + j)
    rw [Nat.mul_assoc, ← Nat.pow_add]
  simp only [decreaseExponent, hroom, hexp, Nat.shiftLeft_eq, hmantissa]

/-- Sums of whole numbers are exact as long as they are below `2^53`. -/
theorem ofNat_add_ofNat {a b : Nat} (ha : 0 < a) (hb : 0 < b) (hlt : a + b < twoTo 53) :
    Float.ofNat a + Float.ofNat b = Float.ofNat (a + b) := by
  have hab : 0 < a + b := Nat.add_pos_left ha b
  have ha' : a < twoTo 53 := by omega
  have hb' : b < twoTo 53 := by omega
  have hloga : a.log2 < 53 := (Nat.log2_lt ha.ne').2 ha'
  have hlogb : b.log2 < 53 := (Nat.log2_lt hb.ne').2 hb'
  -- both mantissas are written with the zeros of the one that has more of them
  obtain ⟨k, hk⟩ : ∃ k : Nat, min ((a.log2 : Int) - 52) (b.log2 - 52) = -k :=
    ⟨52 - min a.log2 b.log2, by omega⟩
  have hsum : Sign.positive.apply (a * twoTo k : Nat) + Sign.positive.apply (b * twoTo k : Nat) =
      ((a + b) * twoTo k : Nat) := by
    rw [Nat.add_mul, Nat.cast_add]
    rfl
  have hpos : compare (((a + b) * twoTo k : Nat) : Int) 0 = .gt := by
    have := Nat.mul_pos hab (twoTo_pos k)
    exact Int.compare_eq_gt.2 (by omega)
  change Float.ofModel (.pack (add .binary64 (Float.ofNat a).toModel.unpack
    (Float.ofNat b).toModel.unpack)) = _
  rw [ofNat_eq_fullFloat ha ha', ofNat_eq_fullFloat hb hb', ofNat_eq_fullFloat hab hlt,
    unpack_fullFloat, unpack_fullFloat]
  simp only [add, hk, decreaseExponent_ofNat ha ha' (by omega : 52 - a.log2 ≤ k),
    decreaseExponent_ofNat hb hb' (by omega : 52 - b.log2 ≤ k), hsum, UnpackedFloat.normalize, hpos,
    Int.toNat_natCast, round_shifted hab hlt]
  rfl

section Zero

variable {x y : Float} (hx : x = 0.0 ∨ x = -0.0)

include hx

theorem unpack_of_zero : ∃ s, x.toModel.unpack = .zero s := by
  rcases hx with rfl | rfl
  · exact ⟨.positive, unpack_zero⟩
  · exact ⟨.negative, by with_unfolding_all rfl⟩

theorem zero_add_ofNat {n : Nat} (hn : 0 < n) (hlt : n < twoTo 53) :
    x + Float.ofNat n = Float.ofNat n := by
  obtain ⟨s, hs⟩ := unpack_of_zero hx
  change Float.ofModel (.pack (add .binary64 x.toModel.unpack (Float.ofNat n).toModel.unpack)) = _
  rw [ofNat_eq_fullFloat hn hlt, unpack_fullFloat, hs]
  rfl

theorem ofNat_add_zero {n : Nat} (hn : 0 < n) (hlt : n < twoTo 53) :
    Float.ofNat n + x = Float.ofNat n := by
  obtain ⟨s, hs⟩ := unpack_of_zero hx
  change Float.ofModel (.pack (add .binary64 (Float.ofNat n).toModel.unpack x.toModel.unpack)) = _
  rw [ofNat_eq_fullFloat hn hlt, unpack_fullFloat, hs]
  rfl

theorem zero_add_zero (hy : y = 0.0 ∨ y = -0.0) : x + y = 0.0 ∨ x + y = -0.0 := by
  rcases hx with rfl | rfl <;> rcases hy with rfl | rfl
  · exact .inl (by with_unfolding_all rfl)
  · exact .inl (by with_unfolding_all rfl)
  · exact .inl (by with_unfolding_all rfl)
  · exact .inr (by with_unfolding_all rfl)

end Zero

/-- The sum of two integers that are not negative, as long as it is below `2^53`. -/
theorem StandsFor.add {x y : Float} {a b : Nat} (hx : StandsFor x a) (hy : StandsFor y b)
    (hlt : a + b < twoTo 53) : StandsFor (x + y) (a + b : Nat) := by
  rcases Nat.eq_zero_or_pos a with rfl | ha <;> rcases Nat.eq_zero_or_pos b with rfl | hb
  · exact .of_zero (zero_add_zero hx.eq_zero hy.eq_zero)
  · obtain rfl := hy.eq_ofNat hb (by omega)
    rw [zero_add_ofNat hx.eq_zero hb (by omega), Nat.zero_add]
    exact hy
  · obtain rfl := hx.eq_ofNat ha (by omega)
    rw [ofNat_add_zero hy.eq_zero ha (by omega)]
    exact hx
  · rw [hx.eq_ofNat ha (by omega), hy.eq_ofNat hb (by omega), ofNat_add_ofNat ha hb hlt]
    exact .ofNat hlt

end StaticSite
