import Mathlib

/-!
# The order of doubles

Doubles that are numbers are ordered as their ranks are: by sign, then by exponent, then by mantissa
(`lt_iff_rank`, `beq_iff_rank`). Both zeros have one rank, and what is not a number has none
(`rank?_eq_none_iff`). So a comparison of doubles is one in a linear order wherever it has an
answer.
-/

namespace StaticSite

open Float.Model (UnpackedFloat)
open Float.Model.UnpackedFloat

/-! ## Ranks -/

/-- The places of numbers in their order. -/
abbrev Rank := Int ×ₗ Int ×ₗ Int

/-- The rank of a number from its parts, the most significant one first. -/
def Rank.of (size exponent mantissa : Int) : Rank :=
  toLex (size, toLex (exponent, mantissa))

theorem Rank.cmp_of (s e m s' e' m' : Int) : cmp (Rank.of s e m) (Rank.of s' e' m') =
    (compare s s').then ((compare e e').then (compare m m')) := by
  rw [cmp_eq_compare]
  rfl

/-- The exponents of canonical forms grow with the numbers, and so do the mantissas for one
exponent. -/
def unpackedRank? : UnpackedFloat → Option Rank
  | .notANumber => none
  | .infinity .negative => some (.of (-2) 0 0)
  | .finite .negative m e _ => some (.of (-1) (-e) (-m))
  | .zero _ => some (.of 0 0 0)
  | .finite .positive m e _ => some (.of 1 e m)
  | .infinity .positive => some (.of 2 0 0)

/-- The rank of a number; what is no number has none. -/
def rank? (x : Float) : Option Rank :=
  unpackedRank? x.toModel.unpack

theorem rank?_eq_none_iff {x : Float} : rank? x = none ↔ x.isNaN = true := by
  change unpackedRank? x.toModel.unpack = none ↔ x.toModel.unpack.isNaN = true
  rcases x.toModel.unpack with (_ | _) | _ | _ | ⟨_ | _, m, e, hm⟩ <;> simp [unpackedRank?, isNaN]

theorem rank?_isSome_iff {x : Float} : (rank? x).isSome = true ↔ x.isNaN = false := by
  rw [Option.isSome_iff_ne_none, Ne, rank?_eq_none_iff, Bool.not_eq_true]

/-! ## Comparisons -/

theorem compare_neg_neg (a b : Int) : compare (-a) (-b) = (compare a b).swap := by
  rcases lt_trichotomy a b with h | rfl | h
  · rw [Int.compare_eq_lt.2 h, Int.compare_eq_gt.2 (Int.neg_lt_neg h)]
    rfl
  · rw [Int.compare_eq_eq.2 rfl, Int.compare_eq_eq.2 rfl]
    rfl
  · rw [Int.compare_eq_gt.2 h, Int.compare_eq_lt.2 (Int.neg_lt_neg h)]
    rfl

theorem compare_natCast (m n : Nat) : compare (m : Int) n = compare m n := by
  rcases lt_trichotomy m n with h | rfl | h
  · rw [Nat.compare_eq_lt.2 h, Int.compare_eq_lt.2 (by omega)]
  · rw [Nat.compare_eq_eq.2 rfl, Int.compare_eq_eq.2 rfl]
  · rw [Nat.compare_eq_gt.2 h, Int.compare_eq_gt.2 (by omega)]

theorem compare_eq_rank (a b : UnpackedFloat) :
    a.compare b = (unpackedRank? a).bind fun r => (unpackedRank? b).map (cmp r) := by
  -- only of two finite numbers of one sign the exponents and the mantissas matter
  rcases a with (_ | _) | _ | _ | ⟨_ | _, m, e, hm⟩ <;>
    rcases b with (_ | _) | _ | _ | ⟨_ | _, m', e', hm'⟩ <;>
    simp only [unpackedRank?, UnpackedFloat.compare, Option.bind_none, Option.bind_some,
      Option.map_none, Option.map_some, Rank.cmp_of]
  case finite.negative.finite.negative =>
    rw [compare_neg_neg e e', compare_neg_neg m m', compare_natCast, Ordering.swap_then]
    rfl
  case finite.positive.finite.positive =>
    rw [compare_natCast]
    rfl
  all_goals rfl

section Doubles

variable {x y : Float} {r s : Rank}

theorem lt_iff_compare : x < y ↔ x.toModel.unpack.compare y.toModel.unpack = some .lt := by
  have compares : x < y ↔ (x.toModel.unpack.lt y.toModel.unpack) = true := decide_eq_true_iff
  rw [compares, UnpackedFloat.lt, beq_iff_eq]

theorem beq_iff_compare :
    (x == y) = true ↔ x.toModel.unpack.compare y.toModel.unpack = some .eq := by
  change (x.toModel.unpack.beq y.toModel.unpack) = true ↔ _
  rw [UnpackedFloat.beq, beq_iff_eq]

theorem lt_iff_rank (hx : rank? x = some r) (hy : rank? y = some s) : x < y ↔ r < s := by
  rw [lt_iff_compare, compare_eq_rank, show unpackedRank? _ = _ from hx,
    show unpackedRank? _ = _ from hy]
  simp

theorem beq_iff_rank (hx : rank? x = some r) (hy : rank? y = some s) : (x == y) = true ↔ r = s := by
  rw [beq_iff_compare, compare_eq_rank, show unpackedRank? _ = _ from hx,
    show unpackedRank? _ = _ from hy]
  simp

/-- What is not a number is neither less than nor equal to anything. -/
theorem compare_of_rank_none (h : rank? x = none ∨ rank? y = none) :
    x.toModel.unpack.compare y.toModel.unpack = none := by
  rw [compare_eq_rank]
  rcases h with h | h
  · rw [show unpackedRank? _ = _ from h]
    rfl
  · rw [show unpackedRank? y.toModel.unpack = _ from h]
    cases unpackedRank? x.toModel.unpack <;> rfl

end Doubles

end StaticSite
