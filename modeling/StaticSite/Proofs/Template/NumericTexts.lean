import StaticSite.Proofs.Decimal.Numerals
import StaticSite.Proofs.Template.DateOrder
import StaticSite.Template.Eval

/-!
# Texts taken as numbers

Operators that need numbers, and the function `Number`, convert their operands first, so a text is
fit for all of them or for none (`TakesNumber`, `takesNumber_iff`). Blank texts are fit, and those
that the reader of doubles takes. These are the texts that page scripts take as numbers, but for
integers behind a mark for their base, which are not fit, and for infinity in another spelling,
which is (`texts_taken_as_numbers`).
-/

namespace StaticSite.Template

open Decimal

/-! ## Values that are numbers -/

/-- The text without the blanks at its ends. -/
def trimmed (s : String) : List Char :=
  Text.trim s.toList

namespace Value

/-- Converting the value gives a number. -/
def IsNumber (v : Value) : Prop :=
  v.toNumber.isNaN = false

theorem isNumber_string_iff (s : String) : (string s).IsNumber ↔
    trimmed s = [] ∨ IsNumeric (trimmed s) ∧ ¬ IsRadixInteger (trimmed s) ∨
    IsOtherInfinity (trimmed s) := by
  rw [← float?_isNumber_iff_isNumeric]
  change (numberOfText s).isNaN = false ↔ _
  unfold numberOfText trimmed
  dsimp only
  generalize Text.trim s.toList = t
  split_ifs with blank
  · exact iff_of_true (by decide +kernel) (.inl blank)
  rw [or_iff_right blank]
  rcases float? t with _ | x
  · have hnan : notANumber.isNaN ≠ false := by decide +kernel
    exact iff_of_false hnan (by simp)
  · simp only [Option.getD_some, Option.some.injEq, exists_eq_left']

end Value

/-! ## Arithmetic -/

namespace BinaryOp

/-- The operators that yield a double whatever their operands are. -/
inductive IsArithmetic : BinaryOp → Prop
  | sub : IsArithmetic .sub
  | mul : IsArithmetic .mul
  | div : IsArithmetic .div
  | rem : IsArithmetic .rem

/-- Whether two numbers have no difference, product, quotient or remainder. -/
def isUndefinedAt (op : BinaryOp) (x y : Float) : Bool :=
  match op with
  | .sub => x.isInf && x == y
  | .mul => x == 0.0 && y.isInf || x.isInf && y == 0.0
  | .div => x == 0.0 && y == 0.0 || x.isInf && y.isInf
  | .rem => x.isInf || y == 0.0
  | _ => false

theorem IsArithmetic.isNaN_apply {op : BinaryOp} (h : op.IsArithmetic) (a b : Value) :
    ∃ x, op.apply a b = .number x ∧ x.isNaN =
      (a.toNumber.isNaN || b.toNumber.isNaN || op.isUndefinedAt a.toNumber b.toNumber) := by
  cases h with
  | sub => exact ⟨_, rfl, isNaN_sub ..⟩
  | mul => exact ⟨_, rfl, isNaN_mul ..⟩
  | div => exact ⟨_, rfl, isNaN_div ..⟩
  | rem => exact ⟨_, rfl, isNaN_rem ..⟩

/-- The result is a number exactly if both operands are and the operator is defined there. -/
theorem IsArithmetic.apply_isNumber {op : BinaryOp} (h : op.IsArithmetic) (a b : Value) :
    ∃ x, op.apply a b = .number x ∧
      (x.isNaN = false ↔ a.IsNumber ∧ b.IsNumber ∧
        op.isUndefinedAt a.toNumber b.toNumber = false) := by
  obtain ⟨x, hx, hnan⟩ := h.isNaN_apply a b
  refine ⟨x, hx, ?_⟩
  rw [hnan, Bool.or_eq_false_iff, Bool.or_eq_false_iff, and_assoc]
  rfl

/-! ## Comparisons -/

/-- A comparison of numbers and the one that holds otherwise. -/
inductive Opposes : BinaryOp → BinaryOp → Prop
  | lt_ge : Opposes .lt .ge
  | ge_lt : Opposes .ge .lt
  | gt_le : Opposes .gt .le
  | le_gt : Opposes .le .gt

end BinaryOp

namespace Value

theorem compareNumbers_isSome_iff {x y : Float} :
    (compareNumbers x y).isSome = true ↔ x.isNaN = false ∧ y.isNaN = false := by
  rw [compareNumbers_eq_rank, ← rank?_isSome_iff, ← rank?_isSome_iff]
  cases rank? x <;> cases rank? y <;> simp

theorem compare_isSome_iff {a b : Value} (h : ¬ ∃ s t, a = string s ∧ b = string t) :
    (compare a b).isSome = true ↔ a.IsNumber ∧ b.IsNumber := by
  rw [compare_of_not_strings h]
  exact compareNumbers_isSome_iff

end Value

/-- One of two opposite comparisons holds exactly if there is an order. -/
theorem BinaryOp.Opposes.apply_iff {op op' : BinaryOp} (h : op.Opposes op') (a b : Value) :
    (op.apply a b = .bool true ∨ op'.apply a b = .bool true) ↔
    (Value.compare a b).isSome = true := by
  cases h <;> unfold BinaryOp.apply <;> rcases Value.compare a b with _ | _ | _ | _ <;> simp

/-! ## Equality -/

namespace Value

theorem looseEq_of_comparesNumbers {a b : Value} (h : comparesNumbers a b = true) :
    a.looseEq b = (a.toNumber == b.toNumber) := by
  unfold comparesNumbers at h
  split at h
  case h_7 => cases h
  all_goals rfl

theorem equals_iff_beq {a b : Value} (h : comparesNumbers a b = true) :
    BinaryOp.eq.apply a b = .bool true ↔ (a.toNumber == b.toNumber) = true := by
  rw [← looseEq_of_comparesNumbers h, BinaryOp.apply, bool.injEq]

/-- What is not a number equals nothing. -/
theorem isNumber_of_equals {a b : Value} (h : comparesNumbers a b = true)
    (heq : BinaryOp.eq.apply a b = .bool true) : a.IsNumber ∧ b.IsNumber := by
  have same := (equals_iff_beq h).1 heq
  have related : (compareNumbers a.toNumber b.toNumber).isSome = true := by
    unfold compareNumbers
    split_ifs <;> rfl
  exact compareNumbers_isSome_iff.1 related

theorem IsNumber.equals {a b : Value} (ha : a.IsNumber) (h : comparesNumbers a b = true)
    (same : a.toNumber = b.toNumber) : BinaryOp.eq.apply a b = .bool true := by
  obtain ⟨r, hr⟩ := Option.isSome_iff_exists.1 (rank?_isSome_iff.2 ha)
  exact (equals_iff_beq h).2 ((beq_iff_rank hr (same ▸ hr)).2 rfl)

end Value

/-! ## Texts where numbers are needed -/

/-- Whatever needs a number takes one from the text exactly if the text is accepted. -/
structure TakesNumber (s : String) (accepted : Prop) : Prop where
  converts : (Value.string s).toNumber.isNaN = true ↔ ¬ accepted
  function : ∃ x, callGlobal "Number" [.value (.string s)] = pure (.number x) ∧
    (x.isNaN = false ↔ accepted)
  plus : ∃ x, UnaryOp.plus.apply (.string s) = .number x ∧ (x.isNaN = false ↔ accepted)
  arithmetic {op : BinaryOp} (v : Value) : op.IsArithmetic →
    ∃ x, op.apply (.string s) v = .number x ∧
    (x.isNaN = false ↔
      accepted ∧ v.IsNumber ∧ op.isUndefinedAt (Value.string s).toNumber v.toNumber = false)
  arithmetic_right {op : BinaryOp} (v : Value) :
    op.IsArithmetic → ∃ x, op.apply v (.string s) = .number x ∧
    (x.isNaN = false ↔
      v.IsNumber ∧ accepted ∧ op.isUndefinedAt v.toNumber (Value.string s).toNumber = false)
  compares {op op' : BinaryOp} {v : Value} : op.Opposes op' → v.asString? = none →
    ((op.apply (.string s) v = .bool true ∨ op'.apply (.string s) v = .bool true) ↔
      accepted ∧ v.IsNumber)
  compares_right {op op' : BinaryOp} {v : Value} : op.Opposes op' → v.asString? = none →
    ((op.apply v (.string s) = .bool true ∨ op'.apply v (.string s) = .bool true) ↔
      v.IsNumber ∧ accepted)
  equals : (∃ v, Value.comparesNumbers (.string s) v = true ∧
    BinaryOp.eq.apply (.string s) v = .bool true) ↔ accepted
  equals_right : (∃ v, Value.comparesNumbers v (.string s) = true ∧
    BinaryOp.eq.apply v (.string s) = .bool true) ↔ accepted

/-- The conversion decides for all of them. -/
theorem takesNumber_iff {s : String} {accepted : Prop} :
    TakesNumber s accepted ↔ ((Value.string s).IsNumber ↔ accepted) := by
  have negated : (Value.string s).toNumber.isNaN = true ↔ ¬ (Value.string s).IsNumber := by
    rw [Value.IsNumber, Bool.not_eq_false]
  constructor
  · intro h
    exact not_iff_not.1 (negated.symm.trans h.converts)
  intro accepts
  have notText {v : Value} (h : v.asString? = none) (t : String) : v ≠ .string t := by
    rintro rfl
    cases h
  exact {
    converts := negated.trans (not_congr accepts)
    function := ⟨_, rfl, accepts⟩
    plus := ⟨_, rfl, accepts⟩
    arithmetic v h := by simpa only [accepts] using h.apply_isNumber (.string s) v
    arithmetic_right v h := by simpa only [accepts] using h.apply_isNumber v (.string s)
    compares h hv := by
      rw [h.apply_iff, Value.compare_isSome_iff fun ⟨_, t, _, ht⟩ => notText hv t ht, accepts]
    compares_right h hv := by
      rw [h.apply_iff, Value.compare_isSome_iff fun ⟨t, _, ht, _⟩ => notText hv t ht, accepts]
    equals := by
      rw [← accepts]
      constructor
      · rintro ⟨v, hv, h⟩
        exact (Value.isNumber_of_equals hv h).1
      · intro h
        exact ⟨.number (Value.string s).toNumber, rfl, h.equals rfl rfl⟩
    equals_right := by
      rw [← accepts]
      constructor
      · rintro ⟨v, hv, h⟩
        exact (Value.isNumber_of_equals hv h).2
      · intro h
        exact ⟨.number (Value.string s).toNumber, rfl, Value.IsNumber.equals h rfl rfl⟩ }

/-- Operators take numbers from blank texts and from those that page scripts take as numbers exactly
if the text is no integer behind a mark and no infinity in another spelling. -/
theorem texts_taken_as_numbers (s : String) :
    TakesNumber s (trimmed s = [] ∨ IsNumeric (trimmed s) ∧ ¬ IsRadixInteger (trimmed s) ∨
        IsOtherInfinity (trimmed s)) ∧
      (TakesNumber s (trimmed s = [] ∨ IsNumeric (trimmed s)) ↔
        ¬ IsRadixInteger (trimmed s) ∧ ¬ IsOtherInfinity (trimmed s)) := by
  have accepts := Value.isNumber_string_iff s
  refine ⟨takesNumber_iff.2 accepts, ?_⟩
  rw [takesNumber_iff, accepts]
  have marked : IsRadixInteger (trimmed s) → trimmed s ≠ [] ∧ IsNumeric (trimmed s) :=
    fun h => ⟨h.ne_nil, .integer h⟩
  have other : IsOtherInfinity (trimmed s) → trimmed s ≠ [] ∧ ¬ IsNumeric (trimmed s) :=
    fun h => ⟨h.ne_nil, not_isNumeric_of_isOtherInfinity h⟩
  tauto

/-- An abbreviated infinity is taken as a number and a hexadecimal integer is not. -/
theorem texts_taken_as_numbers_differ :
    (¬ ((Value.string "inf").toNumber.isNaN = true ↔
        trimmed "inf" ≠ [] ∧ ¬ IsNumeric (trimmed "inf"))) ∧
      ¬ ((Value.string "0x10").toNumber.isNaN = true ↔
        trimmed "0x10" ≠ [] ∧ ¬ IsNumeric (trimmed "0x10")) := by
  have abbreviated : ¬ IsNumeric "inf".toList :=
    not_isNumeric_of_isOtherInfinity ⟨[], _, .absent, .inl (by decide), by decide, rfl⟩
  have hexadecimal : IsNumeric "0x10".toList :=
    .integer ⟨.hexadecimal, 'x', ['1', '0'], by decide, by decide, List.all_eq_true.1 rfl, rfl⟩
  constructor
  · intro h
    exact absurd (h.2 ⟨by decide, abbreviated⟩) (by decide +kernel)
  · intro h
    exact (h.1 (by decide +kernel)).2 hexadecimal

end StaticSite.Template
