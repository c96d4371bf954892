import StaticSite.Proofs.Decimal.Order
import StaticSite.Template.Date

/-!
# The order of dates

Dates compare by year, then month, then day. A comparison is mirrored when its sides change places,
whatever the fields hold (`Value.ordering_swap`, `DateFields.ordering_swap`); for fields that are
numbers it compares ranks, and so is a linear order of the numbers (`NumberDate.ordering_eq_cmp`).
`compareTo_orders` says both of the signs that pages see, and which values are no dates to compare
with.
-/

namespace StaticSite.Template

/-! ## Values -/

namespace Value

theorem compareNumbers_of_rank_none {x y : Float} (h : rank? x = none ∨ rank? y = none) :
    compareNumbers x y = none := by
  simp [compareNumbers, lt_iff_compare, beq_iff_compare, compare_of_rank_none h,
    compare_of_rank_none h.symm]

/-- Numbers compare as their ranks do. -/
theorem compareNumbers_eq_rank (x y : Float) :
    compareNumbers x y = (rank? x).bind fun r => (rank? y).map (cmp r) := by
  rcases hx : rank? x with _ | r
  · exact compareNumbers_of_rank_none (.inl hx)
  rcases hy : rank? y with _ | s
  · exact compareNumbers_of_rank_none (.inr hy)
  simp only [compareNumbers, lt_iff_rank hx hy, lt_iff_rank hy hx, beq_iff_rank hx hy,
    Option.bind_some, Option.map_some]
  rcases lt_trichotomy r s with h | h | h
  · rw [if_pos h, h.cmp_eq_lt]
  · rw [if_neg h.not_lt, if_neg h.not_gt, if_pos h, h.cmp_eq_eq]
  · rw [if_neg h.not_gt, if_pos h, h.cmp_eq_gt]

/-- The order of two values; values without one count as equal. -/
def ordering (v w : Value) : Ordering :=
  (compare v w).getD .eq

theorem compare_of_not_strings {v w : Value} (h : ¬ ∃ s t, v = string s ∧ w = string t) :
    compare v w = compareNumbers v.toNumber w.toNumber := by
  unfold compare
  split
  · exact absurd ⟨_, _, rfl, rfl⟩ h
  · rfl

theorem compareNumbers_swap (x y : Float) :
    compareNumbers y x = (compareNumbers x y).map Ordering.swap := by
  rw [compareNumbers_eq_rank, compareNumbers_eq_rank]
  cases rank? x <;> cases rank? y <;> simp

theorem compareText_swap (s t : String) :
    compareOfLessAndEq t s = (compareOfLessAndEq s t).swap :=
  compareOfLessAndEq_eq_swap String.le_antisymm String.le_total String.not_le

theorem ordering_swap (v w : Value) : w.ordering v = (v.ordering w).swap := by
  by_cases strings : ∃ s t, v = string s ∧ w = string t
  · obtain ⟨s, t, rfl, rfl⟩ := strings
    exact compareText_swap s t
  have mirrored : ¬ ∃ s t, w = string s ∧ v = string t :=
    fun ⟨s, t, hw, hv⟩ => strings ⟨t, s, hv, hw⟩
  rw [ordering, ordering, compare_of_not_strings strings, compare_of_not_strings mirrored,
    compareNumbers_swap]
  cases compareNumbers v.toNumber w.toNumber <;> rfl

end Value

/-! ## Dates -/

/-- What a date holds. -/
structure DateFields where
  year : Value
  month : Value
  day : Value

namespace DateFields

variable (a b : DateFields)

/-- A date as a value. -/
def value (ref : Nat) : Value :=
  .date ref a.year a.month a.day

/-- The answer of the method that compares a date with a value. -/
def compareTo (other : Value) : Except Fault Float :=
  compareDates a.year a.month a.day other

/-- Lexicographic, by year, month and day. -/
def ordering : Ordering :=
  (a.year.ordering b.year).then ((a.month.ordering b.month).then (a.day.ordering b.day))

theorem ordering_swap : b.ordering a = (a.ordering b).swap := by
  simp only [ordering, Ordering.swap_then, Value.ordering_swap a.year b.year,
    Value.ordering_swap a.month b.month, Value.ordering_swap a.day b.day]

end DateFields

/-- The numbers that stand for the three outcomes of a comparison. -/
def signOf : Ordering → Float
  | .lt => -1.0
  | .eq => 0.0
  | .gt => 1.0

theorem compareFields_cons {other v : Value} {name : String} {mine : Value}
    {rest : List (String × Value)} (h : other.property name = .ok v) :
    compareFields other ((name, mine) :: rest) =
      match mine.ordering v with
      | .lt => .ok (signOf .lt)
      | .eq => compareFields other rest
      | .gt => .ok (signOf .gt) := by
  rw [compareFields, h, Value.ordering]
  dsimp only [bind, Except.bind]
  rcases Value.compare mine v with _ | _ | _ | _ <;> rfl

namespace DateFields

theorem compareTo_value (a b : DateFields) (ref : Nat) :
    a.compareTo (b.value ref) = .ok (signOf (a.ordering b)) := by
  rw [compareTo, compareDates, compareFields_cons (v := b.year) rfl,
    compareFields_cons (v := b.month) rfl, compareFields_cons (v := b.day) rfl, ordering]
  cases a.year.ordering b.year <;> cases a.month.ordering b.month <;>
    cases a.day.ordering b.day <;> rfl

/-- Only undefined and null have no properties to compare with. -/
theorem compareTo_isOk_iff (a : DateFields) (other : Value) :
    (∃ x, a.compareTo other = .ok x) ↔ other.isNullish = false := by
  constructor
  · rintro ⟨x, answers⟩
    cases other with
    | undefined | null => nomatch answers
    | _ => rfl
  · intro readable
    have reads : ∀ name, ∃ v, other.property name = .ok v := by
      intro name
      cases other with
      | undefined | null => nomatch readable
      | _ => exact ⟨_, rfl⟩
    obtain ⟨year, hyear⟩ := reads "year"
    obtain ⟨month, hmonth⟩ := reads "month"
    obtain ⟨day, hday⟩ := reads "day"
    rw [compareTo, compareDates, compareFields_cons hyear, compareFields_cons hmonth,
      compareFields_cons hday]
    cases a.year.ordering year <;> cases a.month.ordering month <;>
      cases a.day.ordering day <;> exact ⟨_, rfl⟩

end DateFields

/-! ## Dates of numbers -/

/-- A double that is a number. -/
structure Number where
  toFloat : Float
  isNumber : toFloat.isNaN = false

namespace Number

variable (x y : Number)

theorem rank?_isSome : (rank? x.toFloat).isSome = true :=
  rank?_isSome_iff.2 x.isNumber

/-- The rank of a number. -/
def rank : Rank :=
  (rank? x.toFloat).get x.rank?_isSome

theorem rank?_toFloat : rank? x.toFloat = some x.rank :=
  (Option.some_get _).symm

theorem lt_iff : x.toFloat < y.toFloat ↔ x.rank < y.rank :=
  lt_iff_rank x.rank?_toFloat y.rank?_toFloat

theorem beq_iff : (x.toFloat == y.toFloat) = true ↔ x.rank = y.rank :=
  beq_iff_rank x.rank?_toFloat y.rank?_toFloat

theorem ordering_eq_cmp :
    (Value.number x.toFloat).ordering (.number y.toFloat) = cmp x.rank y.rank := by
  change (Value.compareNumbers x.toFloat y.toFloat).getD .eq = _
  rw [Value.compareNumbers_eq_rank, rank?_toFloat, rank?_toFloat]
  rfl

end Number

/-- A date whose fields are numbers. -/
structure NumberDate where
  year : Number
  month : Number
  day : Number

namespace NumberDate

variable (a b c : NumberDate)

/-- The fields of a date of numbers. -/
def fields : DateFields :=
  ⟨.number a.year.toFloat, .number a.month.toFloat, .number a.day.toFloat⟩

/-- The lexicographic order of years, months and days. -/
def Precedes : Prop :=
  a.year.toFloat < b.year.toFloat ∨ (a.year.toFloat == b.year.toFloat) = true ∧
    (a.month.toFloat < b.month.toFloat ∨ (a.month.toFloat == b.month.toFloat) = true ∧
      a.day.toFloat < b.day.toFloat)

/-- Two dates whose numbers are equal one by one. -/
def SameNumbers : Prop :=
  (a.year.toFloat == b.year.toFloat) = true ∧ (a.month.toFloat == b.month.toFloat) = true ∧
    (a.day.toFloat == b.day.toFloat) = true

/-- The comparison answers that the first date does not come after the second. -/
def AtMost : Prop :=
  ∀ ref, ∃ x, a.fields.compareTo (b.fields.value ref) = .ok x ∧ x ≤ 0.0

/-- The ranks of the year, the month and the day. -/
def rank : Rank ×ₗ Rank ×ₗ Rank :=
  toLex (a.year.rank, toLex (a.month.rank, a.day.rank))

theorem ordering_eq_cmp : a.fields.ordering b.fields = cmp a.rank b.rank := by
  rw [cmp_eq_compare, DateFields.ordering]
  simp only [fields, Number.ordering_eq_cmp, cmp_eq_compare]
  rfl

theorem precedes_iff : a.Precedes b ↔ a.rank < b.rank := by
  simp only [Precedes, rank, Prod.Lex.toLex_lt_toLex, Number.lt_iff, Number.beq_iff]

theorem sameNumbers_iff : a.SameNumbers b ↔ a.rank = b.rank := by
  simp only [SameNumbers, rank, Number.beq_iff, EmbeddingLike.apply_eq_iff_eq, Prod.mk.injEq]

theorem atMost_iff : a.AtMost b ↔ a.rank ≤ b.rank := by
  have sign (o : Ordering) : signOf o ≤ 0.0 ↔ o ≠ .gt := by
    cases o <;> decide +kernel
  simp only [AtMost, DateFields.compareTo_value, Except.ok.injEq, exists_eq_left', sign,
    ordering_eq_cmp, forall_const, ne_eq, cmp_eq_gt_iff, not_lt]

end NumberDate

/-! ## The signs of a comparison -/

/-- The outcome that a sign stands for. -/
def outcomeOf (x : Float) : Ordering :=
  if x < 0.0 then .lt else if 0.0 < x then .gt else .eq

theorem outcomeOf_signOf (o : Ordering) : outcomeOf (signOf o) = o := by
  cases o <;> decide +kernel

theorem signOf_injective : Function.Injective signOf :=
  Function.LeftInverse.injective outcomeOf_signOf

theorem signOf_swap (o : Ordering) : (signOf o == -signOf o.swap) = true := by
  cases o <;> decide +kernel

/-- Comparisons of dates are mirrored, order dates of numbers by year, month and day, and fail for
undefined and null only. -/
theorem compareTo_orders :
    (∀ (a b : DateFields) (ref ref' : Nat), ∃ x y,
      a.compareTo (b.value ref) = .ok x ∧ b.compareTo (a.value ref') = .ok y ∧ (x == -y) = true) ∧
    (∀ (a b : NumberDate) (ref : Nat),
      (a.fields.compareTo (b.fields.value ref) = .ok (-1.0) ↔ a.Precedes b) ∧
      (a.fields.compareTo (b.fields.value ref) = .ok 0.0 ↔ a.SameNumbers b) ∧
      (a.fields.compareTo (b.fields.value ref) = .ok 1.0 ↔ b.Precedes a) ∧
      (a.Precedes b ∨ a.SameNumbers b ∨ b.Precedes a)) ∧
    (∀ a b : NumberDate, a.AtMost b ∨ b.AtMost a) ∧
    (∀ a b c : NumberDate, a.AtMost b → b.AtMost c → a.AtMost c) ∧
    (∀ (a : DateFields) (other : Value),
      (∃ x, a.compareTo other = .ok x) ↔ other.isNullish = false) := by
  refine ⟨fun a b ref ref' => ?mirrored, fun a b ref => ?lexicographic, fun a b => ?total,
    fun a b c => ?transitive, DateFields.compareTo_isOk_iff⟩
  case mirrored =>
    refine ⟨_, _, a.compareTo_value b ref, b.compareTo_value a ref', ?_⟩
    rw [DateFields.ordering_swap a b]
    exact signOf_swap _
  case lexicographic =>
    have answers (o : Ordering) :
        a.fields.compareTo (b.fields.value ref) = .ok (signOf o) ↔ cmp a.rank b.rank = o := by
      rw [DateFields.compareTo_value, NumberDate.ordering_eq_cmp, Except.ok.injEq,
        signOf_injective.eq_iff]
    rw [NumberDate.precedes_iff, NumberDate.precedes_iff, NumberDate.sameNumbers_iff]
    refine ⟨?_, ?_, ?_, lt_trichotomy _ _⟩
    · exact (answers .lt).trans (cmp_eq_lt_iff _ _)
    · exact (answers .eq).trans (cmp_eq_eq_iff _ _)
    · exact (answers .gt).trans (cmp_eq_gt_iff _ _)
  case total =>
    rw [NumberDate.atMost_iff, NumberDate.atMost_iff]
    exact le_total _ _
  case transitive =>
    rw [NumberDate.atMost_iff, NumberDate.atMost_iff, NumberDate.atMost_iff]
    exact le_trans

/-- The date of three whole numbers. -/
def wholeDate (year month day : Nat) (h : (Float.ofNat year).isNaN = false ∧
    (Float.ofNat month).isNaN = false ∧ (Float.ofNat day).isNaN = false) : NumberDate :=
  ⟨⟨_, h.1⟩, ⟨_, h.2.1⟩, ⟨_, h.2.2⟩⟩

/-- Three days of two years, and a date of a text, of no value and of an empty array. -/
theorem compareTo_orders_of_days :
    let first := wholeDate 1402 5 3 (by decide +kernel)
    let second := wholeDate 1402 12 1 (by decide +kernel)
    let third := wholeDate 1403 1 1 (by decide +kernel)
    let odd : DateFields := ⟨.string "1402", .undefined, .array 7 []⟩
    (first.AtMost second ∧ second.AtMost third ∧ first.AtMost third) ∧
      ∃ x y, odd.compareTo (first.fields.value 1) = .ok x ∧
        first.fields.compareTo (odd.value 2) = .ok y ∧ (x == -y) = true := by
  intro first second third odd
  obtain ⟨mirrored, lexicographic, -, transitive, -⟩ := compareTo_orders
  have atMost {a b : NumberDate} (h : a.Precedes b) : a.AtMost b := fun ref =>
    ⟨-1.0, (lexicographic a b ref).1.2 h, by decide +kernel⟩
  have summer : first.Precedes second := .inr ⟨by decide +kernel, .inl (by decide +kernel)⟩
  have spring : second.Precedes third := .inl (by decide +kernel)
  exact ⟨⟨atMost summer, atMost spring, transitive _ _ _ (atMost summer) (atMost spring)⟩,
    mirrored odd first.fields 1 2⟩

end StaticSite.Template
