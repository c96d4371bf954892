import StaticSite.Proofs.Decimal.Integral
import StaticSite.Template.Method

/-!
# Positions in texts

Slices, characters and searches of a text go by the same positions, which count characters
(`positions_agree`). The bounds of a slice are doubles of any kind, of which those that are integers
set the bounds one expects; and the position that a search gives is one where a slice finds what was
searched for, and the first such one.
-/

namespace StaticSite

/-! ## Searching -/

namespace Text

theorem after?_eq_none_iff {p s : List Char} : after? p s = none ↔ ¬ p <+: s := by
  rw [← Option.not_isSome_iff_eq_none, Option.isSome_iff_exists]
  exact not_congr (exists_congr fun r => after?_eq_some_iff.trans eq_comm)

theorem splitFirst_eq_none_iff {p s : List Char} : splitFirst p s = none ↔ ¬ p <:+: s := by
  fun_induction splitFirst p s with
  | case1 hp => simp [hp]
  | case2 hp => simp [hp]
  | case3 c s r hr =>
    have hoccurs : p <:+: c :: s := after?_eq_some_iff.1 hr ▸ (List.prefix_append p r).isInfix
    simp [hoccurs]
  | case4 c s hnone ih =>
    rw [Option.map_eq_none_iff, ih, List.infix_cons_iff, or_iff_right (after?_eq_none_iff.1 hnone)]

/-- No occurrence starts before the first one. -/
theorem not_prefix_of_splitFirst {p s before rest : List Char}
    (h : splitFirst p s = some (before, rest)) : ∀ j < before.length, ¬ p <+: s.drop j := by
  fun_induction splitFirst p s generalizing before with
  | case1 => cases h; simp
  | case2 => cases h
  | case3 => cases h; simp
  | case4 c s hnone ih =>
    obtain ⟨⟨tail, r⟩, htail, he⟩ := Option.map_eq_some_iff.1 h
    cases he
    intro j hj
    cases j with
    | zero => exact after?_eq_none_iff.1 hnone
    | succ j => exact ih htail j (Nat.lt_of_succ_lt_succ hj)

end Text

namespace Template

open Arg

/-! ## Slices -/

/-- The bound that an integer sets in a text of `length` characters: a negative one counts from the
end. -/
def boundAt (length : Nat) (n : Int) : Nat :=
  if n < 0 then (length + n).toNat else min n.toNat length

theorem boundAt_natCast {length i : Nat} (h : i ≤ length) : boundAt length i = i := by
  rw [boundAt, if_neg (Int.not_lt.2 (Int.natCast_nonneg i)), Int.toNat_natCast, Nat.min_eq_left h]

theorem slice_eq_extract {α : Type} (items : List α) (start stop : Value) :
    slice items start stop =
      items.extract (sliceBound items.length 0 start)
        (sliceBound items.length items.length stop) := by
  rw [slice, List.drop_take, List.extract_eq_take_drop]

theorem isUndefined_of_standsFor {v : Value} {n : Int} (h : StandsFor v.toNumber n) :
    v.isUndefined = false := by
  cases v with
  | undefined =>
    have := h.isIntegral
    exact absurd this (by decide +kernel)
  | _ => rfl

/-- Bounds of slices are those of the integers, as long as counts are large enough. -/
theorem sliceBound_of_standsFor {length : Nat} (hlt : length < twoTo 64) (missing : Nat) {v : Value}
    {n : Int} (h : StandsFor v.toNumber n) : sliceBound length missing v = boundAt length n := by
  have hgreatest : Double.greatestCount = 2 ^ 64 - 1 := rfl
  have hlt : length < 2 ^ 64 := hlt
  unfold sliceBound boundAt
  simp only [isUndefined_of_standsFor h, Bool.false_eq_true, if_false, h.isNaN, h.lt_zero_iff]
  split
  · rw [h.neg.toCount]
    omega
  · rw [h.toCount]
    omega

theorem sliceBound_zero (length missing : Nat) : sliceBound length missing (.number 0.0) = 0 := by
  have hzero : StandsFor (Value.number 0.0).toNumber 0 := .of_zero (.inl rfl)
  unfold sliceBound
  simp only [isUndefined_of_standsFor hzero, Bool.false_eq_true, if_false, hzero.isNaN,
    hzero.lt_zero_iff, hzero.toCount, lt_irrefl, Int.toNat_zero, Nat.zero_min]

/-- Which bound is missing makes no difference to one that is there. -/
theorem sliceBound_of_defined {v : Value} (h : v.isUndefined = false)
    (length missing missing' : Nat) :
    sliceBound length missing v = sliceBound length missing' v := by
  simp only [sliceBound, h, Bool.false_eq_true, if_false]

theorem sliceBound_undefined (length missing : Nat) :
    sliceBound length missing .undefined = missing :=
  rfl

/-- A method of a text gives a value, whatever the state, which it leaves alone. -/
def Gives (s name : String) (args : List Arg) (v : Value) : Prop :=
  ∀ st : State, (callMethod (.string s) name args).run.run st = (.ok v, st)

theorem Gives.slice (s : String) (args : List Arg) :
    Gives s "slice" args (textOf (Template.slice s.toList (valueAt args 0) (valueAt args 1))) :=
  fun _ => rfl

theorem Gives.includes (s t : String) : Gives s "includes" [.value (.string t)]
    (.bool (Text.occursIn t.toList s.toList)) :=
  fun _ => rfl

theorem Gives.indexOf (s t : String) : Gives s "indexOf" [.value (.string t)]
    (positionOf t.toList s.toList) :=
  fun _ => rfl

/-- A method gives one value. -/
theorem Gives.eq {s name : String} {args : List Arg} {v w : Value} (h : Gives s name args v)
    (h' : Gives s name args w) : v = w := by
  have he := (h ⟨.ofFrame [], 0, []⟩).symm.trans (h' ⟨.ofFrame [], 0, []⟩)
  cases he
  rfl

/-- Slices between bounds that are integers. -/
theorem Gives.slice_between {s : String} (hlt : s.length < twoTo 64) {v w : Value} {a b : Int}
    (hv : StandsFor v.toNumber a) (hw : StandsFor w.toNumber b) :
    Gives s "slice" [.value v, .value w]
      (textOf (s.toList.extract (boundAt s.length a) (boundAt s.length b))) := by
  rw [← s.length_toList] at hlt ⊢
  rw [← sliceBound_of_standsFor hlt 0 hv, ← sliceBound_of_standsFor hlt s.toList.length hw,
    ← slice_eq_extract]
  exact Gives.slice s [.value v, .value w]

/-! ## Occurrences -/

/-- A text has another one at the position that a double is: the slice from there that is as long as
the other one is the other one. -/
def HasAt (s t : String) (x : Float) : Prop :=
  ∃ len, (Value.string t).property "length" = .ok len ∧
    Gives s "slice" [.value (.number x), .value ((Value.number x).add len)] (.string t)

theorem hasAt_iff {s t : String} (hlt : s.length < twoTo 53) {x : Float} {i : Nat}
    (hx : StandsFor x i)
    (hi : i + t.length ≤ s.length) : HasAt s t x ↔ t.toList <+: s.toList.drop i := by
  have hlen : StandsFor (x + Float.ofNat t.length) (i + t.length : Nat) :=
    hx.add (.ofNat (by omega)) (by omega)
  have hgives : Gives s "slice"
      [.value (.number x), .value ((Value.number x).add (.number (Float.ofNat t.length)))]
      (textOf (s.toList.extract (boundAt s.length i) (boundAt s.length (i + t.length : Nat)))) :=
    Gives.slice_between (hlt.trans (by decide)) hx hlen
  rw [boundAt_natCast (by omega), boundAt_natCast hi, List.extract_eq_take_drop,
    Nat.add_sub_cancel_left] at hgives
  rw [List.prefix_iff_eq_take, String.length_toList]
  constructor
  · rintro ⟨len, hlength, h⟩
    obtain rfl : .number (Float.ofNat t.length) = len := by simpa [Value.property] using hlength
    have htext : t = String.ofList ((s.toList.drop i).take t.length) := by
      simpa [textOf] using h.eq hgives
    rw [← String.toList_ofList (l := (s.toList.drop i).take t.length), ← htext]
  · intro h
    refine ⟨.number (Float.ofNat t.length), rfl, ?_⟩
    rw [← h] at hgives
    simpa [textOf] using hgives

/-! ## One notion of position -/

/-- The answers of a search: whether there is an occurrence, and the position of the first one. -/
structure SearchAgrees (s t : String) (found : Bool) (p : Float) : Prop where
  includes : Gives s "includes" [.value (.string t)] (.bool found)
  indexOf : Gives s "indexOf" [.value (.string t)] (.number p)
  occurs : found = true ↔ t.toList <:+: s.toList
  found_iff : found = true ↔ (Value.number p).strictEq (.number (-1.0)) = false
  first : found = true → ∃ i : Nat, StandsFor p i ∧ HasAt s t p ∧
    ∀ j : Nat, j < i → ∀ y, StandsFor y j → ¬ HasAt s t y

/-- Slices, characters and searches of a text go by the same positions, which count characters.
Lengths are words of the machine, and doubles count up to `2^53`; what is longer is not held in
memory. -/
structure PositionsAgree (s t : String) : Prop where
  total : ∀ args : List Arg, ∃ text, Gives s "slice" args (.string text)
  between : s.length < twoTo 64 → ∀ (v w : Value) (a b : Int), StandsFor v.toNumber a →
    StandsFor w.toNumber b → Gives s "slice" [.value v, .value w]
      (textOf (s.toList.extract (boundAt s.length a) (boundAt s.length b)))
  cut : ∀ k : Value, k.isUndefined = false → ∃ first second,
    Gives s "slice" [.value (.number 0.0), .value k] first ∧ Gives s "slice" [.value k] second ∧
      first.add second = .string s
  character : s.length < twoTo 53 → ∀ (i : Nat) (x : Float), i < s.length → StandsFor x i →
    ∃ v, (Value.string s).index (.number x) = .ok v ∧
      Gives s "slice" [.value (.number x), .value ((Value.number x).add (.number 1.0))] v
  search : s.length < twoTo 53 → ∃ found p, SearchAgrees s t found p

theorem index_of_standsFor {s : String} {i : Nat} (hi : i < s.toList.length) {x : Float}
    (hx : StandsFor x i) :
    (Value.string s).index (.number x) = .ok (.string (String.singleton s.toList[i])) := by
  have hkey : positionOfKey? (.number x) = some i := by
    simp only [positionOfKey?, hx.zero_le_iff, hx.isIntegral, hx.truncate, Int.natCast_nonneg,
      and_self, if_true, Int.toNat_natCast]
  simp only [Value.index, hkey, Value.charAt?, List.getElem?_eq_getElem hi, Option.map_some,
    Option.getD_some]

theorem search_none {s t : String} (h : Text.splitFirst t.toList s.toList = none) :
    SearchAgrees s t false (-1.0) where
  includes := by
    have hincludes := Gives.includes s t
    rwa [Text.occursIn, h] at hincludes
  indexOf := by
    have hindexOf := Gives.indexOf s t
    rwa [positionOf, h] at hindexOf
  occurs := iff_of_false nofun (Text.splitFirst_eq_none_iff.1 h)
  found_iff := by
    have hsame : (Value.number (-1.0)).strictEq (.number (-1.0)) = true := by decide +kernel
    simp [hsame]
  first hfound := nomatch hfound

section Found

variable {s t : String} {before rest : List Char}

theorem length_of_splitFirst (h : Text.splitFirst t.toList s.toList = some (before, rest)) :
    before.length + t.length + rest.length = s.length := by
  have hs := Text.eq_of_splitFirst h
  rw [← s.length_toList, ← t.length_toList, hs, List.length_append, List.length_append]

theorem search_some (hlt : s.length < twoTo 53)
    (h : Text.splitFirst t.toList s.toList = some (before, rest)) :
    SearchAgrees s t true (Float.ofNat before.length) :=
  have hlength := length_of_splitFirst h
  have hp : StandsFor (Float.ofNat before.length) before.length := .ofNat (by omega)
  { includes := by
      have hincludes := Gives.includes s t
      rwa [Text.occursIn, h] at hincludes
    indexOf := by
      have hindexOf := Gives.indexOf s t
      rwa [positionOf, h] at hindexOf
    occurs := iff_of_true rfl ⟨before, rest, (Text.eq_of_splitFirst h).symm⟩
    found_iff := iff_of_true rfl (hp.beq_negOne (Int.natCast_nonneg _))
    first := fun _ => by
      refine ⟨before.length, hp, ?_, fun j hj y hy => ?_⟩
      · rw [hasAt_iff hlt hp (by omega), Text.eq_of_splitFirst h, List.append_assoc, List.drop_left]
        exact List.prefix_append _ _
      · rw [hasAt_iff hlt hy (by omega)]
        exact Text.not_prefix_of_splitFirst h j hj }

end Found

theorem positions_agree (s t : String) : PositionsAgree s t where
  total args := ⟨_, .slice s args⟩
  between hlt v w a b hv hw := .slice_between hlt hv hw
  cut k hk := by
    refine ⟨_, _, .slice s _, .slice s _, ?_⟩
    have hbound := sliceBound_of_defined hk s.toList.length 0 s.toList.length
    simp only [Template.slice, valueAt, List.getElem?_cons_zero, List.getElem?_cons_succ,
      List.getElem?_nil, sliceBound_zero, sliceBound_undefined, hbound, List.drop_zero,
        List.take_length]
    simp [textOf, Value.add, Value.concatenates, Value.toText, ← String.ofList_append]
  character hlt i x hi hx := by
    have hnext : StandsFor (x + 1.0) (i + 1 : Nat) := hx.add (b := 1) .one (by omega)
    have hgives : Gives s "slice" [.value (.number x), .value ((Value.number x).add (.number 1.0))]
        (textOf (s.toList.extract (boundAt s.length i) (boundAt s.length (i + 1 : Nat)))) :=
      .slice_between (hlt.trans (by decide)) hx hnext
    have hi' : i < s.toList.length := by rwa [String.length_toList]
    rw [boundAt_natCast hi.le, boundAt_natCast hi, List.extract_eq_take_drop, Nat.succ_sub le_rfl,
      Nat.sub_self, List.drop_eq_getElem_cons hi', List.take_succ_cons, List.take_zero] at hgives
    exact ⟨_, index_of_standsFor hi' hx, hgives⟩
  search hlt := by
    cases h : Text.splitFirst t.toList s.toList with
    | none => exact ⟨_, _, search_none h⟩
    | some split => exact ⟨_, _, search_some hlt h⟩

/-- Positions count characters, however many bytes these have. -/
theorem positions_agree_accents : PositionsAgree "añ€a" "€a" ∧
    Gives "añ€a" "slice" [.value (.number (Float.ofInt (-3))), .value (.number (Float.ofNat 99))]
      (.string "ñ€a") ∧
    ∃ found p, SearchAgrees "añ€a" "€a" found p :=
  have h := positions_agree "añ€a" "€a"
  have hstart : StandsFor (Value.number (Float.ofInt (-3))).toNumber (-3) := .ofInt (by decide)
  have hstop : StandsFor (Value.number (Float.ofNat 99)).toNumber (99 : Nat) := .ofNat (by decide)
  ⟨h, h.between (by decide) _ _ (-3) 99 hstart hstop, h.search (by decide)⟩

end Template

end StaticSite
