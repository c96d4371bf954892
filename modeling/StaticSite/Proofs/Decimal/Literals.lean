import StaticSite.Decimal.Reading
import Mathlib.Data.List.TakeWhile
import Mathlib.Data.String.Basic
import Mathlib.Tactic.SplitIfs

/-!
# Decimal literals

A decimal literal is digits with a point among them or beside them, and an exponent if need be
(`IsUnsigned`). The reader of doubles takes these texts (`isUnsigned_iff`), and with a sign in front
of them. A text that begins like a numeral has no sign and is no name, so nothing else is tried
(`float?_of_startsNumeral`).
-/

namespace StaticSite.Decimal

/-! ## The grammar -/

/-- One or more decimal digits. -/
structure IsDigits (s : List Char) : Prop where
  nonempty : s ≠ []
  digits : ∀ c ∈ s, c.isDigit = true

/-- A sign, or none. -/
inductive IsSign : List Char → Prop
  | absent : IsSign []
  | plus : IsSign ['+']
  | minus : IsSign ['-']

/-- Digits, with or without a point among them or beside them. -/
inductive IsMantissa : List Char → Prop
  | whole {w : List Char} : IsDigits w → IsMantissa w
  | pointed {w f : List Char} : IsDigits w → (∀ c ∈ f, c.isDigit = true) →
      IsMantissa (w ++ '.' :: f)
  | fraction {f : List Char} : IsDigits f → IsMantissa ('.' :: f)

/-- An exponent behind its mark, or none. -/
inductive IsExponent : List Char → Prop
  | absent : IsExponent []
  | marked {mark : Char} {sign ds : List Char} :
    mark = 'e' ∨ mark = 'E' → IsSign sign → IsDigits ds → IsExponent (mark :: (sign ++ ds))

/-- A decimal literal without a sign. -/
def IsUnsigned (s : List Char) : Prop :=
  ∃ m e, IsMantissa m ∧ IsExponent e ∧ s = m ++ e

/-! ## Digits -/

/-- What holds of the ten digits. -/
theorem of_isDigit {P : Char → Prop} {c : Char} (hP : ∀ n < 58, 48 ≤ n → P (Char.ofNat n))
    (h : c.isDigit = true) : P c := by
  have h9 : '9'.val.toNat = 57 := rfl
  have h0 : '0'.val.toNat = 48 := rfl
  have hc : c.toNat = c.val.toNat := rfl
  simp only [Char.isDigit, Bool.and_eq_true, decide_eq_true_eq, ge_iff_le,
    UInt32.le_iff_toNat_le] at h
  simpa using hP c.toNat (by omega) (by omega)

theorem isDigits_iff {s : List Char} : IsDigits s ↔ s ≠ [] ∧ s.all Char.isDigit = true :=
  ⟨fun h => ⟨h.nonempty, List.all_eq_true.2 h.digits⟩, fun h => ⟨h.1, List.all_eq_true.1 h.2⟩⟩

theorem IsDigits.exists_cons {s : List Char} (h : IsDigits s) :
    ∃ c r, s = c :: r ∧ c.isDigit = true := by
  obtain ⟨c, r, rfl⟩ := List.exists_cons_of_ne_nil h.nonempty
  exact ⟨c, r, rfl, h.digits c List.mem_cons_self⟩

theorem isDigits_natText (n : Nat) : IsDigits (natText n) :=
  ⟨Nat.toDigits_ne_nil, fun _ => Nat.isDigit_of_mem_toDigits (by decide) (by decide)⟩

theorem digitsValue_natText (n : Nat) : digitsValue (natText n) = n :=
  Nat.ofDigitChars_toDigits (by decide) (by decide)

theorem takeWhile_append_of_head {p : Char → Bool} {s rest : List Char} (hs : ∀ c ∈ s, p c = true)
    (hr : ∀ c ∈ rest.head?, p c = false) : (s ++ rest).takeWhile p = s := by
  rw [List.takeWhile_append_of_pos hs]
  cases rest with
  | nil => simp
  | cons c r => simp [hr c rfl]

theorem dropWhile_append_of_head {p : Char → Bool} {s rest : List Char} (hs : ∀ c ∈ s, p c = true)
    (hr : ∀ c ∈ rest.head?, p c = false) : (s ++ rest).dropWhile p = rest := by
  rw [List.dropWhile_append_of_pos hs]
  cases rest with
  | nil => rfl
  | cons c r => simp [hr c rfl]

/-! ## Signs -/

/-- Whether a text begins with a negative sign, and what is behind its sign. -/
def splitSign : List Char → Bool × List Char
  | '-' :: r => (true, r)
  | '+' :: r => (false, r)
  | r => (false, r)

/-- The text does not begin with a sign. -/
structure IsPlain (s : List Char) : Prop where
  minus : s.head? ≠ some '-'
  plus : s.head? ≠ some '+'

theorem isPlain_cons {c : Char} (h : c ≠ '-' ∧ c ≠ '+') (s : List Char) : IsPlain (c :: s) :=
  ⟨by simpa using h.1, by simpa using h.2⟩

theorem isPlain_of_isDigit {c : Char} (h : c.isDigit = true) (s : List Char) : IsPlain (c :: s) :=
  isPlain_cons (of_isDigit (P := fun c => c ≠ '-' ∧ c ≠ '+') (by decide) h) s

theorem splitSign_of_isPlain {s : List Char} (h : IsPlain s) : splitSign s = (false, s) := by
  unfold splitSign
  split
  · exact absurd rfl h.minus
  · exact absurd rfl h.plus
  · rfl

theorem splitSign_append {sign s : List Char} (h : IsSign sign) (hs : IsPlain s) :
    (splitSign (sign ++ s)).2 = s := by
  cases h with
  | absent => rw [List.nil_append, splitSign_of_isPlain hs]
  | plus => rfl
  | minus => rfl

theorem exists_sign (s : List Char) : ∃ sign, IsSign sign ∧ s = sign ++ (splitSign s).2 := by
  unfold splitSign
  split
  · exact ⟨_, .minus, rfl⟩
  · exact ⟨_, .plus, rfl⟩
  · exact ⟨_, .absent, rfl⟩

/-! ## Decimal literals -/

theorem exponentValue?_isSome_iff {s : List Char} :
    (exponentValue? s).isSome = true ↔ ∃ sign ds, IsSign sign ∧ IsDigits ds ∧ s = sign ++ ds := by
  have behind : (exponentValue? s).isSome = true ↔ IsDigits (splitSign s).2 := by
    rw [isDigits_iff]
    change (if (splitSign s).2 ≠ [] ∧ (splitSign s).2.all Char.isDigit = true then some _
      else none).isSome = true ↔ _
    simp
  rw [behind]
  constructor
  · intro h
    obtain ⟨sign, hsign, hs⟩ := exists_sign s
    exact ⟨sign, _, hsign, h, hs⟩
  · rintro ⟨sign, ds, hsign, hds, rfl⟩
    obtain ⟨c, r, rfl, hc⟩ := hds.exists_cons
    rwa [splitSign_append hsign (isPlain_of_isDigit hc r)]

theorem isExponent_cons_iff {c : Char} {r : List Char} :
    IsExponent (c :: r) ↔ (c = 'e' ∨ c = 'E') ∧ (exponentValue? r).isSome = true := by
  rw [exponentValue?_isSome_iff]
  constructor
  · intro h
    cases h with
    | marked hm hs hd => exact ⟨hm, _, _, hs, hd, rfl⟩
  · rintro ⟨hm, sign, ds, hs, hd, rfl⟩
    exact .marked hm hs hd

theorem splitNumeral_append {w r : List Char} (hw : ∀ c ∈ w, c.isDigit = true)
    (hr : ∀ c ∈ r.head?, c.isDigit = false ∧ c ≠ '.') : splitNumeral (w ++ r) = (w, [], r) := by
  have hdigit : ∀ c ∈ r.head?, c.isDigit = false := fun c hc => (hr c hc).1
  unfold splitNumeral
  rw [takeWhile_append_of_head hw hdigit, dropWhile_append_of_head hw hdigit]
  cases r with
  | nil => rfl
  | cons c t =>
    dsimp only
    split
    · rename_i heq
      exact absurd (List.cons.inj heq).1 (hr c rfl).2
    · rfl

namespace IsExponent

variable {w f e : List Char}

theorem head (h : IsExponent e) : ∀ c ∈ e.head?, c.isDigit = false ∧ c ≠ '.' := by
  rintro c hc
  cases h with
  | absent => cases hc
  | marked hm _ _ =>
    cases hc
    rcases hm with rfl | rfl <;> decide

theorem splitNumeral_point (h : IsExponent e) (hw : ∀ c ∈ w, c.isDigit = true)
    (hf : ∀ c ∈ f, c.isDigit = true) : splitNumeral (w ++ '.' :: (f ++ e)) = (w, f, e) := by
  have point : ∀ c ∈ ('.' :: (f ++ e)).head?, c.isDigit = false := by
    rintro c ⟨⟩
    rfl
  have ends : ∀ c ∈ e.head?, c.isDigit = false := fun c hc => (h.head c hc).1
  unfold splitNumeral
  rw [takeWhile_append_of_head hw point, dropWhile_append_of_head hw point]
  exact congrArg₂ (fun digits rest => (w, digits, rest)) (takeWhile_append_of_head hf ends)
    (dropWhile_append_of_head hf ends)

end IsExponent

section Numeral

variable {s w f r : List Char} {x : Float}

theorem splitNumeral_eq (h : splitNumeral s = (w, f, r)) :
    (∀ c ∈ w, c.isDigit = true) ∧ (∀ c ∈ f, c.isDigit = true) ∧
      (s = w ++ r ∧ f = [] ∨ s = w ++ '.' :: (f ++ r)) := by
  have digits (t : List Char) : ∀ c ∈ t.takeWhile Char.isDigit, c.isDigit = true :=
    fun c hc => List.mem_takeWhile_imp hc
  have hs : s.takeWhile Char.isDigit ++ s.dropWhile Char.isDigit = s :=
    List.takeWhile_append_dropWhile
  unfold splitNumeral at h
  dsimp only at h
  split at h
  · rename_i rest hrest
    cases h
    refine ⟨digits s, digits rest, .inr ?_⟩
    rw [List.takeWhile_append_dropWhile, ← hrest, hs]
  · cases h
    exact ⟨digits s, by simp, .inl ⟨hs.symm, rfl⟩⟩

/-- A numeral needs a digit, and all that may follow its digits is an exponent. -/
theorem unsignedFloat?_isSome_iff (h : splitNumeral s = (w, f, r)) :
    (unsignedFloat? s).isSome = true ↔ (w ≠ [] ∨ f ≠ []) ∧ IsExponent r := by
  unfold unsignedFloat?
  rw [h]
  dsimp only
  split_ifs with hempty
  · simp [hempty]
  rw [← not_and_or, and_iff_right hempty]
  cases r with
  | nil => simp [IsExponent.absent]
  | cons c r =>
    rw [isExponent_cons_iff]
    dsimp only
    split_ifs with hc
    · simp [hc]
    · simp [hc]

theorem isUnsigned_iff : IsUnsigned s ↔ (unsignedFloat? s).isSome = true := by
  constructor
  · rintro ⟨m, e, hm, he, rfl⟩
    cases hm with
    | whole hw =>
      exact (unsignedFloat?_isSome_iff (splitNumeral_append hw.digits he.head)).2
        ⟨.inl hw.nonempty, he⟩
    | pointed hw hf =>
      rw [List.append_assoc, List.cons_append]
      exact (unsignedFloat?_isSome_iff (he.splitNumeral_point hw.digits hf)).2
        ⟨.inl hw.nonempty, he⟩
    | fraction hf =>
      have split := he.splitNumeral_point (w := []) (by simp) hf.digits
      exact (unsignedFloat?_isSome_iff split).2 ⟨.inr hf.nonempty, he⟩
  · intro h
    obtain ⟨w, f, r, hsplit⟩ : ∃ w f r, splitNumeral s = (w, f, r) := ⟨_, _, _, rfl⟩
    obtain ⟨hne, he⟩ := (unsignedFloat?_isSome_iff hsplit).1 h
    obtain ⟨hw, hf, ⟨rfl, rfl⟩ | rfl⟩ := splitNumeral_eq hsplit
    · exact ⟨w, r, .whole ⟨hne.resolve_right (fun h => h rfl), hw⟩, he, rfl⟩
    · by_cases hempty : w = []
      · subst hempty
        exact ⟨'.' :: f, r, .fraction ⟨hne.resolve_left (fun h => h rfl), hf⟩, he, rfl⟩
      · exact ⟨w ++ '.' :: f, r, .pointed ⟨hempty, hw⟩ hf, he, by simp⟩

end Numeral

/-! ## Names -/

/-- The names of infinity in any case. -/
def NamesInfinity (s : List Char) : Prop :=
  s.map Char.toLower = "inf".toList ∨ s.map Char.toLower = "infinity".toList

theorem NamesInfinity.exists_cons {s : List Char} (h : NamesInfinity s) :
    ∃ c r, s = c :: r ∧ c.toLower = 'i' := by
  cases s with
  | nil => rcases h with h | h <;> cases h
  | cons c r => exact ⟨c, r, rfl, by rcases h with h | h <;> exact (List.cons.inj h).1⟩

theorem NamesInfinity.isPlain {s : List Char} (h : NamesInfinity s) : IsPlain s := by
  obtain ⟨c, r, rfl, hc⟩ := h.exists_cons
  refine isPlain_cons ⟨?_, ?_⟩ r
  · rintro rfl
    cases hc
  · rintro rfl
    cases hc

/-- The text begins like a numeral. -/
def StartsNumeral (s : List Char) : Prop :=
  ∃ c r, s = c :: r ∧ (c.isDigit = true ∨ c = '.')

theorem IsUnsigned.startsNumeral {s : List Char} (h : IsUnsigned s) : StartsNumeral s := by
  obtain ⟨m, e, hm, -, rfl⟩ := h
  cases hm with
  | whole hw =>
    obtain ⟨c, r, rfl, hc⟩ := hw.exists_cons
    exact ⟨c, _, rfl, .inl hc⟩
  | pointed hw hf =>
    obtain ⟨c, r, rfl, hc⟩ := hw.exists_cons
    exact ⟨c, _, rfl, .inl hc⟩
  | fraction hf => exact ⟨'.', _, rfl, .inr rfl⟩

namespace StartsNumeral

variable {s : List Char}

theorem isPlain (h : StartsNumeral s) : IsPlain s := by
  obtain ⟨c, r, rfl, hc | rfl⟩ := h
  · exact isPlain_of_isDigit hc r
  · exact isPlain_cons (by decide) r

theorem ne_name (h : StartsNumeral s) {d : Char} (hd : d = 'i' ∨ d = 'n') (name : List Char) :
    s.map Char.toLower ≠ d :: name := by
  obtain ⟨c, r, rfl, hc⟩ := h
  have lower : c.toLower ≠ 'i' ∧ c.toLower ≠ 'n' := by
    rcases hc with hc | rfl
    · exact of_isDigit (P := fun c => c.toLower ≠ 'i' ∧ c.toLower ≠ 'n') (by decide) hc
    · decide
  intro heq
  obtain rfl : c.toLower = d := (List.cons.inj heq).1
  exact hd.elim lower.1 lower.2

theorem not_namesInfinity (h : StartsNumeral s) : ¬ NamesInfinity s := by
  rintro (hs | hs)
  · exact h.ne_name (.inl rfl) _ hs
  · exact h.ne_name (.inl rfl) _ hs

end StartsNumeral

/-! ## Reading behind a sign -/

/-- What is read behind the sign. -/
def magnitude? (s : List Char) : Option Float :=
  let name := String.ofList (s.map Char.toLower)
  if name = "inf" ∨ name = "infinity" then some (1.0 / 0.0)
  else if name = "nan" then some (0.0 / 0.0)
  else unsignedFloat? s

theorem float?_eq (s : List Char) : float? s =
    (magnitude? (splitSign s).2).map fun x => if (splitSign s).1 = true then -x else x :=
  rfl

section Behind

variable {s : List Char}

theorem magnitude?_of_namesInfinity (h : NamesInfinity s) : magnitude? s = some (1.0 / 0.0) := by
  unfold magnitude?
  simp only [String.ofList_eq]
  exact if_pos h

theorem magnitude?_of_startsNumeral (h : StartsNumeral s) : magnitude? s = unsignedFloat? s := by
  unfold magnitude?
  simp only [String.ofList_eq]
  exact (if_neg h.not_namesInfinity).trans (if_neg (h.ne_name (.inr rfl) _))

theorem float?_of_startsNumeral (h : StartsNumeral s) : float? s = unsignedFloat? s := by
  rw [float?_eq, splitSign_of_isPlain h.isPlain, magnitude?_of_startsNumeral h]
  simp

end Behind

end StaticSite.Decimal
