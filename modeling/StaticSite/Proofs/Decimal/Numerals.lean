import StaticSite.Json.Reader
import StaticSite.Proofs.Decimal.Literals
import StaticSite.Proofs.Decimal.NotANumber

/-!
# Texts that stand for numbers

In page scripts a number is written as a decimal literal or as `Infinity`, both with a sign if need
be, or as an integer behind a mark for its base (`IsNumeric`). The reader of doubles takes decimal
literals and the names of infinity behind a sign, and what it takes is a number unless the name says
otherwise (`float?_isNumber_iff`). It knows no marks for bases, and more spellings of infinity; for
the rest it reads the texts of the grammar (`float?_isNumber_iff_isNumeric`).
-/

namespace StaticSite.Decimal

/-! ## The grammar -/

/-- The bases that have a mark. -/
inductive Radix where
  | hexadecimal
  | octal
  | binary

/-- The letters behind a zero that mark a base. -/
def Radix.marks : Radix → List Char
  | hexadecimal => ['x', 'X']
  | octal => ['o', 'O']
  | binary => ['b', 'B']

/-- Whether a character is a digit of a base. -/
def Radix.isDigit : Radix → Char → Bool
  | hexadecimal, c => (Json.hexValue? c).isSome
  | octal, c => '0' ≤ c ∧ c ≤ '7'
  | binary, c => c = '0' ∨ c = '1'

/-- An integer behind a mark for its base, which has no sign. -/
def IsRadixInteger (s : List Char) : Prop :=
  ∃ (r : Radix) (mark : Char) (ds : List Char),
    mark ∈ r.marks ∧ ds ≠ [] ∧ (∀ c ∈ ds, r.isDigit c = true) ∧
    s = '0' :: mark :: ds

/-- The texts that page scripts take as numbers. -/
inductive IsNumeric : List Char → Prop
  | decimal {sign body : List Char} : IsSign sign → IsUnsigned body → IsNumeric (sign ++ body)
  | infinity {sign : List Char} : IsSign sign → IsNumeric (sign ++ "Infinity".toList)
  | integer {s : List Char} : IsRadixInteger s → IsNumeric s

theorem IsRadixInteger.startsNumeral {s : List Char} (h : IsRadixInteger s) : StartsNumeral s := by
  obtain ⟨r, mark, ds, -, -, -, rfl⟩ := h
  exact ⟨'0', _, rfl, .inl rfl⟩

/-! ## Texts that are read as numbers -/

section Reading

variable {s : List Char}

theorem isNaN_of_unsignedFloat? {x : Float} (h : unsignedFloat? s = some x) : x.isNaN = false := by
  rcases hs : splitNumeral s with ⟨w, f, r⟩
  unfold unsignedFloat? at h
  rw [hs] at h
  dsimp only at h
  split_ifs at h
  cases r with
  | nil =>
    cases h
    exact isNaN_nearestFloat ..
  | cons c r =>
    dsimp only at h
    split_ifs at h
    obtain ⟨e, -, rfl⟩ := Option.map_eq_some_iff.1 h
    exact isNaN_nearestFloat ..

theorem magnitude?_isNumber_iff :
    (∃ x, magnitude? s = some x ∧ x.isNaN = false) ↔ IsUnsigned s ∨ NamesInfinity s := by
  constructor
  · rintro ⟨x, hx, hn⟩
    unfold magnitude? at hx
    simp only [String.ofList_eq] at hx
    split_ifs at hx with hinf hnan
    · exact .inr hinf
    · cases hx
      exact absurd hn (by decide +kernel)
    · exact .inl (isUnsigned_iff.2 (Option.isSome_of_eq_some hx))
  · rintro (h | h)
    · obtain ⟨x, hx⟩ := Option.isSome_iff_exists.1 (isUnsigned_iff.1 h)
      exact ⟨x, (magnitude?_of_startsNumeral h.startsNumeral).trans hx, isNaN_of_unsignedFloat? hx⟩
    · exact ⟨_, magnitude?_of_namesInfinity h, by decide +kernel⟩

theorem float?_isNumber_iff : (∃ x, float? s = some x ∧ x.isNaN = false) ↔
    ∃ sign body, IsSign sign ∧ (IsUnsigned body ∨ NamesInfinity body) ∧ s = sign ++ body := by
  have behind : (∃ x, float? s = some x ∧ x.isNaN = false) ↔
      ∃ x, magnitude? (splitSign s).2 = some x ∧ x.isNaN = false := by
    have keeps (x : Float) : (if (splitSign s).1 = true then -x else x).isNaN = x.isNaN := by
      split_ifs
      · exact isNaN_neg x
      · rfl
    rw [float?_eq]
    simp only [Option.map_eq_some_iff, exists_exists_and_eq_and, keeps]
  rw [behind, magnitude?_isNumber_iff]
  constructor
  · intro h
    obtain ⟨sign, hsign, hs⟩ := exists_sign s
    exact ⟨sign, _, hsign, h, hs⟩
  · rintro ⟨sign, body, hsign, hbody, rfl⟩
    have plain : IsPlain body := hbody.elim (·.startsNumeral.isPlain) (·.isPlain)
    rwa [splitSign_append hsign plain]

/-! ## Texts that are misread -/

/-- Infinity in another spelling: abbreviated, or in other letters. -/
def IsOtherInfinity (s : List Char) : Prop :=
  ∃ sign name, IsSign sign ∧ NamesInfinity name ∧ name ≠ "Infinity".toList ∧ s = sign ++ name

theorem IsOtherInfinity.ne_nil (h : IsOtherInfinity s) : s ≠ [] := by
  obtain ⟨sign, name, -, hname, -, rfl⟩ := h
  obtain ⟨c, r, rfl, -⟩ := hname.exists_cons
  simp

theorem IsRadixInteger.ne_nil (h : IsRadixInteger s) : s ≠ [] := by
  obtain ⟨r, mark, ds, -, -, -, rfl⟩ := h
  exact List.cons_ne_nil _ _

/-- Behind the zero stands neither a digit nor a point nor an exponent. -/
theorem float?_of_isRadixInteger (h : IsRadixInteger s) : float? s = none := by
  rw [float?_of_startsNumeral h.startsNumeral]
  obtain ⟨r, mark, ds, hmark, -, -, rfl⟩ := h
  have follows : (mark.isDigit = false ∧ mark ≠ '.') ∧ ¬ (mark = 'e' ∨ mark = 'E') := by
    cases r <;> simp only [Radix.marks, List.mem_cons, List.not_mem_nil, or_false] at hmark <;>
      rcases hmark with rfl | rfl <;> decide
  obtain ⟨hends, hexp⟩ := follows
  have hsplit : splitNumeral (['0'] ++ mark :: ds) = (['0'], [], mark :: ds) := by
    refine splitNumeral_append (List.forall_mem_singleton.2 rfl) ?_
    rintro c ⟨⟩
    exact hends
  rw [← Option.not_isSome_iff_eq_none, unsignedFloat?_isSome_iff (s := '0' :: mark :: ds) hsplit,
    isExponent_cons_iff]
  exact fun h => hexp h.2.1

theorem not_isNumeric_of_isOtherInfinity (h : IsOtherInfinity s) : ¬ IsNumeric s := by
  obtain ⟨sign, name, hsign, hname, hother, hs⟩ := h
  have behind : (splitSign s).2 = name := by rw [hs, splitSign_append hsign hname.isPlain]
  intro hn
  cases hn with
  | decimal hsign' hbody =>
    rw [splitSign_append hsign' hbody.startsNumeral.isPlain] at behind
    exact hbody.startsNumeral.not_namesInfinity (behind ▸ hname)
  | infinity hsign' =>
    rw [splitSign_append hsign' (NamesInfinity.isPlain (.inr rfl))] at behind
    exact hother behind.symm
  | integer h =>
    rw [splitSign_of_isPlain h.startsNumeral.isPlain] at behind
    dsimp only at behind
    exact h.startsNumeral.not_namesInfinity (behind ▸ hname)

theorem float?_isNumber_iff_isNumeric : (∃ x, float? s = some x ∧ x.isNaN = false) ↔
    IsNumeric s ∧ ¬ IsRadixInteger s ∨ IsOtherInfinity s := by
  constructor
  · intro h
    have unmarked : ¬ IsRadixInteger s := by
      intro hr
      obtain ⟨x, hx, -⟩ := h
      rw [float?_of_isRadixInteger hr] at hx
      cases hx
    obtain ⟨sign, body, hsign, hbody, rfl⟩ := float?_isNumber_iff.1 h
    rcases hbody with hbody | hbody
    · exact .inl ⟨.decimal hsign hbody, unmarked⟩
    · by_cases hname : body = "Infinity".toList
      · subst hname
        exact .inl ⟨.infinity hsign, unmarked⟩
      · exact .inr ⟨sign, body, hsign, hbody, hname, rfl⟩
  · rw [float?_isNumber_iff]
    rintro (⟨h, hr⟩ | ⟨sign, name, hsign, hname, -, rfl⟩)
    · cases h with
      | decimal hsign hbody => exact ⟨_, _, hsign, .inl hbody, rfl⟩
      | infinity hsign => exact ⟨_, _, hsign, .inr (.inr rfl), rfl⟩
      | integer h => exact absurd h hr
    · exact ⟨sign, name, hsign, .inr hname, rfl⟩

end Reading

end StaticSite.Decimal
