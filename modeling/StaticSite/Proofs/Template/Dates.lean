import Mathlib.Data.List.Basic
import StaticSite.Template.Date

/-!
# Dates in data

A place in a value is a path of positions through its arrays and objects; dates are not looked into.
The conversion of dates acts place by place (`at?_converted`): an object or array under the name of
a date becomes the date of its fields, the places below it go, and every other place stays with its
name and its outline. So nothing is left to convert, and converting again changes nothing
(`convertDates_places`).
-/

namespace StaticSite.Template

namespace Value

/-- Whether a value is an array or an object. -/
def isComposite : Value → Bool
  | array .. | object .. => true
  | _ => false

/-- The date that an object or array becomes. -/
def dated : Value → Value
  | array ref items => toDate ref (array ref items)
  | object ref fields => toDate ref (object ref fields)
  | v => v

/-- Arrays of one length, objects with the same names, and else equal values. -/
inductive SameOutline : Value → Value → Prop
  | array {ref : Nat} {items items' : List Value} :
    items'.length = items.length → SameOutline (array ref items) (array ref items')
  | object {ref : Nat} {fields fields' : Fields Value} :
    fields'.names = fields.names → SameOutline (object ref fields) (object ref fields')
  | other {v : Value} : v.isComposite = false → SameOutline v v

end Value

/-- A value in another one, with its name if it is the value of a field. -/
structure Occurrence where
  name : Option String
  value : Value

namespace Value

/-- What stands in a value, in order. -/
def inner : Value → List Occurrence
  | array _ items => items.map fun v => ⟨none, v⟩
  | object _ fields => fields.map fun (n, v) => ⟨some n, v⟩
  | _ => []

end Value

namespace Occurrence

/-- What stands at the end of a path of positions. -/
def at? (o : Occurrence) : List Nat → Option Occurrence
  | [] => some o
  | i :: path => o.value.inner[i]?.bind fun c => c.at? path

/-- Whether the value is an object or array under the name of a date. -/
def isDate (o : Occurrence) : Bool :=
  o.value.isComposite && o.name.any isDateName

/-- An object or array under the name of a date stands above the end of the path. -/
def DateAbove (o : Occurrence) (path : List Nat) : Prop :=
  ∃ way i rest d, path = way ++ i :: rest ∧ o.at? way = some d ∧ d.isDate = true

/-- The occurrence when its dates are converted. -/
def converted (o : Occurrence) : Occurrence :=
  ⟨o.name, if o.isDate then o.value.dated else o.value.convertDates⟩

end Occurrence

/-! ## Conversion in each place -/

namespace Value

theorem convertItems_eq_map : ∀ items, convertItems items = items.map convertDates
  | [] => rfl
  | v :: rest => congrArg (v.convertDates :: ·) (convertItems_eq_map rest)

theorem convertFields_eq_map : ∀ fields,
    convertFields fields = fields.map fun (n, v) => (n, convertField (isDateName n) v)
  | [] => rfl
  | (n, v) :: rest => congrArg ((n, convertField (isDateName n) v) :: ·) (convertFields_eq_map rest)

theorem convertField_eq (name : String) (v : Value) :
    convertField (isDateName name) v = (Occurrence.converted ⟨some name, v⟩).value := by
  cases v <;> cases h : isDateName name <;> simp [convertField, convertDates, Occurrence.converted,
    Occurrence.isDate, isComposite, dated, h]

/-- Everything in an array or object is converted. -/
theorem inner_convertDates (v : Value) :
    v.convertDates.inner = v.inner.map Occurrence.converted := by
  cases v with
  | array ref items =>
    simp only [convertDates, inner, convertItems_eq_map, List.map_map]
    exact List.map_congr_left fun w _ => by simp [Occurrence.converted, Occurrence.isDate]
  | object ref fields =>
    simp only [convertDates, inner, convertFields_eq_map, List.map_map]
    exact List.map_congr_left fun field _ => by
      simp only [Function.comp_apply, convertField_eq]
      rfl
  | _ => rfl

theorem sameOutline_convertDates (v : Value) : v.SameOutline v.convertDates := by
  cases v with
  | array ref items =>
    refine .array ?_
    rw [convertItems_eq_map, List.length_map]
  | object ref fields =>
    refine .object ?_
    rw [convertFields_eq_map, Fields.names, List.map_map]
    rfl
  | _ => exact .other rfl

theorem isComposite_convertDates (v : Value) : v.convertDates.isComposite = v.isComposite := by
  cases v <;> rfl

theorem isComposite_dated (v : Value) : v.dated.isComposite = false := by
  cases v <;> rfl

mutual

theorem convertDates_convertDates : ∀ v : Value, v.convertDates.convertDates = v.convertDates
  | array ref items => congrArg (array ref) (convertItems_convertItems items)
  | object ref fields => congrArg (object ref) (convertFields_convertFields fields)
  | undefined | null | bool _ | number _ | string _ | date .. => rfl

theorem convertItems_convertItems (items : List Value) :
    convertItems (convertItems items) = convertItems items := by
  cases items with
  | nil => rfl
  | cons v rest =>
    rw [convertItems, convertItems, convertDates_convertDates v, convertItems_convertItems rest]

theorem convertFields_convertFields :
    ∀ fields, convertFields (convertFields fields) = convertFields fields
  | [] => rfl
  | (name, v) :: rest => by
    rw [convertFields, convertFields, convertField_convertField _ v,
      convertFields_convertFields rest]

theorem convertField_convertField (isDate : Bool) :
    ∀ v, convertField isDate (convertField isDate v) = convertField isDate v
  | array ref items => by
    cases isDate with
    | true => rfl
    | false => exact congrArg (array ref) (convertItems_convertItems items)
  | object ref fields => by
    cases isDate with
    | true => rfl
    | false => exact congrArg (object ref) (convertFields_convertFields fields)
  | undefined | null | bool _ | number _ | string _ | date .. => rfl

end

end Value

/-! ## Places -/

namespace Occurrence

variable {o d : Occurrence} {i : Nat} {path : List Nat}

theorem not_dateAbove_nil (o : Occurrence) : ¬ o.DateAbove [] := by
  rintro ⟨way, i, rest, d, h, -, -⟩
  exact List.cons_ne_nil i rest (List.append_eq_nil_iff.1 h.symm).2

/-- The first occurrence above is the one in which the path begins. -/
theorem dateAbove_cons : o.DateAbove (i :: path) ↔
    o.isDate = true ∨ ∃ c, o.value.inner[i]? = some c ∧ c.DateAbove path := by
  constructor
  · rintro ⟨way, j, rest, d, h, hd, hdate⟩
    cases way with
    | nil =>
      cases hd
      exact .inl hdate
    | cons k way =>
      cases h
      obtain ⟨c, hc, hd⟩ := Option.bind_eq_some_iff.1 hd
      exact .inr ⟨c, hc, way, j, rest, d, rfl, hd, hdate⟩
  · rintro (hdate | ⟨c, hc, way, j, rest, d, rfl, hd, hdate⟩)
    · exact ⟨[], i, path, o, rfl, rfl, hdate⟩
    · exact ⟨i :: way, j, rest, d, rfl, Option.bind_eq_some_iff.2 ⟨c, hc, hd⟩, hdate⟩

theorem inner_converted_of_isDate (h : o.isDate = true) : o.converted.value.inner = [] := by
  obtain ⟨name, v⟩ := o
  rw [converted, if_pos h]
  cases v with
  | array ref items => rfl
  | object ref fields => rfl
  | _ => simp [isDate, Value.isComposite] at h

theorem inner_converted_of_not_isDate (h : ¬ o.isDate = true) :
    o.converted.value.inner = o.value.inner.map converted := by
  rw [converted, if_neg h]
  exact o.value.inner_convertDates

/-- The places of a converted value are those below no date, each converted. -/
theorem at?_converted : o.converted.at? path = some d ↔
    ¬ o.DateAbove path ∧ ∃ c, o.at? path = some c ∧ c.converted = d := by
  induction path generalizing o with
  | nil => simp [at?, not_dateAbove_nil]
  | cons i path ih =>
    rw [at?, at?, dateAbove_cons]
    by_cases h : o.isDate = true
    · simp [inner_converted_of_isDate h, h]
    · rw [inner_converted_of_not_isDate h, List.getElem?_map]
      cases o.value.inner[i]? with
      | none => simp
      | some c => simp [ih, h]

/-- What is converted is not an object or array under the name of a date. -/
theorem isDate_converted (o : Occurrence) : o.converted.isDate = false := by
  by_cases h : o.isDate = true
  · rw [converted, if_pos h, isDate, o.value.isComposite_dated]
    rfl
  · rw [converted, if_neg h, isDate, o.value.isComposite_convertDates]
    exact Bool.eq_false_iff.2 h

/-- What a date is read from. -/
theorem exists_dated_eq (h : o.isDate = true) : ∃ ref, o.value.dated =
    .date ref ((o.value.field? "year").getD .undefined) ((o.value.field? "month").getD .undefined)
      ((o.value.field? "day").getD .undefined) := by
  obtain ⟨name, v⟩ := o
  cases v with
  | array ref items => exact ⟨ref, rfl⟩
  | object ref fields => exact ⟨ref, rfl⟩
  | _ => simp [isDate, Value.isComposite] at h

end Occurrence

/-- Converting the dates of a value a second time changes nothing. Afterwards no object or array
stands under the name of a date, in any place. The places that are left are those below no date,
each with its name: an object or array under the name of a date is the date of its year, month and
day, and all else is as it was but for what stands in it. -/
theorem convertDates_places (v : Value) :
    v.convertDates.convertDates = v.convertDates ∧
    (∀ path name w, Occurrence.at? ⟨none, v.convertDates⟩ path = some ⟨some name, w⟩ →
      isDateName name = true → w.isComposite = false) ∧
    (∀ path, (Occurrence.at? ⟨none, v.convertDates⟩ path).isSome ↔
      ¬ Occurrence.DateAbove ⟨none, v⟩ path ∧ (Occurrence.at? ⟨none, v⟩ path).isSome) ∧
    ∀ path c d, Occurrence.at? ⟨none, v⟩ path = some c →
      Occurrence.at? ⟨none, v.convertDates⟩ path = some d → d.name = c.name ∧
        if c.isDate then ∃ ref, d.value = .date ref ((c.value.field? "year").getD .undefined)
          ((c.value.field? "month").getD .undefined) ((c.value.field? "day").getD .undefined)
        else c.value.SameOutline d.value := by
  have root : (⟨none, v.convertDates⟩ : Occurrence) = Occurrence.converted ⟨none, v⟩ := by
    simp [Occurrence.converted, Occurrence.isDate]
  refine ⟨v.convertDates_convertDates, fun path name w hd hname => ?_, fun path => ?_,
    fun path c d hc hd => ?_⟩
  · rw [root] at hd
    obtain ⟨-, c, -, hc⟩ := Occurrence.at?_converted.1 hd
    have hdate := c.isDate_converted
    rw [hc] at hdate
    simpa [Occurrence.isDate, hname] using hdate
  · simp only [root, Option.isSome_iff_exists, Occurrence.at?_converted]
    constructor
    · rintro ⟨d, hclear, c, hc, -⟩
      exact ⟨hclear, c, hc⟩
    · rintro ⟨hclear, c, hc⟩
      exact ⟨c.converted, hclear, c, hc, rfl⟩
  · rw [root] at hd
    obtain ⟨-, c', hc', rfl⟩ := Occurrence.at?_converted.1 hd
    obtain rfl : c = c' := Option.some.inj (hc.symm.trans hc')
    refine ⟨rfl, ?_⟩
    rw [Occurrence.converted]
    split
    · rename_i hdate
      exact Occurrence.exists_dated_eq hdate
    · exact c.value.sameOutline_convertDates

end StaticSite.Template
