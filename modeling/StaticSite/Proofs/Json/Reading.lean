import StaticSite.Json.Reader
import StaticSite.Proofs.Except

/-!
# What is read of a JSON text

Every document that the reader makes has a property when scalars have it and arrays and objects
inherit it from what they are made of (`Json.Invariant.of_read`). The property may speak of the
levels that a document opens at most: the reader opens 127.
-/

namespace StaticSite.Json

/-- A property of documents that open some levels at most, which they inherit from their parts. -/
structure Invariant where
  holds : Nat → Json → Prop
  null (levels : Nat) : holds levels .null
  bool (levels : Nat) (b : Bool) : holds levels (.bool b)
  int (levels : Nat) (n : Int) : holds levels (.int n)
  float (levels : Nat) (x : Float) : holds levels (.float x)
  string (levels : Nat) (s : String) : holds levels (.string s)
  array {levels : Nat} {items : List Json} : (∀ j ∈ items, holds levels j) →
    holds (levels + 1) (.array items)
  noFields (levels : Nat) : holds (levels + 1) (.object [])
  insert {levels : Nat} {fields : Fields Json} {j : Json} (name : String) :
    holds (levels + 1) (.object fields) → holds levels j →
    holds (levels + 1) (.object (fields.insert name j))

namespace Invariant

variable {I : Invariant} {levels depth fuel : Nat} {j : Json} {c c' : Cursor}

theorem of_floatOf {negative : Bool} {kept : Nat} {exponent : Int}
    (h : floatOf c negative kept exponent = .ok (j, c')) : I.holds levels j := by
  unfold floatOf at h
  split at h
  · cases h
    exact I.float levels _
  · cases h

theorem of_exponentPart {negative : Bool} {kept : Nat} {shift : Int}
    (h : exponentPart c negative kept shift = .ok (j, c')) : I.holds levels j := by
  have float := I.float levels
  unfold exponentPart failAt failNext at h
  grind [of_floatOf]

theorem of_fractionPart {negative : Bool} {kept : Nat} {shift : Int}
    (h : fractionPart c negative kept shift = .ok (j, c')) : I.holds levels j := by
  unfold fractionPart exponentOrEnd failAt failNext at h
  grind [of_floatOf, of_exponentPart]

theorem of_number {negative : Bool} (h : number c negative = .ok (j, c')) : I.holds levels j := by
  have int := I.int levels
  have float := I.float levels
  unfold number failAt failNext at h
  grind [of_fractionPart, of_exponentPart, of_floatOf]

/-- What is read with some fuel has the property. A value opens one level less than its depth. -/
structure Reads (I : Invariant) (fuel : Nat) : Prop where
  value : ∀ {depth : Nat} {c c' : Cursor} {j : Json},
    value fuel depth c = .ok (j, c') → I.holds (depth - 1) j
  items : ∀ {depth : Nat} {c c' : Cursor} {first : Bool} {js : List Json},
    items fuel (depth + 1) c first = .ok (js, c') → ∀ j ∈ js, I.holds depth j
  fields : ∀ {depth : Nat} {c c' : Cursor} {first : Bool} {before after : Fields Json},
    I.holds (depth + 1) (.object before) →
    Json.fields fuel (depth + 1) c first before = .ok (after, c') →
      I.holds (depth + 1) (.object after)

theorem reads_zero : I.Reads 0 where
  value h := by cases h
  items h := by cases h
  fields _ h := by cases h

theorem Reads.value_succ (ih : I.Reads fuel) (h : Json.value (fuel + 1) depth c = .ok (j, c')) :
    I.holds (depth - 1) j := by
  unfold Json.value at h
  dsimp only at h
  split at h
  · cases h
  · obtain ⟨_, -, he⟩ := Except.map_eq_ok_iff.1 h
    cases he
    exact I.null _
  · obtain ⟨_, -, he⟩ := Except.map_eq_ok_iff.1 h
    cases he
    exact I.bool _ true
  · obtain ⟨_, -, he⟩ := Except.map_eq_ok_iff.1 h
    cases he
    exact I.bool _ false
  · exact of_number h
  · obtain ⟨_, -, h⟩ := Except.bind_eq_ok_iff.1 h
    cases h
    exact I.string _ _
  · split at h
    · cases h
    · rename_i hdepth
      obtain ⟨_, hi, h⟩ := Except.bind_eq_ok_iff.1 h
      cases h
      obtain ⟨depth, rfl⟩ : ∃ d, depth = d + 2 := ⟨depth - 2, by omega⟩
      exact I.array (ih.items hi)
  · split at h
    · cases h
    · rename_i hdepth
      obtain ⟨_, hf, h⟩ := Except.bind_eq_ok_iff.1 h
      cases h
      obtain ⟨depth, rfl⟩ : ∃ d, depth = d + 2 := ⟨depth - 2, by omega⟩
      exact ih.fields (I.noFields depth) hf
  · split at h
    · exact of_number h
    · cases h

theorem Reads.items_succ {first : Bool} {js : List Json} (ih : I.Reads fuel)
    (h : Json.items (fuel + 1) (depth + 1) c first = .ok (js, c')) : ∀ j ∈ js, I.holds depth j := by
  unfold Json.items at h
  obtain ⟨next, -, h⟩ := Except.bind_eq_ok_iff.1 h
  split at h
  · cases h
    nofun
  · obtain ⟨⟨j, _⟩, hj, h⟩ := Except.bind_eq_ok_iff.1 h
    obtain ⟨⟨rest, _⟩, hr, h⟩ := Except.bind_eq_ok_iff.1 h
    cases h
    exact List.forall_mem_cons.2 ⟨ih.value hj, ih.items hr⟩

theorem Reads.fields_succ {first : Bool} {before after : Fields Json} (ih : I.Reads fuel)
    (hb : I.holds (depth + 1) (.object before))
    (h : Json.fields (fuel + 1) (depth + 1) c first before = .ok (after, c')) :
    I.holds (depth + 1) (.object after) := by
  unfold Json.fields at h
  obtain ⟨next, -, h⟩ := Except.bind_eq_ok_iff.1 h
  split at h
  · cases h
    exact hb
  · obtain ⟨⟨name, _⟩, -, h⟩ := Except.bind_eq_ok_iff.1 h
    obtain ⟨_, -, h⟩ := Except.bind_eq_ok_iff.1 h
    obtain ⟨⟨j, _⟩, hj, h⟩ := Except.bind_eq_ok_iff.1 h
    exact ih.fields (I.insert name hb (ih.value hj)) h

theorem reads (fuel : Nat) : I.Reads fuel := by
  induction fuel with
  | zero => exact reads_zero
  | succ fuel ih => exact ⟨ih.value_succ, ih.items_succ, ih.fields_succ⟩

theorem of_read (I : Invariant) {text : String} (h : read text = .ok j) : I.holds 127 j := by
  unfold read at h
  obtain ⟨⟨_, _⟩, hv, h⟩ := Except.bind_eq_ok_iff.1 h
  dsimp only at h
  split at h
  · cases h
    exact (reads _).value hv
  · cases h

end Invariant

end StaticSite.Json
