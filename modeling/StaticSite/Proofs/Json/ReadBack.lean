import StaticSite.Proofs.Config.Ordered
import StaticSite.Proofs.Json.Scalars

/-!
# Printed documents are read back

The compact text of a document is read as the document itself (`read_compact`), provided that its
fields are in order, that it opens 127 levels at most and that its numbers are integers of 64 bits.
So nothing is lost when a document of such numbers that was read from a text is printed
(`read_compact_of_read`).
-/

namespace StaticSite.Json

/-! ## Documents -/

/-- A document opens some levels at most. -/
inductive NestsWithin : Nat → Json → Prop where
  | null (levels : Nat) : NestsWithin levels .null
  | bool (levels : Nat) (b : Bool) : NestsWithin levels (.bool b)
  | int (levels : Nat) (n : Int) : NestsWithin levels (.int n)
  | float (levels : Nat) (x : Float) : NestsWithin levels (.float x)
  | string (levels : Nat) (s : String) : NestsWithin levels (.string s)
  | array {levels : Nat} {items : List Json} (each : ∀ j ∈ items, NestsWithin levels j) :
    NestsWithin (levels + 1) (.array items)
  | object {levels : Nat} {fields : Fields Json}
    (each : ∀ field ∈ fields, NestsWithin levels field.2) :
    NestsWithin (levels + 1) (.object fields)

/-- What is read opens as many levels as the reader allows. -/
def Invariant.nesting : Invariant where
  holds := NestsWithin
  null := .null
  bool := .bool
  int := .int
  float := .float
  string := .string
  array := .array
  noFields _ := .object (List.forall_mem_nil _)
  insert := by
    rintro levels fields j name ⟨⟩ hj
    rename_i each
    refine .object fun field hf => ?_
    rcases Fields.mem_insert (v := field.2) hf with he | hm
    · obtain rfl : field = (name, j) := he
      exact hj
    · exact each field hm

/-- All numbers of a document are integers, with some property. -/
inductive HasIntegers (p : Int → Prop) : Json → Prop where
  | null : HasIntegers p .null
  | bool (b : Bool) : HasIntegers p (.bool b)
  | int {n : Int} (h : p n) : HasIntegers p (.int n)
  | string (s : String) : HasIntegers p (.string s)
  | array {items : List Json} (each : ∀ j ∈ items, HasIntegers p j) : HasIntegers p (.array items)
  | object {fields : Fields Json} (each : ∀ field ∈ fields, HasIntegers p field.2) :
      HasIntegers p (.object fields)

theorem hasIntegers_int_iff {p : Int → Prop} {n : Int} : (int n).HasIntegers p ↔ p n :=
  ⟨fun | .int h => h, .int⟩

theorem hasIntegers_array_iff {p : Int → Prop} {items : List Json} :
    (array items).HasIntegers p ↔ ∀ j ∈ items, j.HasIntegers p :=
  ⟨fun | .array each => each, .array⟩

theorem hasIntegers_object_iff {p : Int → Prop} {fields : Fields Json} :
    (object fields).HasIntegers p ↔ ∀ field ∈ fields, field.2.HasIntegers p :=
  ⟨fun | .object each => each, .object⟩

theorem HasIntegers.mono {p q : Int → Prop} (hpq : ∀ n, p n → q n) {j : Json}
    (h : j.HasIntegers p) :
    j.HasIntegers q := by
  induction h with
  | null => exact .null
  | bool b => exact .bool b
  | int h => exact .int (hpq _ h)
  | string s => exact .string s
  | array _ ih => exact .array ih
  | object _ ih => exact .object ih

/-- An integer that 64 bits hold, with or without a sign. -/
def Fits (n : Int) : Prop :=
  -(twoTo 63) ≤ n ∧ n < twoTo 64

theorem fits_of_natAbs {n : Int} (h : n.natAbs < twoTo 63) : Fits n := by
  have hle : twoTo 63 ≤ twoTo 64 := by decide
  unfold Fits
  omega

/-- The compact text of a document. -/
def chars (j : Json) : List Char :=
  j.compact.toList

/-- How a document begins. -/
def Begins (s : List Char) : Prop :=
  ∃ x t, s = x :: t ∧ Cursor.isJsonBlank x = false ∧ x ≠ ',' ∧ x ≠ ']'

theorem begins_cons {x : Char} (t : List Char)
    (h : Cursor.isJsonBlank x = false ∧ x ≠ ',' ∧ x ≠ ']') :
    Begins (x :: t) :=
  ⟨x, t, rfl, h⟩

theorem Begins.length_pos {s : List Char} (h : Begins s) : 0 < s.length := by
  obtain ⟨x, t, rfl, -⟩ := h
  exact Nat.succ_pos _

theorem begins_of_isDigit {x : Char} (t : List Char) (h : x.isDigit = true) : Begins (x :: t) := by
  have ne {y : Char} (hy : y.isDigit = false) : x ≠ y := by
    rintro rfl
    cases h.symm.trans hy
  have blank : Cursor.isJsonBlank x = false := by
    simp [Cursor.isJsonBlank, ne (y := ' ') (by decide), ne (y := '\n') (by decide),
      ne (y := '\t') (by decide), ne (y := '\r') (by decide)]
  exact begins_cons t ⟨blank, ne (by decide), ne (by decide)⟩

theorem begins_intText (n : Int) : Begins (intText n).toList := by
  rw [intText, String.toList_ofList]
  cases n with
  | ofNat n =>
    obtain ⟨x, ds, hx, hdigit⟩ := (Decimal.isDigits_natText n).exists_cons
    rw [Decimal.intText, hx]
    exact begins_of_isDigit ds hdigit
  | negSucc n => exact begins_cons _ (by decide)

theorem begins_chars {p : Int → Prop} {j : Json} (h : j.HasIntegers p) : Begins j.chars := by
  unfold chars
  cases h with
  | null => exact begins_cons _ (by decide)
  | bool b => cases b <;> exact begins_cons _ (by decide)
  | @int n h => exact begins_intText n
  | string s =>
    rw [compact, quote, String.toList_ofList]
    exact begins_cons _ (by decide)
  | array each =>
    rw [compact, String.toList_append, String.toList_append]
    exact begins_cons _ (by decide)
  | object each =>
    rw [compact, String.toList_append, String.toList_append]
    exact begins_cons _ (by decide)

/-! ### Lists -/

section Followed

variable {α : Type} (text : α → List Char)

/-- Texts of items, each behind a comma. -/
def followed (xs : List α) : List Char :=
  xs.flatMap fun x => ',' :: text x

theorem followed_cons (x : α) (xs : List α) :
    followed text (x :: xs) = ',' :: (text x ++ followed text xs) := by
  simp [followed]

theorem closes_followed (xs : List α) {close : Char}
    (hclose : close = ']' ∨ close = '\x7d') (r : List Char) :
    Closes (followed text xs ++ close :: r) := by
  intro x hx
  cases xs with
  | nil =>
    cases hx
    exact .inr hclose
  | cons y ys =>
    cases hx
    exact .inl rfl

end Followed

theorem toList_compactItems (j : Json) (rest : List Json) :
    (compactItems (j :: rest)).toList = j.chars ++ followed chars rest := by
  induction rest generalizing j with
  | nil => simp [compactItems, followed, chars]
  | cons next rest ih => simp [compactItems, followed, chars, ih next]

/-- The text of a field. -/
def fieldText (field : String × Json) : List Char :=
  (quote field.1).toList ++ ':' :: field.2.chars

theorem toList_compactFields (field : String × Json) (rest : List (String × Json)) :
    (compactFields (field :: rest)).toList = fieldText field ++ followed fieldText rest := by
  obtain ⟨name, j⟩ := field
  induction rest generalizing name j with
  | nil => simp [compactFields, followed, fieldText, chars]
  | cons next rest ih =>
    obtain ⟨next, j'⟩ := next
    simp [compactFields, followed, fieldText, chars, ih next]

section Items

variable {c : Cursor} {s r : List Char}

theorem nextItem_of_close (hc : c.rest = ']' :: r) (first : Bool) :
    nextItem c first = .ok none := by
  simp only [nextItem, Cursor.skipBlanks_of_head hc (by decide), hc]

theorem nextItem_of_begins (hs : Begins s) (hc : c.rest = s ++ r) :
    nextItem c true = .ok (some c) := by
  obtain ⟨x, t, rfl, hblank, hcomma, hclose⟩ := hs
  simp only [nextItem, Cursor.skipBlanks_of_head hc hblank, hc, List.cons_append]
  split
  · rename_i h
    cases h
  · rename_i h
    cases h
    exact absurd rfl hclose
  · rfl
  · rfl

theorem nextItem_of_comma (hs : Begins s) (hc : c.rest = ',' :: (s ++ r)) :
    nextItem c false = .ok (some c.advance) := by
  obtain ⟨x, t, rfl, hblank, hcomma, hclose⟩ := hs
  have next : c.advance.rest = x :: (t ++ r) := by
    rw [Cursor.rest_advance, hc]
    rfl
  simp only [nextItem, Cursor.skipBlanks_of_head hc (by decide), hc, Bool.false_eq_true, if_false,
    Cursor.skipBlanks_of_head next hblank, next]
  split
  · rename_i h
    cases h
  · rename_i h
    cases h
    exact absurd rfl hclose
  · rfl

/-- A value is read with enough fuel, at a depth. -/
def IsTaken (depth : Nat) (j : Json) : Prop :=
  ∀ fuel, 2 * j.chars.length ≤ fuel → Takes Closes (value fuel depth) j.chars j

variable {depth fuel : Nat} {j : Json} {items : List Json}

theorem items_of_close (hc : c.rest = ']' :: r) (first : Bool) :
    ∃ c', Json.items (fuel + 1) depth c first = .ok ([], c') ∧ c'.rest = r := by
  refine ⟨c.advance, ?_, by rw [Cursor.rest_advance, hc]; rfl⟩
  simp [Json.items, nextItem_of_close hc, Cursor.skipBlanks_of_head hc (by decide), bind,
    Except.bind]

theorem items_of_next {first : Bool} {c₁ : Cursor} (hnext : nextItem c first = .ok (some c₁))
    (hj : IsTaken depth j) (hf : 2 * j.chars.length ≤ fuel)
    (hrest : Takes (fun _ => True) (Json.items fuel depth · false)
      (followed chars items ++ [']']) items)
    (hc₁ : c₁.rest = j.chars ++ (followed chars items ++ ']' :: r)) :
    ∃ c', Json.items (fuel + 1) depth c first = .ok (j :: items, c') ∧ c'.rest = r := by
  obtain ⟨c₂, hv, hr₂⟩ := hj fuel hf c₁ _ hc₁ (closes_followed chars items (.inl rfl) r)
  obtain ⟨c₃, hi, hr₃⟩ := hrest c₂ r (by simp [hr₂]) trivial
  refine ⟨c₃, ?_, hr₃⟩
  simp [Json.items, hnext, hv, hi, bind, Except.bind]

/-- Reads the items behind the first. -/
theorem takes_items_rest (hread : ∀ j ∈ items, IsTaken depth j)
    (hbegins : ∀ j ∈ items, Begins j.chars) (hf : 2 * (followed chars items).length < fuel) :
    Takes (fun _ => True) (Json.items fuel depth · false)
      (followed chars items ++ [']']) items := by
  induction items generalizing fuel with
  | nil =>
    intro c r hc _
    obtain ⟨fuel, rfl⟩ : ∃ f, fuel = f + 1 := ⟨fuel - 1, by omega⟩
    exact items_of_close hc false
  | cons j items ih =>
    intro c r hc _
    obtain ⟨hj, hrest⟩ := List.forall_mem_cons.1 hread
    obtain ⟨hb, hbrest⟩ := List.forall_mem_cons.1 hbegins
    obtain ⟨fuel, rfl⟩ : ∃ f, fuel = f + 1 := ⟨fuel - 1, by omega⟩
    rw [followed_cons, List.length_cons, List.length_append] at hf
    rw [followed_cons, List.cons_append, List.cons_append, List.append_assoc,
      List.append_assoc] at hc
    exact items_of_next (nextItem_of_comma hb hc) hj (by omega) (ih hrest hbrest (by omega))
      (by rw [Cursor.rest_advance, hc]; rfl)

theorem takes_items (hread : ∀ j ∈ items, IsTaken depth j) (hbegins : ∀ j ∈ items, Begins j.chars)
    (hf : 2 * (compactItems items).toList.length < fuel) :
    Takes (fun _ => True) (Json.items fuel depth · true)
      ((compactItems items).toList ++ [']']) items := by
  intro c r hc _
  obtain ⟨fuel, rfl⟩ : ∃ f, fuel = f + 1 := ⟨fuel - 1, by omega⟩
  cases items with
  | nil => exact items_of_close hc true
  | cons j items =>
    obtain ⟨hj, hrest⟩ := List.forall_mem_cons.1 hread
    obtain ⟨hb, hbrest⟩ := List.forall_mem_cons.1 hbegins
    have hpos := hb.length_pos
    rw [toList_compactItems, List.append_assoc, List.append_assoc] at hc
    rw [toList_compactItems, List.length_append] at hf
    exact items_of_next (nextItem_of_begins hb hc) hj (by omega)
      (takes_items_rest hrest hbrest (by omega)) hc

end Items

section Fields

variable {c : Cursor} {r t : List Char} {depth fuel : Nat} {name : String} {j : Json}
  {before after : Fields Json}

theorem nextName_of_close (hc : c.rest = '\x7d' :: r) (first : Bool) :
    nextName c first = .ok none := by
  simp only [nextName, Cursor.skipBlanks_of_head hc (by decide), hc]

theorem nextName_of_quote (hc : c.rest = '"' :: t) : nextName c true = .ok (some c) := by
  simp [nextName, Cursor.skipBlanks_of_head hc (by decide), hc]

theorem nextName_of_comma (hc : c.rest = ',' :: '"' :: t) :
    nextName c false = .ok (some c.advance) := by
  have next : c.advance.rest = '"' :: t := by
    rw [Cursor.rest_advance, hc]
    rfl
  simp [nextName, Cursor.skipBlanks_of_head hc (by decide), hc,
    Cursor.skipBlanks_of_head next (by decide)]

theorem fields_of_close (hc : c.rest = '\x7d' :: r) (first : Bool) (before : Fields Json) :
    ∃ c', Json.fields (fuel + 1) depth c first before = .ok (before, c') ∧ c'.rest = r := by
  refine ⟨c.advance, ?_, by rw [Cursor.rest_advance, hc]; rfl⟩
  simp [Json.fields, nextName_of_close hc, Cursor.skipBlanks_of_head hc (by decide), bind,
    Except.bind]

theorem colon_of_head (hc : c.rest = ':' :: r) : colon c = .ok c.advance := by
  simp only [colon, Cursor.skipBlanks_of_head hc (by decide), hc]

theorem fields_of_next {first : Bool} {c₁ : Cursor} {rest : Fields Json}
    (hnext : nextName c first = .ok (some c₁)) (hj : IsTaken depth j)
    (hf : 2 * j.chars.length ≤ fuel)
    (hrest : Takes (fun _ => True) (Json.fields fuel depth · false (before.insert name j))
      (followed fieldText rest ++ ['\x7d']) after)
    (hc₁ : c₁.rest = fieldText (name, j) ++ (followed fieldText rest ++ '\x7d' :: r)) :
    ∃ c', Json.fields (fuel + 1) depth c first before = .ok (after, c') ∧ c'.rest = r := by
  have opening : c₁.advance.rest = name.toList.flatMap escapeChar ++ ['"'] ++
      (':' :: (j.chars ++ (followed fieldText rest ++ '\x7d' :: r))) := by
    rw [Cursor.rest_advance, hc₁, fieldText, quote, String.toList_ofList]
    simp
  obtain ⟨c₂, hs, hr₂⟩ := takes_stringFrom name c₁.advance _ opening trivial
  obtain ⟨c₃, hv, hr₃⟩ := hj fuel hf c₂.advance _ (by rw [Cursor.rest_advance, hr₂]; rfl)
    (closes_followed fieldText rest (.inr rfl) r)
  obtain ⟨c₄, hi, hr₄⟩ := hrest c₃ r (by simp [hr₃]) trivial
  refine ⟨c₄, ?_, hr₄⟩
  simp [Json.fields, hnext, hs, colon_of_head hr₂, hv, hi, bind, Except.bind]

theorem exists_fieldText (field : String × Json) : ∃ t, fieldText field = '"' :: t := by
  rw [fieldText, quote, String.toList_ofList]
  exact ⟨_, rfl⟩

theorem length_lt_fieldText (field : String × Json) :
    field.2.chars.length < (fieldText field).length := by
  rw [fieldText, List.length_append, List.length_cons]
  omega

/-- Reads the fields behind the first. -/
theorem takes_fields_rest {fields : Fields Json} (hread : ∀ field ∈ fields, IsTaken depth field.2)
    (hf : 2 * (followed fieldText fields).length < fuel) :
    Takes (fun _ => True) (Json.fields fuel depth · false before)
      (followed fieldText fields ++ ['\x7d'])
      (before.overlay fields) := by
  induction fields generalizing fuel before with
  | nil =>
    intro c r hc _
    obtain ⟨fuel, rfl⟩ : ∃ f, fuel = f + 1 := ⟨fuel - 1, by omega⟩
    exact fields_of_close hc false before
  | cons field fields ih =>
    intro c r hc _
    obtain ⟨hj, hrest⟩ := List.forall_mem_cons.1 hread
    obtain ⟨fuel, rfl⟩ : ∃ f, fuel = f + 1 := ⟨fuel - 1, by omega⟩
    have hlength := length_lt_fieldText field
    obtain ⟨t, ht⟩ := exists_fieldText field
    rw [followed_cons, List.length_cons, List.length_append] at hf
    rw [followed_cons, List.cons_append, List.cons_append, List.append_assoc,
      List.append_assoc] at hc
    refine fields_of_next (nextName_of_comma (t := t ++ _) (by rw [hc, ht]; rfl)) hj (by omega)
      (ih hrest (by omega)) (by rw [Cursor.rest_advance, hc]; rfl)

theorem takes_fields {fields : Fields Json} (hread : ∀ field ∈ fields, IsTaken depth field.2)
    (hf : 2 * (compactFields fields).toList.length < fuel) :
    Takes (fun _ => True) (Json.fields fuel depth · true [])
      ((compactFields fields).toList ++ ['\x7d'])
      (Fields.ofList fields) := by
  intro c r hc _
  obtain ⟨fuel, rfl⟩ : ∃ f, fuel = f + 1 := ⟨fuel - 1, by omega⟩
  cases fields with
  | nil => exact fields_of_close hc true []
  | cons field fields =>
    obtain ⟨hj, hrest⟩ := List.forall_mem_cons.1 hread
    have hlength := length_lt_fieldText field
    obtain ⟨t, ht⟩ := exists_fieldText field
    rw [toList_compactFields, List.append_assoc, List.append_assoc] at hc
    rw [toList_compactFields, List.length_append] at hf
    exact fields_of_next (nextName_of_quote (t := t ++ _) (by rw [hc, ht]; rfl)) hj (by omega)
      (takes_fields_rest hrest (by omega)) hc

end Fields

/-! ### Values -/

section Values

variable {c : Cursor} {r xs : List Char} {depth fuel : Nat}

/-- A number begins with a digit, and nothing else does. -/
theorem value_of_isDigit {x : Char} (hx : x.isDigit = true) (hc : c.rest = x :: r) :
    value (fuel + 1) depth c = number c false := by
  obtain ⟨_, _, he, hblank, -⟩ := begins_of_isDigit r hx
  cases he
  simp only [value, Cursor.skipBlanks_of_head hc hblank, hc]
  split
  case h_1 h => cases h
  case h_9 h =>
    cases h
    exact if_pos hx
  all_goals
    rename_i h
    cases h
    exact absurd hx (by decide)

theorem value_of_minus (hc : c.rest = '-' :: r) :
    value (fuel + 1) depth c = number c.advance true := by
  simp only [value, Cursor.skipBlanks_of_head hc (by decide), hc]

theorem value_of_quote (hc : c.rest = '"' :: r) : value (fuel + 1) depth c =
    (stringFrom c.advance).map fun (s, c) => (.string s, c) := by
  simp only [value, Cursor.skipBlanks_of_head hc (by decide), hc]
  cases stringFrom c.advance <;> rfl

theorem value_of_bracket (hc : c.rest = '[' :: r) (hd : 1 < depth) : value (fuel + 1) depth c =
    (items fuel (depth - 1) c.advance true).map fun (items, c) => (.array items, c) := by
  simp only [value, Cursor.skipBlanks_of_head hc (by decide), hc, if_neg (Nat.not_le.2 hd)]
  cases items fuel (depth - 1) c.advance true <;> rfl

theorem value_of_brace (hc : c.rest = '\x7b' :: r) (hd : 1 < depth) : value (fuel + 1) depth c =
    (fields fuel (depth - 1) c.advance true []).map fun (fields, c) => (.object fields, c) := by
  simp only [value, Cursor.skipBlanks_of_head hc (by decide), hc, if_neg (Nat.not_le.2 hd)]
  cases fields fuel (depth - 1) c.advance true [] <;> rfl

end Values

theorem isTaken_word {j : Json} {x : Char} {xs : List Char} (htext : j.chars = x :: xs)
    {depth : Nat}
    (hread : ∀ fuel c r, c.rest = x :: r →
      value (fuel + 1) depth c = (word c.advance xs).map (j, ·)) :
    IsTaken depth j := by
  intro fuel hf c r hc _
  rw [htext] at hf hc
  rw [List.length_cons] at hf
  obtain ⟨fuel, rfl⟩ : ∃ f, fuel = f + 1 := ⟨fuel - 1, by omega⟩
  obtain ⟨c', hw, hr⟩ :=
    rest_word (show c.advance.rest = xs ++ r by rw [Cursor.rest_advance, hc]; rfl)
  exact ⟨c', by rw [hread fuel c _ hc, hw]; rfl, hr⟩

theorem isTaken_int {n : Int} (h : Fits n) (depth : Nat) : IsTaken depth (.int n) := by
  intro fuel hf c r hc hr
  obtain ⟨low, high⟩ := h
  have hlength : 0 < (chars (.int n)).length := (begins_intText n).length_pos
  obtain ⟨fuel, rfl⟩ : ∃ f, fuel = f + 1 := ⟨fuel - 1, by omega⟩
  have htext : chars (.int n) = Decimal.intText n := by
    rw [chars, compact, intText, String.toList_ofList]
  rw [htext] at hc
  cases n with
  | ofNat n =>
    obtain ⟨x, ds, hx, hdigit⟩ := (Decimal.isDigits_natText n).exists_cons
    rw [value_of_isDigit (r := ds ++ r) hdigit (by rw [hc, Decimal.intText, hx]; rfl)]
    exact takes_number (Int.ofNat_lt.1 high) false nofun c r hc hr
  | negSucc n =>
    rw [value_of_minus (r := Decimal.natText (n + 1) ++ r) hc]
    have fits : n + 1 ≤ twoTo 63 := by omega
    exact takes_number (fits.trans_lt (by decide)) true (fun _ => ⟨n.succ_pos, fits⟩) c.advance r
      (by rw [Cursor.rest_advance, hc]; rfl) hr

theorem isTaken_string (s : String) (depth : Nat) : IsTaken depth (.string s) := by
  intro fuel hf c r hc hr
  have htext : chars (.string s) = '"' :: (s.toList.flatMap escapeChar ++ ['"']) := by
    rw [chars, compact, quote, String.toList_ofList]
    rfl
  rw [htext, List.length_cons] at hf
  rw [htext] at hc
  obtain ⟨fuel, rfl⟩ : ∃ f, fuel = f + 1 := ⟨fuel - 1, by omega⟩
  obtain ⟨c', hs, hr'⟩ := takes_stringFrom s c.advance r
    (by rw [Cursor.rest_advance, hc]; rfl) trivial
  exact ⟨c', by rw [value_of_quote hc, hs]; rfl, hr'⟩

theorem isTaken_array {items : List Json} {depth : Nat} (hd : 1 < depth)
    (hread : ∀ j ∈ items, IsTaken (depth - 1) j) (hbegins : ∀ j ∈ items, Begins j.chars) :
    IsTaken depth (.array items) := by
  intro fuel hf c r hc hr
  have htext : chars (.array items) = '[' :: ((compactItems items).toList ++ [']']) := by
    simp [chars, compact]
  rw [htext, List.length_cons, List.length_append] at hf
  rw [htext] at hc
  obtain ⟨fuel, rfl⟩ : ∃ f, fuel = f + 1 := ⟨fuel - 1, by omega⟩
  obtain ⟨c', hitems, hr'⟩ := takes_items hread hbegins
    (show 2 * (compactItems items).toList.length < fuel by omega) c.advance r
    (by rw [Cursor.rest_advance, hc]; rfl) trivial
  exact ⟨c', by rw [value_of_bracket hc hd]; exact congrArg (Except.map _) hitems, hr'⟩

theorem isTaken_object {fields : Fields Json} {depth : Nat} (hd : 1 < depth)
    (horder : fields.IsOrdered)
    (hread : ∀ field ∈ fields, IsTaken (depth - 1) field.2) : IsTaken depth (.object fields) := by
  intro fuel hf c r hc hr
  have htext : chars (.object fields) = '\x7b' :: ((compactFields fields).toList ++ ['\x7d']) := by
    simp [chars, compact]
  rw [htext, List.length_cons, List.length_append] at hf
  rw [htext] at hc
  obtain ⟨fuel, rfl⟩ : ∃ f, fuel = f + 1 := ⟨fuel - 1, by omega⟩
  obtain ⟨c', hfields, hr'⟩ := takes_fields hread
    (show 2 * (compactFields fields).toList.length < fuel by omega) c.advance r
    (by rw [Cursor.rest_advance, hc]; rfl) trivial
  rw [horder.ofList_self] at hfields
  exact ⟨c', by rw [value_of_brace hc hd]; exact congrArg (Except.map _) hfields, hr'⟩

/-- The text of a document is read as the document. -/
theorem isTaken_of_nestsWithin {levels : Nat} {j : Json} (hn : NestsWithin levels j)
    (ho : j.IsOrdered)
    (hi : j.HasIntegers Fits) {depth : Nat} (hd : levels < depth) : IsTaken depth j := by
  induction hn generalizing depth with
  | null levels =>
    refine isTaken_word (show chars .null = ['n', 'u', 'l', 'l'] from rfl) fun fuel c r hc => ?_
    simp only [value, Cursor.skipBlanks_of_head hc (by decide), hc]
  | bool levels b =>
    cases b with
    | false =>
      refine isTaken_word (show chars (.bool false) = ['f', 'a', 'l', 's', 'e'] from rfl)
        fun fuel c r hc => ?_
      simp only [value, Cursor.skipBlanks_of_head hc (by decide), hc]
    | true =>
      refine isTaken_word (show chars (.bool true) = ['t', 'r', 'u', 'e'] from rfl)
        fun fuel c r hc => ?_
      simp only [value, Cursor.skipBlanks_of_head hc (by decide), hc]
  | int levels n =>
    cases hi with
    | int h => exact isTaken_int h depth
  | float levels x => cases hi
  | string levels s => exact isTaken_string s depth
  | @array levels items each ih =>
    have hints := hasIntegers_array_iff.1 hi
    have hparts := isOrdered_array_iff.1 ho
    refine isTaken_array (by omega) (fun j hj => ?_) fun j hj => begins_chars (hints j hj)
    exact ih j hj (hparts j hj) (hints j hj) (by omega)
  | @object levels fields each ih =>
    have hints := hasIntegers_object_iff.1 hi
    obtain ⟨horder, hparts⟩ := isOrdered_object_iff.1 ho
    refine isTaken_object (by omega) horder fun field hf => ?_
    exact ih field hf (hparts field hf) (hints field hf) (by omega)

/-- A document in order of integers that 64 bits hold is read back from its compact text. -/
theorem read_compact {j : Json} (hn : NestsWithin 127 j) (ho : j.IsOrdered)
    (hi : j.HasIntegers Fits) :
    read j.compact = .ok j := by
  have taken : IsTaken depthLimit j := isTaken_of_nestsWithin hn ho hi (by decide)
  have hrest : (Cursor.start j.compact).rest = j.chars ++ [] := (List.append_nil _).symm
  obtain ⟨c, hv, hr⟩ := taken (2 * j.chars.length + 2) (by omega) (Cursor.start j.compact)
    [] hrest nofun
  unfold read
  have hvalue : value (2 * j.compact.toList.length + 2) depthLimit (Cursor.start j.compact) =
      .ok (j, c) := hv
  rw [hvalue]
  show (if c.skipBlanks.rest = [] then _ else _) = _
  rw [Cursor.skipBlanks_of_nil hr, if_pos hr]

/-- What was read is read back from its compact text. -/
theorem read_compact_of_read {text : String} {j : Json} (h : read text = .ok j)
    (hi : j.HasIntegers Fits) :
    read j.compact = .ok j :=
  read_compact (Invariant.nesting.of_read h) (isOrdered_of_read h) hi

end StaticSite.Json
