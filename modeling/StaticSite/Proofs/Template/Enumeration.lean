import StaticSite.Proofs.Decimal.Whole
import StaticSite.Proofs.Fields
import StaticSite.Proofs.Task
import StaticSite.Proofs.Template.Spelling
import StaticSite.Template.Eval

/-!
# Keys and what stands at them

The parts of a value are what enumeration goes through, each with its key (`Value.parts`). Loops
over the keys and the functions under `Object` agree with access by key (`Value.access_agrees`),
save for two kinds of keys. The positions of a text are enumerated as the keys of its characters,
but a key finds no character; only a number does. And an array has an item at each spelling of its
position, while it enumerates one of them.
-/

namespace StaticSite.Template

/-! ## Spelled positions -/

theorem toList_indexText (i : Nat) : (indexText i).toList = Decimal.natText i :=
  String.toList_ofList

theorem indexText_injective : Function.Injective indexText := fun i j h => by
  have hd : Decimal.natText i = Decimal.natText j := String.ofList_injective h
  rw [← Decimal.digitsValue_natText i, hd, Decimal.digitsValue_natText]

theorem positionOfName?_indexText {i : Nat} (h : i < twoTo 64) :
    positionOfName? (indexText i) = some i := by
  obtain ⟨hne, hall⟩ := Decimal.isDigits_natText i
  unfold positionOfName?
  rw [toList_indexText]
  extract_lets ds
  have hds : ds = Decimal.natText i := by
    unfold ds
    split
    · rename_i r hs
      have := hall '+' (hs ▸ List.mem_cons_self)
      simp at this
    · rfl
  simpa [hds, hne, h, Decimal.digitsValue_natText] using hall

/-- Whether a key spells a position with a sign or with leading zeros. -/
def isPadded (key : String) : Bool :=
  (positionOfName? key).any fun i => indexText i != key

theorem eq_indexText_of_positionOfName? {key : String} {i : Nat} (h : positionOfName? key = some i)
    (hp : isPadded key = false) : key = indexText i := by
  simp [isPadded, h] at hp
  exact hp.symm

theorem nearestFloat_zero {i : Nat} (h : i < twoTo 53) :
    Decimal.nearestFloat i 0 = Float.ofNat i := by
  have hdigits : (Decimal.natText i).length ≤ 16 :=
    (Nat.length_toDigits_le_iff (by decide) (by decide)).2 (h.trans (by decide))
  unfold Decimal.nearestFloat
  by_cases hi : i = 0
  · subst hi
    decide +kernel
  · simp only
    rw [if_neg (by omega), if_neg (by omega), if_pos le_rfl]
    rfl

theorem trim_of_not_isBlank {s : List Char} (h : ∀ c ∈ s, Text.isBlank c = false) :
    Text.trim s = s := by
  have drop {t : List Char} (h : ∀ c ∈ t, Text.isBlank c = false) :
      t.dropWhile Text.isBlank = t := by
    cases t with
    | nil => rfl
    | cons c r => simp [h c List.mem_cons_self]
  unfold Text.trim Text.trimStart Text.trimEnd
  rw [drop h, drop fun c hc => h c (List.mem_reverse.1 hc), List.reverse_reverse]

/-- The number that the key of a position spells is the position. -/
theorem toNumber_indexText {i : Nat} (h : i < twoTo 53) :
    (Value.string (indexText i)).toNumber = Float.ofNat i := by
  obtain ⟨hne, hall⟩ := Decimal.isDigits_natText i
  have htrim : Text.trim (Decimal.natText i) = Decimal.natText i :=
    trim_of_not_isBlank fun c hc =>
      Decimal.of_isDigit (P := (Text.isBlank · = false)) (by decide) (hall c hc)
  unfold Value.toNumber Value.numberOfText
  simp only [toList_indexText, htrim, if_neg hne, float?_natText, Option.getD_some]
  exact nearestFloat_zero h

theorem positionOfKey?_ofNat {i : Nat} (h : i < twoTo 53) :
    positionOfKey? (.number (Float.ofNat i)) = some i := by
  simp only [positionOfKey?, zero_le_ofNat h, isIntegral_ofNat h, truncate_ofNat h, and_self,
    if_true, Int.toNat_natCast]

/-! ## Parts -/

namespace Value

/-- Items under the texts of their positions. -/
def numbered (items : List Value) : Fields Value :=
  items.mapIdx fun i v => (indexText i, v)

/-- What a value holds, each part under its key, in the order of enumeration. -/
def parts : Value → Fields Value
  | object _ fields => fields
  | date _ y m d => [("year", y), ("month", m), ("day", d)]
  | array _ items => numbered items
  | string s => numbered (s.toList.map fun c => string (String.singleton c))
  | undefined | null | bool _ | number _ => []

/-- The part under a key. -/
def part (v : Value) (key : String) : Value :=
  (Fields.get? v.parts key).getD undefined

/-- Whether a value is an array. -/
def isArray : Value → Bool
  | array .. => true
  | _ => false

/-- Whether the parts of a value have positions. -/
def isIndexed : Value → Bool
  | array .. | string _ => true
  | _ => false

theorem names_numbered (items : List Value) :
    (numbered items).names = (List.range items.length).map indexText := by
  apply List.ext_getElem
  · simp [numbered, Fields.names]
  · simp [numbered, Fields.names]

theorem get?_mapIdx {name : Nat → String} (h : Function.Injective name) (items : List Value)
    (i : Nat) :
    Fields.get? (items.mapIdx fun i v => (name i, v)) (name i) = items[i]? := by
  induction items generalizing name i with
  | nil => simp
  | cons v rest ih =>
    rw [List.mapIdx_cons, Fields.get?_cons]
    cases i with
    | zero => simp
    | succ i =>
      rw [if_neg fun he => by simpa using h he, List.getElem?_cons_succ]
      exact ih (h.comp Nat.succ_injective) i

theorem get?_numbered (items : List Value) (i : Nat) :
    Fields.get? (numbered items) (indexText i) = items[i]? :=
  get?_mapIdx indexText_injective items i

/-- The keys of items are the texts of their positions. -/
theorem exists_of_get?_numbered {items : List Value} {key : String} {e : Value}
    (h : Fields.get? (numbered items) key = some e) :
    ∃ i, key = indexText i ∧ items[i]? = some e := by
  have hmem : key ∈ (numbered items).names := by
    by_contra hn
    simp [Fields.get?_eq_none_iff.2 hn] at h
  rw [names_numbered] at hmem
  obtain ⟨i, -, rfl⟩ := List.mem_map.1 hmem
  exact ⟨i, rfl, by rwa [get?_numbered] at h⟩

theorem ownKeys_eq_names (v : Value) : v.ownKeys = v.parts.names := by
  cases v with
  | array ref items => exact (names_numbered items).symm
  | string s =>
    have := names_numbered (s.toList.map fun c => string (String.singleton c))
    rw [List.length_map, String.length_toList] at this
    exact this.symm
  | _ => rfl

/-! ## Access -/

theorem index_string (v : Value) (key : String) : v.index (string key) = v.property key := by
  cases v <;> simp [index, positionOfKey?, toText]

theorem property_of_get? {v e : Value} {key : String} (hs : v.asString? = none)
    (hlen : v.parts.length ≤ twoTo 64) (h : Fields.get? v.parts key = some e) :
    v.property key = .ok e := by
  cases v with
  | undefined | null | bool b | number x => simp [parts] at h
  | string s => simp [asString?] at hs
  | object ref fields => simp [property, show Fields.get? fields key = some e from h]
  | date ref y m d =>
    simp only [parts, Fields.get?_cons, Fields.get?_nil] at h
    simp only [property]
    split_ifs at h ⊢ <;> simp_all
  | array ref items =>
    obtain ⟨i, rfl, hi⟩ := exists_of_get?_numbered h
    have hlt : i < twoTo 64 := by
      have := (List.getElem?_eq_some_iff.1 hi).1
      simp only [parts, numbered, List.length_mapIdx] at hlen
      omega
    have hlength : indexText i ≠ "length" := by
      intro he
      have hspelled := positionOfName?_indexText hlt
      have hnone : positionOfName? "length" = none := by decide
      simp [he, hnone] at hspelled
    simp [property, hlength, positionOfName?_indexText hlt, hi]

theorem property_of_notMem {v : Value} {key : String} (hn : v.isNullish = false)
    (hp : v.isArray → isPadded key = false) (hlen : key ≠ "length") (h : key ∉ v.parts.names) :
    v.property key = .ok undefined := by
  cases v with
  | undefined | null => simp [isNullish] at hn
  | bool b | number x => rfl
  | string s => simp [property, hlen]
  | object ref fields =>
    simp [property, Fields.get?_eq_none_iff.2 (show key ∉ Fields.names fields from h)]
  | date ref y m d =>
    simp [parts, Fields.names] at h
    simp [property, h]
  | array ref items =>
    cases hk : positionOfName? key with
    | none => simp [property, hlen, hk]
    | some i =>
      obtain rfl := eq_indexText_of_positionOfName? hk (hp rfl)
      have hi : items[i]? = none := by
        rw [← get?_numbered]
        exact Fields.get?_eq_none_iff.2 h
      simp [property, hlen, hk, hi]

theorem index_of_position {v e : Value} {key : String} (hv : v.isIndexed)
    (h : Fields.get? v.parts key = some e) :
    ∃ i, key = indexText i ∧ ∀ x, positionOfKey? (number x) = some i →
      v.index (number x) = .ok e := by
  cases v with
  | undefined | null | bool b | number x | object ref fields | date ref y m d =>
    simp [isIndexed] at hv
  | array ref items =>
    obtain ⟨i, hkey, hi⟩ := exists_of_get?_numbered h
    exact ⟨i, hkey, fun x hx => by simp [index, hx, hi]⟩
  | string s =>
    obtain ⟨i, hkey, hi⟩ := exists_of_get?_numbered h
    rw [List.getElem?_map] at hi
    exact ⟨i, hkey, fun x hx => by simp [index, hx, charAt?, hi]⟩

end Value

/-! ## Enumeration -/

section Entries

variable {v : Value}

theorem run_objectEntries_keys (keys : List String) (s : State) :
    (objectEntries v "keys" keys).run.run s = (.ok (keys.map .string), s) := by
  induction keys with
  | nil => rfl
  | cons key rest ih =>
    rw [objectEntries, Task.run_bind_eq_ok]
    exact ⟨.string key, s, rfl, Task.run_bind_eq_ok.2 ⟨_, s, ih, rfl⟩⟩

variable {keys : List String} (h : ∀ key ∈ keys, v.property key = .ok (v.part key))

include h

theorem run_objectEntries_values (s : State) :
    (objectEntries v "values" keys).run.run s = (.ok (keys.map v.part), s) := by
  induction keys with
  | nil => rfl
  | cons key rest ih =>
    have hentry : (objectEntry v "values" key).run.run s = (.ok (v.part key), s) := by
      simp only [objectEntry, h key List.mem_cons_self]
      rfl
    rw [objectEntries, Task.run_bind_eq_ok]
    exact ⟨_, s, hentry, Task.run_bind_eq_ok.2
      ⟨_, s, ih fun k hk => h k (List.mem_cons_of_mem key hk), rfl⟩⟩

theorem run_objectEntries_entries (s : State) :
    (objectEntries v "entries" keys).run.run s =
      (.ok (keys.mapIdx fun i key => .array (s.next + i) [.string key, v.part key]),
        { s with next := s.next + keys.length }) := by
  induction keys generalizing s with
  | nil => rfl
  | cons key rest ih =>
    have hentry : (objectEntry v "entries" key).run.run s =
        (.ok (.array s.next [.string key, v.part key]), { s with next := s.next + 1 }) := by
      simp only [objectEntry, h key List.mem_cons_self]
      rfl
    have hrest := ih (fun k hk => h k (List.mem_cons_of_mem key hk)) { s with next := s.next + 1 }
    simp only [Nat.add_assoc, Nat.add_comm 1] at hrest
    rw [objectEntries, Task.run_bind_eq_ok]
    refine ⟨_, _, hentry, Task.run_bind_eq_ok.2 ⟨_, _, hrest, ?_⟩⟩
    rw [List.mapIdx_cons]
    rfl

end Entries

/-- What `Object.keys`, `Object.values` or `Object.entries` does with a value that has parts. -/
theorem run_callNamespace_object {v : Value} (hn : v.isNullish = false) {name : String}
    (hname : name ∈ ["keys", "values", "entries"]) {s s' : State} {items : List Value}
    (h : (objectEntries v name v.ownKeys).run.run s = (.ok items, s')) :
    (callNamespace "Object" name [.value v]).run.run s =
      (.ok (.array s'.next items), { s' with next := s'.next + 1 }) := by
  have hfunction : (objectFunction name v).run.run s =
      (.ok (.array s'.next items), { s' with next := s'.next + 1 }) := by
    simp only [objectFunction, hn]
    exact Task.run_bind_eq_ok.2 ⟨items, s', h, rfl⟩
  simp only [List.mem_cons, List.not_mem_nil, or_false] at hname
  rcases hname with rfl | rfl | rfl <;> exact hfunction

/-- Enumeration goes through the parts of a value, and each key gives its part. A text has its parts
at positions only, and an array has no other part than those that it enumerates, unless a key spells
a position with a sign or with leading zeros. -/
structure Value.AccessAgrees (v : Value) : Prop where
  loop : ∀ (limit : Nat) (binding : String) (source : Expr) (body : Stmt) (s s' : State),
    (eval source).run.run s = (.ok v, s') →
      (exec limit (.forIn binding source body)).run.run s =
        (do
          forEach binding (exec limit body) (v.parts.names.map .string)
          return Flow.normal).run.run s'
  keys : ∀ s : State, (callNamespace "Object" "keys" [.value v]).run.run s =
    (.ok (.array s.next (v.parts.names.map .string)), { s with next := s.next + 1 })
  values : v.asString? = none → ∀ s : State,
    (callNamespace "Object" "values" [.value v]).run.run s =
    (.ok (.array s.next (v.parts.names.map v.part)), { s with next := s.next + 1 })
  entries : v.asString? = none →
    ∀ s : State, (callNamespace "Object" "entries" [.value v]).run.run s =
    (.ok (.array (s.next + v.parts.length)
        (v.parts.names.mapIdx fun i key => .array (s.next + i) [.string key, v.part key])),
      { s with next := s.next + v.parts.length + 1 })
  byKey : v.asString? = none → ∀ key e, Fields.get? v.parts key = some e →
    v.index (.string key) = .ok e
  byPosition : v.isIndexed → ∀ key e, Fields.get? v.parts key = some e →
    ∃ i, key = indexText i ∧
      (∀ x, positionOfKey? (.number x) = some i → v.index (.number x) = .ok e) ∧
      (i < twoTo 53 → v.index (.number (Value.string key).toNumber) = .ok e)
  absent : ∀ key, key ∉ v.parts.names → key ≠ "length" → (v.isArray → isPadded key = false) →
    v.index (.string key) = .ok .undefined

theorem Value.property_of_mem {v : Value} (hs : v.asString? = none)
    (hlen : v.parts.length ≤ twoTo 64) :
    ∀ key ∈ v.parts.names, v.property key = .ok (v.part key) := by
  intro key hkey
  cases hget : Fields.get? v.parts key with
  | none => exact absurd hkey (Fields.get?_eq_none_iff.1 hget)
  | some e => simp [property_of_get? hs hlen hget, part, hget]

/-- Positions are machine words, so no array of a run has more than `2^64` items. -/
theorem Value.access_agrees {v : Value} (hn : v.isNullish = false)
    (hlen : v.parts.length ≤ twoTo 64) :
    v.AccessAgrees where
  loop limit binding source body s s' h := by
    rw [exec, Task.run_bind, h, ← ownKeys_eq_names]
  keys s := by
    rw [← ownKeys_eq_names]
    exact run_callNamespace_object hn (by simp) (run_objectEntries_keys v.ownKeys s)
  values hs s := by
    have hentries := run_objectEntries_values (property_of_mem hs hlen) s
    rw [← ownKeys_eq_names] at hentries ⊢
    exact run_callNamespace_object hn (by simp) hentries
  entries hs s := by
    have hentries := run_objectEntries_entries (property_of_mem hs hlen) s
    have hlength : v.parts.names.length = v.parts.length := List.length_map _
    rw [hlength, ← ownKeys_eq_names] at hentries
    rw [← ownKeys_eq_names]
    exact run_callNamespace_object hn (by simp) hentries
  byKey hs key e h := by
    rw [index_string, property_of_get? hs hlen h]
  byPosition hv key e h := by
    obtain ⟨i, rfl, hi⟩ := index_of_position hv h
    refine ⟨i, rfl, hi, fun hlt => ?_⟩
    rw [toNumber_indexText hlt]
    exact hi _ (positionOfKey?_ofNat hlt)
  absent key h hlength hp := by
    rw [index_string, property_of_notMem hn hp hlength h]

theorem Value.access_agrees_letters :
    (array 0 [string "x", string "y"]).AccessAgrees ∧
      (array 0 [string "x", string "y"]).index (string "1") = .ok (string "y") :=
  have h : (array 0 [string "x", string "y"]).AccessAgrees := access_agrees rfl (by decide)
  ⟨h, h.byKey rfl "1" (string "y") rfl⟩

/-- The keys of a text find nothing, while the numbers that they spell find its characters; and an
array has an item under a key that it does not enumerate. -/
theorem Value.access_differs :
    ("0" ∈ (string "ab").ownKeys ∧ (string "ab").index (string "0") = .ok undefined ∧
      (string "ab").index (number (Float.ofNat 0)) = .ok (string "a")) ∧
    ("01" ∉ (array 0 [string "x", string "y"]).ownKeys ∧
      (array 0 [string "x", string "y"]).index (string "01") = .ok (string "y")) := by
  have hzero : positionOfKey? (number (Float.ofNat 0)) = some 0 := positionOfKey?_ofNat (by decide)
  refine ⟨⟨by decide, rfl, ?_⟩, by decide, rfl⟩
  simp [index, hzero, charAt?]

end StaticSite.Template
