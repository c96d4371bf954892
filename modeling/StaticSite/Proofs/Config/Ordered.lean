import StaticSite.Config.Basic
import StaticSite.Proofs.Fields
import StaticSite.Proofs.Json.Reading

/-!
# Documents in order

Whatever is read from a text is a document in order: each of its objects, at every level, holds its
fields in the order of their names (`Config.isOrdered_of_parse`). Both readers put a field where it
belongs, and the tables of a TOML text are in order when the documents that they stand for are.
-/

namespace StaticSite

/-- Each object, at every level, holds its fields in order. -/
inductive Json.IsOrdered : Json → Prop where
  | null : IsOrdered .null
  | bool (b : Bool) : IsOrdered (.bool b)
  | int (n : Int) : IsOrdered (.int n)
  | float (x : Float) : IsOrdered (.float x)
  | string (s : String) : IsOrdered (.string s)
  | array {items : List Json} (each : ∀ j ∈ items, j.IsOrdered) : IsOrdered (.array items)
  | object {fields : Fields Json} (order : fields.IsOrdered)
    (each : ∀ field ∈ fields, field.2.IsOrdered) :
    IsOrdered (.object fields)

namespace Json

variable {j : Json} {fields : Fields Json} {name : String}

theorem isOrdered_array_iff {items : List Json} :
    (array items).IsOrdered ↔ ∀ j ∈ items, j.IsOrdered :=
  ⟨fun | .array each => each, .array⟩

theorem isOrdered_object_iff :
    (object fields).IsOrdered ↔ fields.IsOrdered ∧ ∀ field ∈ fields, field.2.IsOrdered :=
  ⟨fun | .object order each => ⟨order, each⟩, fun h => .object h.1 h.2⟩

theorem isOrdered_object_nil : (object []).IsOrdered :=
  .object .nil nofun

theorem IsOrdered.of_get? (h : (Json.object fields).IsOrdered)
    (hj : Fields.get? fields name = some j) :
    j.IsOrdered :=
  (isOrdered_object_iff.1 h).2 _ (Fields.mem_of_get? hj)

theorem IsOrdered.insert (h : (Json.object fields).IsOrdered) (hj : j.IsOrdered) (name : String) :
    (Json.object (Fields.insert name j fields)).IsOrdered := by
  obtain ⟨order, each⟩ := isOrdered_object_iff.1 h
  refine .object (order.insert name j) fun field hf => ?_
  rcases Fields.mem_insert (v := field.2) hf with he | hm
  · obtain rfl : field = (name, j) := he
    exact hj
  · exact each field hm

/-! ## Reading JSON -/

/-- What the reader puts together is in order. -/
def Invariant.ordered : Invariant where
  holds _ := IsOrdered
  null _ := .null
  bool _ := .bool
  int _ := .int
  float _ := .float
  string _ := .string
  array := .array
  noFields _ := isOrdered_object_nil
  insert name hf hj := hf.insert hj name

theorem isOrdered_of_read {text : String} (h : read text = .ok j) : j.IsOrdered :=
  Invariant.ordered.of_read h

end Json

/-! ## Reading TOML -/

namespace Toml

/-- The document that the table stands for is in order. -/
def Table.IsOrdered (table : Table) : Prop :=
  (Json.object (fieldsToJson table)).IsOrdered

theorem get?_fieldsToJson (table : Table) (name : String) :
    Fields.get? (fieldsToJson table) name = (Fields.get? table name).map Node.toJson := by
  induction table with
  | nil => rfl
  | cons field rest ih =>
    obtain ⟨n, node⟩ := field
    rw [fieldsToJson, Fields.get?_cons, Fields.get?_cons, ih]
    split <;> rfl

theorem fieldsToJson_insert (table : Table) (name : String) (node : Node) :
    fieldsToJson (Fields.insert name node table) =
      Fields.insert name node.toJson (fieldsToJson table) := by
  induction table with
  | nil => rfl
  | cons field rest ih =>
    obtain ⟨n, other⟩ := field
    rw [Fields.insert, fieldsToJson, Fields.insert]
    split
    · rfl
    · split
      · rfl
      · rw [fieldsToJson, ih]

theorem mem_tablesToJson {items : List Table} {j : Json} :
    j ∈ tablesToJson items ↔ ∃ table ∈ items, Json.object (fieldsToJson table) = j := by
  induction items with
  | nil => simp [tablesToJson]
  | cons table rest ih =>
    rw [tablesToJson, List.mem_cons, ih, List.exists_mem_cons_iff]
    exact or_congr_left eq_comm

theorem isOrdered_tables_iff {items : List Table} :
    (Node.tables items).toJson.IsOrdered ↔ ∀ table ∈ items, Table.IsOrdered table := by
  rw [Node.toJson, Json.isOrdered_array_iff]
  simp only [List.mem_reverse, mem_tablesToJson]
  exact ⟨fun h table ht => h _ ⟨table, ht, rfl⟩, fun h _ ⟨table, ht, he⟩ => he ▸ h table ht⟩

namespace Table

variable {table table' inner : Table} {dotted : Bool} {name : String} {names : List String}
  {value : Json}

theorem isOrdered_nil : IsOrdered [] :=
  Json.isOrdered_object_nil

theorem IsOrdered.insert (h : table.IsOrdered) (name : String) (node : Node)
    (hn : node.toJson.IsOrdered) :
    IsOrdered (Fields.insert name node table) := by
  unfold IsOrdered
  rw [fieldsToJson_insert]
  exact Json.IsOrdered.insert h hn name

theorem IsOrdered.of_get? (h : table.IsOrdered) {node : Node}
    (hn : Fields.get? table name = some node) :
    node.toJson.IsOrdered := by
  have hj : Fields.get? (fieldsToJson table) name = some node.toJson := by
    rw [get?_fieldsToJson, hn]
    rfl
  exact Json.IsOrdered.of_get? h hj

theorem IsOrdered.child? (h : table.IsOrdered) (hc : table.child? dotted name = some inner) :
    inner.IsOrdered := by
  unfold Table.child? at hc
  split at hc
  · cases hc
    exact isOrdered_nil
  · cases hc
  · rename_i hg
    split at hc
    · cases hc
    · cases hc
      exact h.of_get? hg
  · cases hc
  · rename_i hg
    cases hc
    exact isOrdered_tables_iff.1 (h.of_get? hg) _ List.mem_cons_self

theorem IsOrdered.putChild (h : table.IsOrdered) (hi : inner.IsOrdered) :
    (table.putChild dotted name inner).IsOrdered := by
  unfold Table.putChild
  split
  · exact h.insert name (.table _ inner) hi
  · rename_i hg
    have hall := List.forall_mem_cons.1 (isOrdered_tables_iff.1 (h.of_get? hg))
    exact h.insert name _ (isOrdered_tables_iff.2 (List.forall_mem_cons.2 ⟨hi, hall.2⟩))
  · exact h.insert name (.table _ inner) hi

/-- A change at the end of a chain of keys keeps the order when it keeps that of the table there. -/
theorem IsOrdered.update {change : Table → Option Table}
    (hchange : ∀ {t t' : Table}, t.IsOrdered → change t = some t' → t'.IsOrdered)
    (h : table.IsOrdered)
    (hu : table.update dotted change names = some table') : table'.IsOrdered := by
  induction names generalizing table table' with
  | nil => exact hchange h hu
  | cons name names ih =>
    obtain ⟨inner, hc, hu⟩ := Option.bind_eq_some_iff.1 hu
    obtain ⟨changed, hi, hu⟩ := Option.bind_eq_some_iff.1 hu
    cases hu
    exact h.putChild (ih (h.child? hc) hi)

theorem IsOrdered.add (h : table.IsOrdered) (hv : value.IsOrdered)
    (ha : table.add name value = some table') :
    table'.IsOrdered := by
  unfold Table.add at ha
  split at ha
  · cases ha
  · cases ha
    exact h.insert name (.value value) hv

theorem IsOrdered.addDotted (h : table.IsOrdered) (hv : value.IsOrdered)
    (ha : table.addDotted names name value = some table') : table'.IsOrdered := by
  unfold Table.addDotted at ha
  split at ha
  · exact h.update (fun ht => ht.add hv) ha
  · cases ha

theorem IsOrdered.openTable (h : table.IsOrdered) (ho : table.openTable name = some table') :
    table'.IsOrdered := by
  unfold Table.openTable at ho
  split at ho
  · cases ho
    exact h.insert name (.table .header []) isOrdered_nil
  · rename_i hg
    cases ho
    have hi := h.of_get? hg
    exact h.insert name (.table .header _) hi
  · cases ho

theorem IsOrdered.openNext (h : table.IsOrdered) (ho : table.openNext name = some table') :
    table'.IsOrdered := by
  unfold Table.openNext at ho
  split at ho
  · cases ho
    refine h.insert name _ (isOrdered_tables_iff.2 fun t ht => ?_)
    rw [List.mem_singleton.1 ht]
    exact isOrdered_nil
  · rename_i hg
    cases ho
    exact h.insert name _ (isOrdered_tables_iff.2
      (List.forall_mem_cons.2 ⟨isOrdered_nil, isOrdered_tables_iff.1 (h.of_get? hg)⟩))
  · cases ho

end Table

theorem isOrdered_of_fitting? {n : Int} {j : Json} (h : fitting? n = some j) : j.IsOrdered := by
  unfold fitting? at h
  split at h
  · cases h
    exact .int n
  · cases h

theorem isOrdered_of_integer? {s : List Char} {j : Json} (h : integer? s = some j) :
    j.IsOrdered := by
  unfold integer? at h
  split at h <;>
    · obtain ⟨_, -, h⟩ := Option.bind_eq_some_iff.1 h
      exact isOrdered_of_fitting? h

theorem isOrdered_of_double? {s : List Char} {j : Json} (h : double? s = some j) : j.IsOrdered := by
  unfold double? at h
  dsimp only at h
  split at h
  · cases h
    exact .null
  · obtain ⟨text, -, h⟩ := Option.bind_eq_some_iff.1 h
    obtain ⟨x, -, h⟩ := Option.bind_eq_some_iff.1 h
    split at h
    · cases h
    · split at h
      · cases h
        exact .null
      · cases h
        exact .float x

theorem isOrdered_of_scalar? {s : List Char} {j : Json} (h : scalar? s = some j) : j.IsOrdered := by
  unfold scalar? at h
  split at h
  · cases h
    exact .bool true
  · split at h
    · cases h
      exact .bool false
    · rcases Option.or_eq_some_iff.1 h with h | ⟨-, h⟩
      · obtain ⟨text, -, rfl⟩ := Option.map_eq_some_iff.1 h
        exact Json.isOrdered_object_nil.insert (.string _) _
      · rcases Option.or_eq_some_iff.1 h with h | ⟨-, h⟩
        · exact isOrdered_of_integer? h
        · exact isOrdered_of_double? h

/-- What is read with some fuel is in order. -/
structure ReadsInOrder (fuel : Nat) : Prop where
  value : ∀ {depth : Nat} {s r : List Char} {j : Json},
    value? depth fuel s = some (j, r) → j.IsOrdered
  items : ∀ {depth : Nat} {s r : List Char} {js : List Json},
    items? depth fuel s = some (js, r) → (Json.array js).IsOrdered
  pairs : ∀ {depth : Nat} {s r : List Char} {table table' : Table},
    table.IsOrdered → pairs? depth fuel table s = some (table', r) → table'.IsOrdered

theorem readsInOrder_zero : ReadsInOrder 0 where
  value h := by cases h
  items h := by cases h
  pairs _ h := by cases h

theorem ReadsInOrder.value_succ {fuel depth : Nat} {s r : List Char} {j : Json}
    (ih : ReadsInOrder fuel) (h : value? depth (fuel + 1) s = some (j, r)) : j.IsOrdered := by
  unfold value? at h
  split at h
  · obtain ⟨_, -, he⟩ := Option.map_eq_some_iff.1 h
    cases he
    exact .string _
  · obtain ⟨_, -, he⟩ := Option.map_eq_some_iff.1 h
    cases he
    exact .string _
  · split at h
    · cases h
    · obtain ⟨_, hi, h⟩ := Option.bind_eq_some_iff.1 h
      cases h
      exact ih.items hi
  · split at h
    · cases h
    · split at h
      · cases h
        exact Json.isOrdered_object_nil
      · obtain ⟨_, hp, h⟩ := Option.bind_eq_some_iff.1 h
        cases h
        exact ih.pairs Table.isOrdered_nil hp
  · obtain ⟨_, hs, he⟩ := Option.map_eq_some_iff.1 h
    cases he
    exact isOrdered_of_scalar? hs

theorem ReadsInOrder.items_succ {fuel depth : Nat} {s r : List Char} {js : List Json}
    (ih : ReadsInOrder fuel)
    (h : items? depth (fuel + 1) s = some (js, r)) : (Json.array js).IsOrdered := by
  unfold items? at h
  split at h
  · cases h
    exact .array nofun
  · obtain ⟨_, hv, h⟩ := Option.bind_eq_some_iff.1 h
    dsimp only at h
    split at h
    · obtain ⟨_, hi, h⟩ := Option.bind_eq_some_iff.1 h
      cases h
      exact Json.isOrdered_array_iff.2
        (List.forall_mem_cons.2 ⟨ih.value hv, Json.isOrdered_array_iff.1 (ih.items hi)⟩)
    · cases h
      exact Json.isOrdered_array_iff.2 (List.forall_mem_singleton.2 (ih.value hv))
    · cases h

theorem ReadsInOrder.pairs_succ {fuel depth : Nat} {s r : List Char} {table table' : Table}
    (ih : ReadsInOrder fuel) (ht : table.IsOrdered)
    (h : pairs? depth (fuel + 1) table s = some (table', r)) : table'.IsOrdered := by
  unfold pairs? at h
  obtain ⟨_, -, h⟩ := Option.bind_eq_some_iff.1 h
  dsimp only at h
  split at h
  · obtain ⟨_, hv, h⟩ := Option.bind_eq_some_iff.1 h
    obtain ⟨added, ha, h⟩ := Option.bind_eq_some_iff.1 h
    have hadded := ht.addDotted (ih.value hv) ha
    split at h
    · exact ih.pairs hadded h
    · cases h
      exact hadded
    · cases h
  · cases h

theorem readsInOrder (fuel : Nat) : ReadsInOrder fuel := by
  induction fuel with
  | zero => exact readsInOrder_zero
  | succ fuel ih => exact ⟨ih.value_succ, ih.items_succ, ih.pairs_succ⟩

theorem Draft.isOrdered_of_add {d d' : Draft} {key : List String} {value : Json}
    (hd : d.root.IsOrdered)
    (hv : value.IsOrdered) (h : d.add key value = some d') : d'.root.IsOrdered := by
  obtain ⟨root, hr, h⟩ := Option.bind_eq_some_iff.1 h
  cases h
  exact hd.update (fun ht hc => ht.addDotted hv hc) hr

theorem Draft.isOrdered_of_openAt {d d' : Draft} {key : List String}
    {openLast : String → Table → Option Table} (hd : d.root.IsOrdered)
    (hopen : ∀ {name : String} {t t' : Table}, t.IsOrdered → openLast name t = some t' →
      t'.IsOrdered)
    (h : d.openAt key openLast = some d') : d'.root.IsOrdered := by
  obtain ⟨root, hr, h⟩ := Option.bind_eq_some_iff.1 h
  cases h
  exact hd.update hopen hr

theorem isOrdered_of_line? {d d' : Draft} {s r : List Char} (hd : d.root.IsOrdered)
    (h : line? d s = some (d', r)) : d'.root.IsOrdered := by
  unfold line? at h
  split at h
  · cases h
    exact hd
  · cases h
    exact hd
  · cases h
    exact hd
  · cases h
    exact hd
  · obtain ⟨_, -, h⟩ := Option.bind_eq_some_iff.1 h
    obtain ⟨_, ho, h⟩ := Option.bind_eq_some_iff.1 h
    cases h
    exact Draft.isOrdered_of_openAt hd (fun ht => ht.openNext) ho
  · obtain ⟨_, -, h⟩ := Option.bind_eq_some_iff.1 h
    obtain ⟨_, ho, h⟩ := Option.bind_eq_some_iff.1 h
    cases h
    exact Draft.isOrdered_of_openAt hd (fun ht => ht.openTable) ho
  · obtain ⟨_, -, h⟩ := Option.bind_eq_some_iff.1 h
    dsimp only at h
    split at h
    · obtain ⟨_, hv, h⟩ := Option.bind_eq_some_iff.1 h
      obtain ⟨_, ha, h⟩ := Option.bind_eq_some_iff.1 h
      cases h
      exact Draft.isOrdered_of_add hd ((readsInOrder _).value hv) ha
    · cases h

theorem isOrdered_of_lines? {fuel : Nat} {d d' : Draft} {s : List Char} (hd : d.root.IsOrdered)
    (h : lines? fuel d s = some d') : d'.root.IsOrdered := by
  induction fuel generalizing d s with
  | zero => cases h
  | succ fuel ih =>
    unfold lines? at h
    obtain ⟨_, hl, h⟩ := Option.bind_eq_some_iff.1 h
    have hline := isOrdered_of_line? hd hl
    dsimp only at h
    split at h
    · cases h
      exact hline
    · obtain ⟨_, -, h⟩ := Option.bind_eq_some_iff.1 h
      exact ih hline h

theorem isOrdered_of_read? {text : String} {j : Json} (h : read? text = some j) : j.IsOrdered := by
  obtain ⟨d, hd, h⟩ := Option.bind_eq_some_iff.1 h
  cases h
  exact isOrdered_of_lines? Table.isOrdered_nil hd

end Toml

/-! ## Configurations -/

namespace Config

variable {disk : Disk} {path : Path} {text : String} {document : Json}

/-- A document is read from a text as the extension of its path says. -/
theorem parse_eq_ok_iff : parse path text = .ok document ↔
    (if isToml path then Toml.read? text else (Json.read text).toOption) = some document := by
  unfold parse
  split
  · cases Toml.read? text <;> simp
  · cases Json.read text <;> simp [Except.toOption]

theorem readDocument_eq_ok_iff : readDocument disk path = .ok document ↔
    ∃ text, disk.readText path = .ok text ∧ parse path text = .ok document := by
  unfold readDocument
  split
  · rename_i text ht
    simp [ht]
  · rename_i ht
    simp [ht]
  · rename_i cause ht
    simp [ht]

theorem load_eq_ok_iff {α : Type} {shape : Json → Except SpecFault α} {spec : α} :
    load shape disk path = .ok spec ↔
      ∃ document, readDocument disk path = .ok document ∧ shape document = .ok spec := by
  unfold load
  rw [Except.bind_eq_ok_iff]
  refine exists_congr fun document => and_congr_right fun _ => ?_
  cases shape document with
  | error cause => exact ⟨nofun, nofun⟩
  | ok other =>
    constructor <;>
      · intro h
        cases h
        rfl

/-- The documents of configurations are in order. -/
theorem isOrdered_of_parse (h : parse path text = .ok document) : document.IsOrdered := by
  rw [parse_eq_ok_iff] at h
  split at h
  · exact Toml.isOrdered_of_read? h
  · exact Json.isOrdered_of_read (Except.toOption_eq_some_iff.1 h)

theorem isOrdered_of_readDocument (h : readDocument disk path = .ok document) :
    document.IsOrdered := by
  obtain ⟨text, -, hp⟩ := readDocument_eq_ok_iff.1 h
  exact isOrdered_of_parse hp

end Config

end StaticSite
