import StaticSite.Proofs.Decimal.Whole
import StaticSite.Proofs.Json.ReadBack
import StaticSite.Proofs.Task
import StaticSite.Template.Eval

/-!
# Documents through values

A document becomes a value and a value becomes a document. Integers below `10^15` survive this
(`Value.toJson_ofJson_iff`), while greater ones come back as doubles, also those that a double holds
exactly. So a template that parses a text of the former and prints it again prints the document that
was read (`parsed_stringify`).
-/

namespace StaticSite.Template

namespace Value

/-! ## Numbers -/

/-- The bound below which a whole number becomes an integer. -/
theorem integerBound : (1e15 : Float) = Float.ofNat (10 ^ 15) := by
  have words : (1e15 : Float).toModel = (Float.ofNat (10 ^ 15)).toModel := by decide +kernel
  exact congrArg Float.ofModel words

theorem numberJson_ofInt_of_lt {n : Int} (h : n.natAbs < 2 ^ 53) :
    numberJson (Float.ofInt n) = if n.natAbs < 10 ^ 15 then .int n else .float (Float.ofInt n) := by
  by_cases hn : n = 0
  · subst hn
    have small : (Float.ofInt 0).abs < 1e15 := by decide
    rw [numberJson, isIntegral_ofInt h, truncate_ofInt h, decide_eq_true small]
    rfl
  · have below : (Float.ofInt n).abs < 1e15 ↔ n.natAbs < 10 ^ 15 := by
      rw [abs_ofInt hn h, integerBound,
        ofNat_lt_ofNat (Int.natAbs_pos.2 hn) h (by decide) (by decide)]
    rw [numberJson, isIntegral_ofInt h, Bool.true_and, truncate_ofInt h, isFinite_ofInt hn h]
    simp only [decide_eq_true_eq, below, if_true]

/-- An integer comes back as itself or, from `10^15` on, as its double. -/
theorem numberJson_ofInt {n : Int} (h : n.natAbs ≤ 2 ^ 53) :
    numberJson (Float.ofInt n) = if n.natAbs < 10 ^ 15 then .int n else .float (Float.ofInt n) := by
  rcases Nat.lt_or_eq_of_le h with hlt | heq
  · exact numberJson_ofInt_of_lt hlt
  -- the bound itself is twice a full mantissa, unlike the numbers below it
  · have large : (isIntegral (Float.ofInt n) && decide ((Float.ofInt n).abs < 1e15)) = false ∧
        (Float.ofInt n).isFinite = true := by
      have ends : n = 2 ^ 53 ∨ n = -2 ^ 53 := by omega
      rcases ends with rfl | rfl <;> decide
    rw [numberJson, large.1, large.2, if_neg (show ¬ n.natAbs < 10 ^ 15 by omega)]
    rfl

/-! ## Documents -/

@[simp]
theorem isUndefined_ofJson (j : Json) : (ofJson j).isUndefined = false := by
  cases j <;> rfl

mutual

/-- A document of integers comes back if and only if these are below `10^15`. -/
theorem toJson_ofJson_iff : ∀ j : Json, (j.HasIntegers fun n => n.natAbs ≤ 2 ^ 53) →
    ((ofJson j).toJson = j ↔ j.HasIntegers fun n => n.natAbs < 10 ^ 15)
  | .null, _ => ⟨fun _ => .null, fun _ => rfl⟩
  | .bool b, _ => ⟨fun _ => .bool b, fun _ => rfl⟩
  | .int n, .int h => by
    rw [ofJson, toJson, numberJson_ofInt h, Json.hasIntegers_int_iff]
    split <;> simp_all
  | .string s, _ => ⟨fun _ => .string s, fun _ => rfl⟩
  | .array items, .array h => by
    rw [ofJson, toJson, Json.array.injEq, Json.hasIntegers_array_iff]
    exact toItems_ofItems_iff items h
  | .object fields, .object h => by
    rw [ofJson, toJson, Json.object.injEq, Json.hasIntegers_object_iff]
    exact toFields_ofFields_iff fields h

theorem toItems_ofItems_iff :
    ∀ items : List Json, (∀ j ∈ items, j.HasIntegers fun n => n.natAbs ≤ 2 ^ 53) →
    (toItems (ofItems items) = items ↔ ∀ j ∈ items, j.HasIntegers fun n => n.natAbs < 10 ^ 15)
  | [], _ => ⟨fun _ => nofun, fun _ => rfl⟩
  | j :: rest, h => by
    obtain ⟨hj, hrest⟩ := List.forall_mem_cons.1 h
    rw [ofItems, toItems, List.cons.injEq, toJson_ofJson_iff j hj, toItems_ofItems_iff rest hrest,
      List.forall_mem_cons]

theorem toFields_ofFields_iff : ∀ fields : List (String × Json),
    (∀ field ∈ fields, field.2.HasIntegers fun n => n.natAbs ≤ 2 ^ 53) →
    (toFields (ofFields fields) = fields ↔ ∀ field ∈ fields,
      field.2.HasIntegers fun n => n.natAbs < 10 ^ 15)
  | [], _ => ⟨fun _ => nofun, fun _ => rfl⟩
  | (name, j) :: rest, h => by
    obtain ⟨hj, hrest⟩ := List.forall_mem_cons.1 h
    rw [ofFields, toFields, definedField, isUndefined_ofJson, List.forall_mem_cons,
      ← toJson_ofJson_iff j hj, ← toFields_ofFields_iff rest hrest]
    simp

end

/-! ## References -/

theorem isUndefined_label (v : Value) (next : Nat) :
    (label next v).1.isUndefined = v.isUndefined := by
  cases v <;> rfl

theorem definedField_label (name : String) (v : Value) (next : Nat) (j : Json) :
    definedField name (label next v).1 j = definedField name v j := by
  rw [definedField, definedField, isUndefined_label]

mutual

/-- Reference numbers do not show in documents. -/
theorem toJson_label : ∀ (v : Value) (next : Nat), (label next v).1.toJson = v.toJson
  | .array _ items, next => congrArg Json.array (toItems_label items (next + 1))
  | .object _ fields, next => congrArg Json.object (toFields_label fields (next + 1))
  | .date _ y m d, next => by
    simp only [label, toJson, definedField_label, toJson_label y, toJson_label m, toJson_label d]
  | .undefined, _ | .null, _ | .bool _, _ | .number _, _ | .string _, _ => rfl

theorem toItems_label :
    ∀ (items : List Value) (next : Nat), toItems (labelItems next items).1 = toItems items
  | [], _ => rfl
  | v :: rest, next => by
    simp only [labelItems, toItems, toJson_label v, toItems_label rest]

theorem toFields_label : ∀ (fields : List (String × Value)) (next : Nat),
    toFields (labelFields next fields).1 = toFields fields
  | [], _ => rfl
  | (name, v) :: rest, next => by
    simp only [labelFields, toFields, definedField_label, toJson_label v, toFields_label rest]

end

end Value

/-! ## Calls -/

section Calls

variable {s s' : State} {e : Expr} {v : Value}

theorem run_evalArgs_singleton (h : (eval e).run.run s = (.ok v, s')) :
    (evalArgs [e]).run.run s = (.ok [.value v], s') := by
  cases e with
  | arrow params body =>
    rw [eval] at h
    cases h
  | _ =>
    rw [evalArgs, Task.run_bind, h, evalArgs]
    · rfl
    · simp

/-- A function under a namespace is called with the value of its argument. -/
theorem run_namespaceCall {owner : String} (name : String) (hown : isNamespace owner = true)
    (hs : s.scope.get? owner = none) (h : (eval e).run.run s = (.ok v, s')) :
    (eval (.call (.member (.name owner) name false) [e])).run.run s =
      (callNamespace owner name [.value v]).run.run s' := by
  have owned : (ownerOf (.name owner)).run.run s = (.ok (some owner), s) := by
    show (Except.ok (if isNamespace owner && (s.scope.get? owner).isNone then some owner else none),
      s) = _
    rw [hown, hs]
    rfl
  rw [eval, callMember, Task.run_bind, owned]
  dsimp only
  rw [Task.run_bind, run_evalArgs_singleton h]

/-- `JSON.stringify(JSON.parse(e))` -/
def Expr.reprinted (e : Expr) : Expr :=
  .call (.member (.name "JSON") "stringify" false)
    [.call (.member (.name "JSON") "parse" false) [e]]

/-- Parsing a text and printing the value prints the document that the value of the text stands
for. -/
theorem run_reprinted {j : Json} (hs : s.scope.get? "JSON" = none)
    (h : (eval e).run.run s = (.ok v, s'))
    (hread : Json.read v.toText = .ok j) : ∃ next, (eval e.reprinted).run.run s =
      (.ok (.string (Value.ofJson j).toJson.compact), { s' with next }) := by
  have parsed : (eval (.call (.member (.name "JSON") "parse" false) [e])).run.run s =
      (.ok ((Value.ofJson j).label s'.next).1,
        { s' with next := ((Value.ofJson j).label s'.next).2 }) := by
    rw [run_namespaceCall "parse" (by decide) hs h]
    show (parseJson v.toText).run.run s' = _
    rw [parseJson, hread]
    rfl
  refine ⟨((Value.ofJson j).label s'.next).2, ?_⟩
  rw [Expr.reprinted, run_namespaceCall "stringify" (by decide) hs parsed]
  show (Except.ok (stringify ((Value.ofJson j).label s'.next).1 false), _) = _
  rw [stringify, Value.isUndefined_label, Value.isUndefined_ofJson, Value.toJson_label]
  rfl

end Calls

/-- A document of integers up to `2^53` comes back from its value as it was if and only if all of
them are below `10^15`; from there on an integer comes back as a double. In the former case a
template that parses a text of the document and prints what it got writes a text of the document. -/
theorem documents_through_values {j : Json} (hj : j.HasIntegers fun n => n.natAbs ≤ 2 ^ 53) :
    ((Value.ofJson j).toJson = j ↔ j.HasIntegers fun n => n.natAbs < 10 ^ 15) ∧
    (∀ n : Int, 10 ^ 15 ≤ n.natAbs → n.natAbs ≤ 2 ^ 53 →
      (Value.ofJson (.int n)).toJson = .float (Float.ofInt n)) ∧
    ∀ s s' e v, s.scope.get? "JSON" = none → (eval e).run.run s = (.ok v, s') →
      Json.read v.toText = .ok j → ∃ text next,
        (eval e.reprinted).run.run s = (.ok (.string text), { s' with next }) ∧
        ((j.HasIntegers fun n => n.natAbs < 10 ^ 15) →
          text = j.compact ∧ Json.read text = .ok j) := by
  refine ⟨Value.toJson_ofJson_iff j hj, fun n hlarge hn => ?_, fun s s' e v hs he hread => ?_⟩
  · rw [Value.ofJson, Value.toJson, Value.numberJson_ofInt hn, if_neg (Nat.not_lt.2 hlarge)]
  · obtain ⟨next, hrun⟩ := run_reprinted hs he hread
    refine ⟨_, next, hrun, fun hsmall => ?_⟩
    have hfits : j.HasIntegers Json.Fits := hj.mono fun n hn =>
      Json.fits_of_natAbs (hn.trans_lt (by decide))
    rw [(Value.toJson_ofJson_iff j hj).2 hsmall]
    exact ⟨rfl, Json.read_compact_of_read hread hfits⟩

/-- A nested document with the least integer that comes back. -/
theorem documents_through_values_of_nested :
    let j : Json := .object [("a", .array [.int 1, .int (-999999999999999)])]
    let text := "\x7b\"a\":[1,-999999999999999]\x7d"
    let s : State := ⟨⟨[], []⟩, 0, []⟩
    (j.HasIntegers fun n => n.natAbs ≤ 2 ^ 53) ∧ Json.read text = .ok j ∧
    (Value.ofJson j).toJson = j ∧
      ∃ next, (eval (Expr.literal (.string text)).reprinted).run.run s =
        (.ok (.string text), { s with next }) := by
  intro j text s
  have ints {p : Int → Prop} (h : p 1) (h' : p (-999999999999999)) : j.HasIntegers p := by
    simp [j, Json.hasIntegers_object_iff, Json.hasIntegers_array_iff, Json.hasIntegers_int_iff, h,
      h']
  have within : j.HasIntegers fun n => n.natAbs ≤ 2 ^ 53 := ints (by decide) (by decide)
  have small : j.HasIntegers fun n => n.natAbs < 10 ^ 15 := ints (by decide) (by decide)
  have nests : Json.NestsWithin 127 j := by
    refine .object (List.forall_mem_singleton.2 (.array (List.forall_mem_cons.2 ⟨?_, ?_⟩)))
    · exact .int _ 1
    · exact List.forall_mem_singleton.2 (.int _ _)
  have ordered : j.IsOrdered := by
    refine .object (by decide)
      (List.forall_mem_singleton.2 (.array (List.forall_mem_cons.2 ⟨?_, ?_⟩)))
    · exact .int 1
    · exact List.forall_mem_singleton.2 (.int _)
  have printed : j.compact = text := rfl
  have read : Json.read text = .ok j :=
    printed ▸ Json.read_compact nests ordered
      (ints (Json.fits_of_natAbs (by decide)) (Json.fits_of_natAbs (by decide)))
  obtain ⟨back, -, runs⟩ := documents_through_values within
  obtain ⟨text', next, hrun, hsmall⟩ := runs s s (.literal (.string text)) (.string text) rfl
    (by rw [eval]; rfl) read
  rw [(hsmall small).1, printed] at hrun
  exact ⟨within, read, back.2 small, next, hrun⟩

/-- Integers that doubles hold exactly, printed as doubles. -/
theorem documents_through_values_differ :
    let j : Json := .array [.int (10 ^ 15), .int (-2 ^ 53)]
    (j.HasIntegers fun n => n.natAbs ≤ 2 ^ 53) ∧ (Value.ofJson j).toJson ≠ j ∧
      j.compact = "[1000000000000000,-9007199254740992]" ∧
      (Value.ofJson j).toJson.compact = "[1000000000000000.0,-9007199254740992.0]" := by
  intro j
  have within : j.HasIntegers fun n => n.natAbs ≤ 2 ^ 53 := by
    simp [j, Json.hasIntegers_array_iff, Json.hasIntegers_int_iff]
  have printed : j.compact = "[1000000000000000,-9007199254740992]" := rfl
  have reprinted : (Value.ofJson j).toJson.compact =
      "[1000000000000000.0,-9007199254740992.0]" := by
    decide +kernel
  refine ⟨within, fun h => ?_, printed, reprinted⟩
  rw [h, printed] at reprinted
  exact absurd reprinted (by decide)

end StaticSite.Template
