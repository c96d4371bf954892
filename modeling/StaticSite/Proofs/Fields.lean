import Mathlib.Data.List.Sort
import StaticSite.Spec.Shape

/-!
# Fields in order

Writing a field keeps the order of the names (`IsOrdered.insert`), so whatever is built from writes
is in order, and fields in order are the same when each name has the same value in both
(`IsOrdered.ext`).
-/

namespace StaticSite.Fields

variable {α : Type} {fields other : Fields α} {name : String} {value : α}

theorem get?_insert (name : String) (value : α) (fields : Fields α) (n : String) :
    get? (fields.insert name value) n = if n = name then some value else get? fields n := by
  split
  · rename_i he
    rw [he, get?_insert_self]
  · rename_i hne
    exact get?_insert_of_ne hne value fields

theorem has_insert (name : String) (value : α) (fields : Fields α) (n : String) :
    has (fields.insert name value) n = (n == name || has fields n) := by
  unfold has
  rw [get?_insert]
  by_cases h : n = name <;> simp [h]

theorem get?_cons (pair : String × α) (fields : Fields α) (n : String) :
    get? (pair :: fields) n = if n = pair.1 then some pair.2 else get? fields n := by
  unfold get?
  rw [List.lookup_cons]
  split
  · rename_i he
    rw [if_pos (beq_iff_eq.1 he)]
  · rename_i he
    rw [if_neg (beq_eq_false_iff_ne.1 he)]

theorem mem_of_get? (h : get? fields name = some value) : (name, value) ∈ fields := by
  obtain ⟨before, after, rfl, -⟩ := List.lookup_eq_some_iff.1 h
  exact List.mem_append_right _ List.mem_cons_self

theorem get?_eq_none_iff : get? fields name = none ↔ name ∉ fields.names := by
  unfold get? names
  rw [List.lookup_eq_none_iff, List.mem_map]
  exact ⟨fun h ⟨pair, hp, he⟩ => bne_iff_ne.1 (h pair hp) he.symm,
    fun h pair hp => bne_iff_ne.2 fun he => h ⟨pair, hp, he.symm⟩⟩

theorem get?_without (fields : Fields α) (gone : List String) (name : String) :
    get? (fields.without gone) name = if name ∈ gone then none else get? fields name := by
  induction fields with
  | nil => simp [without]
  | cons pair rest ih =>
    unfold without at ih ⊢
    by_cases hp : pair.1 ∈ gone
    · rw [List.filter_cons_of_neg (by simpa using hp), ih, get?_cons]
      split
      · rfl
      · rename_i hn
        rw [if_neg fun he : name = pair.1 => hn (he ▸ hp)]
    · rw [List.filter_cons_of_pos (by simpa using hp), get?_cons, get?_cons, ih]
      by_cases he : name = pair.1
      · rw [if_pos he, if_pos he, if_neg (he ▸ hp)]
      · rw [if_neg he, if_neg he]

/-- What is written over other fields wins. -/
theorem get?_overlay {extra : Fields α} (h : extra.names.Nodup) (fields : Fields α)
    (name : String) :
    get? (fields.overlay extra) name = (get? extra name).or (get? fields name) := by
  induction extra generalizing fields with
  | nil => rfl
  | cons pair rest ih =>
    obtain ⟨hn, hrest⟩ := List.nodup_cons.1 h
    have he : fields.overlay (pair :: rest) = (fields.insert pair.1 pair.2).overlay rest := rfl
    rw [he, ih hrest, get?_insert, get?_cons]
    split
    · rename_i hname
      rw [get?_eq_none_iff.2 (hname ▸ hn), Option.none_or, Option.some_or]
    · rfl

theorem get?_ofList {pairs : List (String × α)} (h : (pairs.map Prod.fst).Nodup) (name : String) :
    get? (ofList pairs) name = pairs.lookup name :=
  (get?_overlay h [] name).trans Option.or_none

theorem get?_overlay_of_notMem {extra : Fields α} (h : name ∉ extra.names) (fields : Fields α) :
    get? (fields.overlay extra) name = get? fields name := by
  induction extra generalizing fields with
  | nil => rfl
  | cons pair rest ih =>
    have hn : name ≠ pair.1 ∧ name ∉ names rest := not_or.1 fun hm => h (List.mem_cons.2 hm)
    exact (ih hn.2 _).trans (get?_insert_of_ne hn.1 pair.2 fields)

/-- The names ascend, so each stands once. -/
def IsOrdered (fields : Fields α) : Prop :=
  fields.Pairwise fun a b => a.1 < b.1

instance (fields : Fields α) : Decidable fields.IsOrdered :=
  inferInstanceAs (Decidable (List.Pairwise _ fields))

/-- Only the names matter for the order. -/
theorem isOrdered_iff : fields.IsOrdered ↔ fields.names.Pairwise (· < ·) :=
  List.pairwise_map.symm

namespace IsOrdered

theorem nil : IsOrdered ([] : Fields α) :=
  List.Pairwise.nil

theorem nodup (h : IsOrdered fields) : fields.names.Nodup :=
  List.pairwise_map.2 (h.imp fun {a b} hlt (he : a.1 = b.1) => String.lt_irrefl b.1 (he ▸ hlt))

theorem without (h : IsOrdered fields) (gone : List String) : IsOrdered (fields.without gone) :=
  h.filter _

theorem insert (h : IsOrdered fields) (name : String) (value : α) :
    IsOrdered (fields.insert name value) := by
  induction fields with
  | nil => exact List.pairwise_singleton _ _
  | cons pair rest ih =>
    obtain ⟨hpair, hrest⟩ := List.pairwise_cons.1 h
    unfold Fields.insert
    split
    · rename_i hlt
      refine List.pairwise_cons.2 ⟨fun p hp => ?_, h⟩
      rcases List.mem_cons.1 hp with rfl | hp
      · exact hlt
      · exact String.lt_trans hlt (hpair p hp)
    · split
      · rename_i he
        exact List.pairwise_cons.2 ⟨fun p hp => he ▸ hpair p hp, hrest⟩
      · rename_i hnlt hne
        refine List.pairwise_cons.2 ⟨fun p hp => ?_, ih hrest⟩
        rcases mem_insert (v := p.2) hp with he | hp
        · obtain rfl : p = (name, value) := he
          exact ((Std.lt_trichotomy name pair.1).resolve_left hnlt).resolve_left hne
        · exact hpair p hp

theorem overlay (h : IsOrdered fields) (extra : Fields α) : IsOrdered (fields.overlay extra) := by
  induction extra generalizing fields with
  | nil => exact h
  | cons pair rest ih => exact ih (h.insert pair.1 pair.2)

theorem ofList (pairs : List (String × α)) : IsOrdered (ofList pairs) :=
  nil.overlay pairs

theorem mem_iff (h : IsOrdered fields) (pair : String × α) :
    pair ∈ fields ↔ get? fields pair.1 = some pair.2 := by
  refine ⟨fun hm => ?_, mem_of_get?⟩
  induction fields with
  | nil => cases hm
  | cons first rest ih =>
    obtain ⟨hfirst, hrest⟩ := List.pairwise_cons.1 h
    rw [get?_cons]
    rcases List.mem_cons.1 hm with rfl | hm
    · rw [if_pos rfl]
    · rw [if_neg fun he => String.lt_irrefl _ (he ▸ hfirst pair hm), ih hrest hm]

/-- Fields in order are given by the values under their names. -/
theorem ext (h : IsOrdered fields) (ho : IsOrdered other) (he : ∀ n, get? fields n = get? other n) :
    fields = other := by
  have : Std.Antisymm fun a b : String × α => a.1 < b.1 :=
    ⟨fun _ _ hab hba => absurd hba (String.lt_asymm hab)⟩
  have : Std.Irrefl fun a b : String × α => a.1 < b.1 := ⟨fun a => String.lt_irrefl a.1⟩
  refine List.Pairwise.eq_of_mem_iff h ho fun pair => ?_
  rw [h.mem_iff, ho.mem_iff, he]

theorem ofList_self (h : IsOrdered fields) : Fields.ofList fields = fields :=
  (IsOrdered.ofList fields).ext h fun n => get?_ofList h.nodup n

end IsOrdered

end StaticSite.Fields
