/-!
# Named fields

The fields of an object are pairs of a name and a value, kept in ascending order of the names, each
name once. Writing a field replaces the value under its name or puts the pair where it belongs.
-/

namespace StaticSite

/-- Pairs in ascending order of their names. -/
abbrev Fields (α : Type) := List (String × α)

namespace Fields

variable {α β : Type}

/-- The value under a name. -/
def get? (fields : Fields α) (name : String) : Option α :=
  fields.lookup name

/-- Whether there is a value under a name. -/
def has (fields : Fields α) (name : String) : Bool :=
  (fields.get? name).isSome

/-- Writes a field in its place. -/
def insert (name : String) (value : α) : Fields α → Fields α
  | [] => [(name, value)]
  | (n, v) :: rest =>
    if name < n then (name, value) :: (n, v) :: rest
    else if name = n then (name, value) :: rest
    else (n, v) :: insert name value rest

/-- Collects pairs, of which a later one replaces an earlier one of its name. -/
def ofList (pairs : List (String × α)) : Fields α :=
  pairs.foldl (fun fields (name, value) => fields.insert name value) []

/-- The names, in order. -/
def names (fields : Fields α) : List String :=
  fields.map Prod.fst

/-- Changes each value and keeps the names. -/
def mapValues (f : α → β) (fields : Fields α) : Fields β :=
  fields.map fun (n, v) => (n, f v)

@[simp]
theorem get?_nil (name : String) : get? ([] : Fields α) name = none := rfl

theorem get?_insert_self (name : String) (value : α) (fields : Fields α) :
    get? (insert name value fields) name = some value := by
  induction fields with
  | nil => simp [insert, get?]
  | cons p rest ih =>
    obtain ⟨n, v⟩ := p
    unfold insert
    split
    · simp [get?]
    · split
      · simp [get?]
      · rename_i h
        simp only [get?, List.lookup_cons] at ih ⊢
        rw [show (name == n) = false by simpa using h]
        exact ih

theorem get?_insert_of_ne {name other : String} (h : other ≠ name) (value : α)
    (fields : Fields α) : get? (insert name value fields) other = get? fields other := by
  have hb : (other == name) = false := by simpa using h
  induction fields with
  | nil => simp [insert, get?, List.lookup_cons, hb]
  | cons p rest ih =>
    obtain ⟨n, v⟩ := p
    unfold insert
    split
    · simp [get?, List.lookup_cons, hb]
    · split
      · rename_i hn
        subst hn
        simp [get?, List.lookup_cons, hb]
      · simp only [get?, List.lookup_cons] at ih ⊢
        rw [ih]

theorem mem_insert {name n : String} {value v : α} {fields : Fields α}
    (h : (n, v) ∈ insert name value fields) : (n, v) = (name, value) ∨ (n, v) ∈ fields := by
  induction fields with
  | nil => exact .inl (List.mem_singleton.1 h)
  | cons p rest ih =>
    unfold insert at h
    split at h
    · exact (List.mem_cons.1 h).imp_right id
    · split at h
      · exact (List.mem_cons.1 h).imp_right (List.mem_cons_of_mem p)
      · rcases List.mem_cons.1 h with h | h
        · exact .inr (h ▸ List.mem_cons_self)
        · exact (ih h).imp_right (List.mem_cons_of_mem p)

end Fields

end StaticSite
