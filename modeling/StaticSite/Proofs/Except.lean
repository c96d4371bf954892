import Mathlib.Data.List.Forall2

/-!
# Computations that may fail

When a sequence of two computations succeeds, both do, and when it fails, one of them does; when a
list is mapped with success, each item is.
-/

namespace StaticSite

variable {ε α β : Type}

theorem Except.bind_eq_ok_iff {x : Except ε α} {f : α → Except ε β} {b : β} :
    x >>= f = .ok b ↔ ∃ a, x = .ok a ∧ f a = .ok b := by
  cases x with
  | error e => simp [Bind.bind, Except.bind]
  | ok a => simp [Bind.bind, Except.bind]

theorem Except.bind_eq_error_iff {x : Except ε α} {f : α → Except ε β} {cause : ε} :
    x >>= f = .error cause ↔ x = .error cause ∨ ∃ a, x = .ok a ∧ f a = .error cause := by
  cases x with
  | error e => simp [Bind.bind, Except.bind]
  | ok a => simp [Bind.bind, Except.bind]

theorem Except.toOption_eq_some_iff {x : Except ε α} {a : α} : x.toOption = some a ↔ x = .ok a := by
  cases x with
  | error e => simp [Except.toOption]
  | ok b => simp [Except.toOption]

theorem Except.map_eq_ok_iff {x : Except ε α} {f : α → β} {b : β} :
    x.map f = .ok b ↔ ∃ a, x = .ok a ∧ f a = b := by
  cases x with
  | error e => simp [Except.map]
  | ok a => simp [Except.map]

theorem Except.map_eq_error_iff {x : Except ε α} {f : α → β} {cause : ε} :
    x.map f = .error cause ↔ x = .error cause := by
  cases x with
  | error e => simp [Except.map]
  | ok a => simp [Except.map]

theorem Except.mapError_eq_ok_iff {δ : Type} {x : Except δ α} {f : δ → ε} {a : α} :
    x.mapError f = .ok a ↔ x = .ok a := by
  cases x with
  | error e => simp [Except.mapError]
  | ok b => simp [Except.mapError]

theorem Except.mapError_eq_error_iff {δ : Type} {x : Except δ α} {f : δ → ε} {cause : ε} :
    x.mapError f = .error cause ↔ ∃ inner, x = .error inner ∧ f inner = cause := by
  cases x with
  | error e => simp [Except.mapError]
  | ok b => simp [Except.mapError]

theorem mapM_eq_ok_iff {f : α → Except ε β} {xs : List α} {ys : List β} :
    xs.mapM f = .ok ys ↔ List.Forall₂ (fun x y => f x = .ok y) xs ys := by
  induction xs generalizing ys with
  | nil =>
    rw [List.mapM_nil, List.forall₂_nil_left_iff]
    exact ⟨fun h => by cases h; rfl, fun h => h ▸ rfl⟩
  | cons x xs ih =>
    rw [List.mapM_cons, Except.bind_eq_ok_iff]
    constructor
    · rintro ⟨y, hy, h⟩
      obtain ⟨rest, hr, h⟩ := Except.bind_eq_ok_iff.1 h
      cases h
      exact .cons hy (ih.1 hr)
    · rintro (_ | ⟨hy, hr⟩)
      exact ⟨_, hy, Except.bind_eq_ok_iff.2 ⟨_, ih.2 hr, rfl⟩⟩

theorem exists_mem_of_mapM {f : α → Except ε β} {xs : List α} {ys : List β} {y : β}
    (h : xs.mapM f = .ok ys) (hy : y ∈ ys) : ∃ x ∈ xs, f x = .ok y := by
  induction mapM_eq_ok_iff.1 h with
  | nil => cases hy
  | cons hxy hrest ih =>
    rcases List.mem_cons.1 hy with rfl | hy
    · exact ⟨_, List.mem_cons_self, hxy⟩
    · obtain ⟨x, hx, hf⟩ := ih (mapM_eq_ok_iff.2 hrest) hy
      exact ⟨x, List.mem_cons_of_mem _ hx, hf⟩

/-- A list that cannot be mapped has an item that cannot. -/
theorem exists_error_of_mapM {f : α → Except ε β} {xs : List α} {cause : ε}
    (h : xs.mapM f = .error cause) : ∃ x ∈ xs, f x = .error cause := by
  induction xs with
  | nil => cases h
  | cons x xs ih =>
    rw [List.mapM_cons] at h
    rcases Except.bind_eq_error_iff.1 h with h | ⟨y, -, h⟩
    · exact ⟨x, List.mem_cons_self, h⟩
    · rcases Except.bind_eq_error_iff.1 h with h | ⟨ys, -, h⟩
      · obtain ⟨z, hz, hf⟩ := ih h
        exact ⟨z, List.mem_cons_of_mem x hz, hf⟩
      · cases h

/-- What is read back from the items of a list that was mapped. -/
theorem map_eq_of_mapM {f : α → Except ε β} {g : β → α} {xs : List α} {ys : List β}
    (h : xs.mapM f = .ok ys) (hg : ∀ x y, f x = .ok y → g y = x) : ys.map g = xs := by
  induction mapM_eq_ok_iff.1 h with
  | nil => rfl
  | cons hxy hrest ih => rw [List.map_cons, hg _ _ hxy, ih (mapM_eq_ok_iff.2 hrest)]

end StaticSite
