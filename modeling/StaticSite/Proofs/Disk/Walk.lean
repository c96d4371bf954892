import StaticSite.Disk.Calls
import StaticSite.Proofs.Except
import StaticSite.Proofs.Disk.Landing

/-!
# Walks

`Walks disk follow n here segments place` says that a walk over segments ends at a place, with a
case for each thing that a segment can do (`walks_of_walkFrom`). `Leads disk n here segments m
there` says that segments lead from one directory to another and use up links from `n` down to `m`.
Such a walk does not depend on idle segments (`Leads.congr`), goes on where it led (`Leads.walk`),
and is not changed by a disk that keeps all directories and links (`Leads.mono`). Segments that do
not climb, below a directory under which there are no links, depend only on what is there and lead
where their names say (`walkFrom_below`).
-/

namespace StaticSite.Disk

variable {disk disk' : Disk} {follow : Bool} {n m : Nat} {here there : Location} {s : String}
  {segments rest : List String}

/-! ## One step -/

/-- A segment that names an entry. -/
def IsProper (s : String) : Prop :=
  Path.isIdle s = false ∧ s ≠ ".." ∧ s.utf8ByteSize ≤ nameLimit

/-- What is behind a link, with links left to follow. -/
def jumpFrom (disk : Disk) (follow : Bool) : Nat → Location → List String → Except IoError Place
  | 0 => fun _ _ => .error .tooManyLinks
  | links + 1 => walkFrom disk follow links

theorem walkFrom_eq (disk : Disk) (follow : Bool) (n : Nat) :
    walkFrom disk follow n = walkNames disk follow (jumpFrom disk follow n) := by
  cases n <;> rfl

theorem walkFrom_nil : walkFrom disk follow n here [] = .ok (.held here .directory) := by
  rw [walkFrom_eq, walkNames]

theorem walkFrom_idle (h : Path.isIdle s = true) :
    walkFrom disk follow n here (s :: rest) = walkFrom disk follow n here rest := by
  rw [walkFrom_eq, walkNames, if_pos h]

theorem walkFrom_up :
    walkFrom disk follow n here (".." :: rest) = walkFrom disk follow n here.dropLast rest := by
  rw [walkFrom_eq, walkNames, if_neg (by decide), if_pos rfl]

theorem walkFrom_tooLong (hi : Path.isIdle s = false) (hu : s ≠ "..")
    (h : nameLimit < s.utf8ByteSize) :
    walkFrom disk follow n here (s :: rest) = .error .nameTooLong := by
  rw [walkFrom_eq, walkNames, if_neg (by simp [hi]), if_neg hu, if_pos h]

theorem walkFrom_proper (h : IsProper s) :
    walkFrom disk follow n here (s :: rest) =
      match disk.at? (here ++ [s]) with
      | none => if rest = [] then .ok (.free (here ++ [s])) else .error .missing
      | some .directory => walkFrom disk follow n (here ++ [s]) rest
      | some (.file bytes modified) =>
        if rest = [] then .ok (.held (here ++ [s]) (.file bytes modified))
        else .error .notDirectory
      | some (.link target) =>
        if rest = [] ∧ follow = false then .ok (.held (here ++ [s]) (.link target))
        else jumpFrom disk follow n (startOf here ⟨target⟩) (Path.segments ⟨target⟩ ++ rest) := by
  have hlen : ¬ nameLimit < s.utf8ByteSize := by
    have := h.2.2
    omega
  rw [walkFrom_eq]
  exact (if_neg (by simp [h.1])).trans ((if_neg h.2.1).trans (if_neg hlen))

theorem walkFrom_enter (h : IsProper s) (found : disk.at? (here ++ [s]) = some .directory) :
    walkFrom disk follow n here (s :: rest) = walkFrom disk follow n (here ++ [s]) rest := by
  rw [walkFrom_proper h, found]

theorem walkFrom_missing (h : IsProper s) (found : disk.at? (here ++ [s]) = none) (hr : rest ≠ []) :
    walkFrom disk follow n here (s :: rest) = .error .missing := by
  rw [walkFrom_proper h, found]
  exact if_neg hr

theorem walkFrom_jump {target : String} (h : IsProper s)
    (found : disk.at? (here ++ [s]) = some (.link target)) (hr : rest ≠ [] ∨ follow = true) :
    walkFrom disk follow (n + 1) here (s :: rest) =
      walkFrom disk follow n (startOf here ⟨target⟩) (Path.segments ⟨target⟩ ++ rest) := by
  rw [walkFrom_proper h, found]
  refine if_neg fun hend => ?_
  rcases hr with hr | rfl
  · exact hr hend.1
  · cases hend.2

/-- A segment is idle, climbs, is too long or names an entry. -/
theorem segment_cases (s : String) :
    Path.isIdle s = true ∨ s = ".." ∨
      (Path.isIdle s = false ∧ s ≠ ".." ∧ nameLimit < s.utf8ByteSize) ∨ IsProper s := by
  by_cases hi : Path.isIdle s = true
  · exact .inl hi
  · rw [Bool.not_eq_true] at hi
    by_cases hu : s = ".."
    · exact .inr (.inl hu)
    · by_cases hl : nameLimit < s.utf8ByteSize
      · exact .inr (.inr (.inl ⟨hi, hu, hl⟩))
      · exact .inr (.inr (.inr ⟨hi, hu, by omega⟩))

/-! ## Walks that end -/

/-- A walk over the segments from `here` ends at a place, with `n` links to follow. -/
inductive Walks (disk : Disk) (follow : Bool) : Nat → Location → List String → Place → Prop
  | done {n : Nat} {here : Location} : Walks disk follow n here [] (.held here .directory)
  | idle {n : Nat} {here : Location} {s : String} {rest : List String} {place : Place}
      (h : Path.isIdle s = true) (tail : Walks disk follow n here rest place) :
      Walks disk follow n here (s :: rest) place
  | up {n : Nat} {here : Location} {rest : List String} {place : Place}
      (tail : Walks disk follow n here.dropLast rest place) :
      Walks disk follow n here (".." :: rest) place
  | enter {n : Nat} {here : Location} {s : String} {rest : List String} {place : Place}
      (h : IsProper s) (found : disk.at? (here ++ [s]) = some .directory)
      (tail : Walks disk follow n (here ++ [s]) rest place) :
      Walks disk follow n here (s :: rest) place
  | free {n : Nat} {here : Location} {s : String} (h : IsProper s)
      (found : disk.at? (here ++ [s]) = none) :
      Walks disk follow n here [s] (.free (here ++ [s]))
  | file {n : Nat} {here : Location} {s : String} {bytes : ByteArray} {modified : Nat}
      (h : IsProper s) (found : disk.at? (here ++ [s]) = some (.file bytes modified)) :
      Walks disk follow n here [s] (.held (here ++ [s]) (.file bytes modified))
  | link {n : Nat} {here : Location} {s target : String} (h : IsProper s)
      (found : disk.at? (here ++ [s]) = some (.link target)) (stays : follow = false) :
      Walks disk follow n here [s] (.held (here ++ [s]) (.link target))
  | jump {n : Nat} {here : Location} {s target : String} {rest : List String} {place : Place}
      (h : IsProper s) (found : disk.at? (here ++ [s]) = some (.link target))
      (goes : rest ≠ [] ∨ follow = true)
      (tail : Walks disk follow n (startOf here ⟨target⟩) (Path.segments ⟨target⟩ ++ rest) place) :
      Walks disk follow (n + 1) here (s :: rest) place

theorem Walks.walk_eq {place : Place} (h : Walks disk follow n here segments place) :
    walkFrom disk follow n here segments = .ok place := by
  induction h with
  | done => exact walkFrom_nil
  | idle h tail ih => rwa [walkFrom_idle h]
  | up tail ih => rwa [walkFrom_up]
  | enter h found tail ih => rwa [walkFrom_enter h found]
  | free h found =>
    rw [walkFrom_proper h, found]
    rfl
  | file h found =>
    rw [walkFrom_proper h, found]
    rfl
  | link h found stays =>
    rw [walkFrom_proper h, found]
    exact if_pos ⟨rfl, stays⟩
  | jump h found goes tail ih => rwa [walkFrom_jump h found goes]

theorem walks_of_jump {place : Place}
    (hj : ∀ here segments, jumpFrom disk follow n here segments = .ok place →
      ∃ k, n = k + 1 ∧ Walks disk follow k here segments place)
    (h : walkFrom disk follow n here segments = .ok place) :
    Walks disk follow n here segments place := by
  induction segments generalizing here with
  | nil =>
    rw [walkFrom_nil] at h
    cases h
    exact .done
  | cons s rest ih =>
    rcases segment_cases s with hs | rfl | ⟨hi, hu, hl⟩ | hs
    · rw [walkFrom_idle hs] at h
      exact .idle hs (ih h)
    · rw [walkFrom_up] at h
      exact .up (ih h)
    · rw [walkFrom_tooLong hi hu hl] at h
      cases h
    · rw [walkFrom_proper hs] at h
      split at h
      · rename_i hfound
        split at h
        · rename_i hr
          subst hr
          cases h
          exact .free hs hfound
        · cases h
      · rename_i hfound
        exact .enter hs hfound (ih h)
      · rename_i hfound
        split at h
        · rename_i hr
          subst hr
          cases h
          exact .file hs hfound
        · cases h
      · rename_i hfound
        split at h
        · rename_i hlast
          obtain ⟨rfl, hstays⟩ := hlast
          cases h
          exact .link hs hfound hstays
        · rename_i hgoes
          obtain ⟨k, rfl, htail⟩ := hj _ _ h
          refine .jump hs hfound ?_ htail
          by_cases hr : rest = []
          · exact .inr (by simpa [hr] using hgoes)
          · exact .inl hr

theorem walks_of_walkFrom {place : Place} (h : walkFrom disk follow n here segments = .ok place) :
    Walks disk follow n here segments place := by
  induction n generalizing here segments with
  | zero => exact walks_of_jump (fun _ _ hj => by cases hj) h
  | succ n ih => exact walks_of_jump (fun here segments hj => ⟨n, rfl, ih hj⟩) h

/-! ## Walks from directory to directory -/

/-- The segments lead from `here` to the directory `there`, with `n` links to follow at first and
`m` in the end. -/
inductive Leads (disk : Disk) : Nat → Location → List String → Nat → Location → Prop
  | done {n : Nat} {here : Location} : Leads disk n here [] n here
  | idle {n m : Nat} {here there : Location} {s : String} {rest : List String}
      (h : Path.isIdle s = true) (tail : Leads disk n here rest m there) :
      Leads disk n here (s :: rest) m there
  | up {n m : Nat} {here there : Location} {rest : List String}
      (tail : Leads disk n here.dropLast rest m there) : Leads disk n here (".." :: rest) m there
  | enter {n m : Nat} {here there : Location} {s : String} {rest : List String} (h : IsProper s)
      (found : disk.at? (here ++ [s]) = some .directory)
      (tail : Leads disk n (here ++ [s]) rest m there) : Leads disk n here (s :: rest) m there
  | jump {n m : Nat} {here there : Location} {s target : String} {rest : List String}
      (h : IsProper s) (found : disk.at? (here ++ [s]) = some (.link target))
      (tail : Leads disk n (startOf here ⟨target⟩) (Path.segments ⟨target⟩ ++ rest) m there) :
      Leads disk (n + 1) here (s :: rest) m there

/-- A walk that goes on, or follows links, goes on where its first part led. -/
theorem Leads.walk_append (h : Leads disk n here segments m there)
    (hr : rest ≠ [] ∨ follow = true) :
    walkFrom disk follow n here (segments ++ rest) = walkFrom disk follow m there rest := by
  induction h with
  | done => rfl
  | idle h tail ih => rw [List.cons_append, walkFrom_idle h, ih]
  | up tail ih => rw [List.cons_append, walkFrom_up, ih]
  | enter h found tail ih => rw [List.cons_append, walkFrom_enter h found, ih]
  | jump h found tail ih =>
    rw [List.cons_append,
      walkFrom_jump h found (hr.imp_left fun h => by simp [h]), ← List.append_assoc, ih]

theorem Leads.walk (h : Leads disk n here segments m there) (rest : List String) :
    walkFrom disk true n here (segments ++ rest) = walkFrom disk true m there rest :=
  h.walk_append (.inr rfl)

/-- A walk that goes on has followed the links before, whether or not it follows one at its end. -/
theorem Leads.walk_onto (h : Leads disk n here segments m there) (hr : rest ≠ []) :
    walkFrom disk follow n here (segments ++ rest) = walkFrom disk follow m there rest :=
  h.walk_append (.inl hr)

theorem Leads.walk_eq (h : Leads disk n here segments m there) :
    walkFrom disk true n here segments = .ok (.held there .directory) := by
  rw [← List.append_nil segments, h.walk, walkFrom_nil]

/-- A walk that ends at a directory, whether or not it follows a link at its end, leads there. -/
theorem leads_of_walkFrom
    (h : walkFrom disk follow n here segments = .ok (.held there .directory)) :
    ∃ m, Leads disk n here segments m there := by
  replace h := walks_of_walkFrom h
  generalize he : Place.held there .directory = place at h
  induction h with
  | @done n here =>
    cases he
    exact ⟨n, .done⟩
  | idle h tail ih => exact (ih he).imp fun _ hm => .idle h hm
  | up tail ih => exact (ih he).imp fun _ hm => .up hm
  | enter h found tail ih => exact (ih he).imp fun _ hm => .enter h found hm
  | free => cases he
  | file => cases he
  | link => cases he
  | jump h found goes tail ih => exact (ih he).imp fun _ hm => .jump h found hm

/-- A disk that has all directories and links of another one. -/
def Persists (disk disk' : Disk) : Prop :=
  ∀ place, (disk.at? place = some .directory → disk'.at? place = some .directory) ∧
    ∀ target, disk.at? place = some (.link target) → disk'.at? place = some (.link target)

theorem Leads.mono (h : Leads disk n here segments m there) (hd : Persists disk disk') :
    Leads disk' n here segments m there := by
  induction h with
  | done => exact .done
  | idle h tail ih => exact .idle h ih
  | up tail ih => exact .up ih
  | enter h found tail ih => exact .enter h ((hd _).1 found) ih
  | jump h found tail ih => exact .jump h ((hd _).2 _ found) ih

/-- A walk to a directory, whether it follows links or not, stays as long as directories and links
do. -/
theorem walkFrom_mono (hd : Persists disk disk')
    (h : walkFrom disk follow n here segments = .ok (.held there .directory)) :
    walkFrom disk' follow n here segments = .ok (.held there .directory) := by
  replace h := walks_of_walkFrom h
  generalize he : Place.held there .directory = place at h ⊢
  refine Walks.walk_eq ?_
  induction h with
  | done => exact .done
  | idle h tail ih => exact .idle h (ih he)
  | up tail ih => exact .up (ih he)
  | enter h found tail ih => exact .enter h ((hd _).1 found) (ih he)
  | free => cases he
  | file => cases he
  | link => cases he
  | jump h found goes tail ih => exact .jump h ((hd _).2 _ found) goes (ih he)

theorem Leads.idles (h : ∀ s ∈ segments, Path.isIdle s = true) :
    Leads disk n here segments n here := by
  induction segments with
  | nil => exact .done
  | cons s rest ih =>
    exact .idle (h s List.mem_cons_self) (ih fun x hx => h x (List.mem_cons_of_mem s hx))

theorem Leads.append {first second : List String} {mid : Location} {k : Nat}
    (h₁ : Leads disk n here first k mid) (h₂ : Leads disk k mid second m there) :
    Leads disk n here (first ++ second) m there := by
  induction h₁ with
  | done => exact h₂
  | idle h tail ih => exact .idle h (ih h₂)
  | up tail ih => exact .up (ih h₂)
  | enter h found tail ih => exact .enter h found (ih h₂)
  | jump h found tail ih =>
    refine .jump h found ?_
    show Leads disk _ _ (_ ++ (_ ++ second)) m there
    rw [← List.append_assoc]
    exact ih h₂

/-- Idle segments do not matter. -/
theorem Leads.congr {other : List String} (h : Leads disk n here segments m there)
    (he : segments.filter (!Path.isIdle ·) = other.filter (!Path.isIdle ·)) :
    Leads disk n here other m there := by
  induction h generalizing other with
  | done =>
    refine .idles fun s hs => ?_
    have := List.filter_eq_nil_iff.1 he.symm s hs
    simpa using this
  | idle h tail ih =>
    refine ih ?_
    rwa [List.filter_cons_of_neg (by simp [h])] at he
  | up tail ih =>
    rw [List.filter_cons_of_pos (by decide)] at he
    obtain ⟨first, last, rfl, hf, -, hl⟩ := List.filter_eq_cons_iff.1 he.symm
    refine .append (.idles fun s hs => by simpa using hf s hs) (.up (ih ?_))
    exact hl.symm
  | enter h found tail ih =>
    rw [List.filter_cons_of_pos (by simp [h.1])] at he
    obtain ⟨first, last, rfl, hf, -, hl⟩ := List.filter_eq_cons_iff.1 he.symm
    exact .append (.idles fun s hs => by simpa using hf s hs) (.enter h found (ih hl.symm))
  | jump h found tail ih =>
    rw [List.filter_cons_of_pos (by simp [h.1])] at he
    obtain ⟨first, last, rfl, hf, -, hl⟩ := List.filter_eq_cons_iff.1 he.symm
    refine .append (.idles fun s hs => by simpa using hf s hs) (.jump h found (ih ?_))
    rw [List.filter_append, List.filter_append, hl]

/-- The walk over the first of two parts. -/
theorem Leads.split {first second : List String} (h : Leads disk n here (first ++ second) m there) :
    ∃ k mid, Leads disk n here first k mid ∧ Leads disk k mid second m there := by
  generalize he : first ++ second = segments at h
  induction h generalizing first with
  | done =>
    obtain ⟨rfl, rfl⟩ := List.append_eq_nil_iff.1 he
    exact ⟨_, _, .done, .done⟩
  | @idle n m here there s rest h tail ih =>
    cases first with
    | nil =>
      obtain rfl : second = s :: rest := he
      exact ⟨_, _, .done, .idle h tail⟩
    | cons x first =>
      obtain ⟨rfl, hr⟩ : x = s ∧ first ++ second = rest := List.cons.inj he
      obtain ⟨k, mid, h₁, h₂⟩ := ih hr
      exact ⟨k, mid, .idle h h₁, h₂⟩
  | @up n m here there rest tail ih =>
    cases first with
    | nil =>
      obtain rfl : second = ".." :: rest := he
      exact ⟨_, _, .done, .up tail⟩
    | cons x first =>
      obtain ⟨rfl, hr⟩ : x = ".." ∧ first ++ second = rest := List.cons.inj he
      obtain ⟨k, mid, h₁, h₂⟩ := ih hr
      exact ⟨k, mid, .up h₁, h₂⟩
  | @enter n m here there s rest h found tail ih =>
    cases first with
    | nil =>
      obtain rfl : second = s :: rest := he
      exact ⟨_, _, .done, .enter h found tail⟩
    | cons x first =>
      obtain ⟨rfl, hr⟩ : x = s ∧ first ++ second = rest := List.cons.inj he
      obtain ⟨k, mid, h₁, h₂⟩ := ih hr
      exact ⟨k, mid, .enter h found h₁, h₂⟩
  | @jump n m here there s target rest h found tail ih =>
    cases first with
    | nil =>
      obtain rfl : second = s :: rest := he
      exact ⟨_, _, .done, .jump h found tail⟩
    | cons x first =>
      obtain ⟨rfl, hr⟩ : x = s ∧ first ++ second = rest := List.cons.inj he
      obtain ⟨k, mid, h₁, h₂⟩ := @ih (Path.segments ⟨target⟩ ++ first)
        (by rw [List.append_assoc, hr])
      exact ⟨k, mid, .jump h found h₁, h₂⟩

/-! ## What a walk finds -/

/-- What a walk that ended at no directory found is there. -/
def Place.IsThere (disk : Disk) : Place → Prop
  | .held _ .directory => True
  | .held place entry => disk.at? place = some entry
  | .free place => disk.at? place = none

theorem isThere_of_walkFrom {found : Place} (h : walkFrom disk follow n here segments = .ok found) :
    found.IsThere disk := by
  replace h := walks_of_walkFrom h
  induction h with
  | done => trivial
  | idle h tail ih => exact ih
  | up tail ih => exact ih
  | enter h found tail ih => exact ih
  | free h found => exact found
  | file h found => exact found
  | link h found stays => exact found
  | jump h found goes tail ih => exact ih

/-- A walk that follows links does not end at one. -/
theorem ne_link_of_walkFrom {found : Place} {place : Location} {target : String}
    (h : walkFrom disk true n here segments = .ok found) : found ≠ .held place (.link target) := by
  replace h := walks_of_walkFrom h
  induction h with
  | done => nofun
  | idle h tail ih => exact ih
  | up tail ih => exact ih
  | enter h found tail ih => exact ih
  | free => nofun
  | file => nofun
  | link h found stays => cases stays
  | jump h found goes tail ih => exact ih

/-! ## Walks that meet no link -/

/-- The location of a place, whether or not something is there. -/
def Place.location : Place → Location
  | .held place _ => place
  | .free place => place

/-- The outcome of a walk is a failure or lies where the names lead. -/
def LandsAt (place : Location) : Except IoError Place → Prop
  | .ok found => found.location = place
  | .error _ => True

theorem landing_idle (h : Path.isIdle s = true) (here : Location) (rest : List String) :
    Path.landing here (s :: rest) = Path.landing here rest := by
  rw [Path.landing, if_pos h]

theorem landing_up (here : Location) (rest : List String) :
    Path.landing here (".." :: rest) = Path.landing here.dropLast rest := by
  rw [Path.landing, if_neg (by decide), if_pos rfl]

theorem landing_proper (h : IsProper s) (here : Location) (rest : List String) :
    Path.landing here (s :: rest) = Path.landing (here ++ [s]) rest := by
  rw [Path.landing, if_neg (by simp [h.1]), if_neg h.2.1]

/-- Past places that are no links, segments lead where they say, and depend only on what is at these
places. -/
theorem walkFrom_passing {follow' : Bool} {n' : Nat}
    (h : ∀ way, way <+: segments →
      disk'.at? (Path.landing here way) = disk.at? (Path.landing here way) ∧
      ∀ target, disk.at? (Path.landing here way) ≠ some (.link target)) :
    walkFrom disk' follow' n' here segments = walkFrom disk follow n here segments ∧
      LandsAt (Path.landing here segments) (walkFrom disk follow n here segments) := by
  induction segments generalizing here with
  | nil =>
    rw [walkFrom_nil, walkFrom_nil]
    exact ⟨rfl, rfl⟩
  | cons s rest ih =>
    have onward (next : Location)
        (hn : ∀ way, Path.landing here (s :: way) = Path.landing next way) :=
      @ih next fun way hw => by
        rw [← hn]
        exact h _ ((List.prefix_cons_inj s).2 hw)
    rcases segment_cases s with hs | rfl | ⟨hi, hu, hlen⟩ | hs
    · rw [walkFrom_idle hs, walkFrom_idle hs, landing_idle hs]
      exact onward here (landing_idle hs here)
    · rw [walkFrom_up, walkFrom_up, landing_up]
      exact onward here.dropLast (landing_up here)
    · rw [walkFrom_tooLong hi hu hlen, walkFrom_tooLong hi hu hlen]
      exact ⟨rfl, trivial⟩
    · have hplace : Path.landing here [s] = here ++ [s] := landing_proper hs here []
      obtain ⟨hsame, hlink⟩ := hplace ▸ h [s] ⟨rest, rfl⟩
      have hend (hr : rest = []) : here ++ [s] = Path.landing (here ++ [s]) rest := by
        rw [hr, Path.landing]
      rw [walkFrom_proper hs, walkFrom_proper hs, hsame, landing_proper hs]
      cases hfound : disk.at? (here ++ [s]) with
      | none =>
        dsimp only
        split
        · rename_i hr
          exact ⟨rfl, hend hr⟩
        · exact ⟨rfl, trivial⟩
      | some entry =>
        cases entry with
        | directory => exact onward (here ++ [s]) (landing_proper hs here)
        | file bytes modified =>
          dsimp only
          split
          · rename_i hr
            exact ⟨rfl, hend hr⟩
          · exact ⟨rfl, trivial⟩
        | link target => exact absurd hfound (hlink target)

/-- There is no link at or below a location. -/
def HasNoLinks (disk : Disk) (base : Location) : Prop :=
  ∀ place, base <+: place → ∀ target, disk.at? place ≠ some (.link target)

/-- Two disks hold the same at and below a location. -/
def AgreeBelow (base : Location) (disk disk' : Disk) : Prop :=
  ∀ place, base <+: place → disk.at? place = disk'.at? place

/-- Segments that do not climb lead, below a directory without links, where their names say, and
depend on nothing else. -/
theorem walkFrom_below {base : Location} {kept left : List String} {follow' : Bool} {n' : Nat}
    (hl : disk.HasNoLinks base) (ha : AgreeBelow base disk disk')
    (hd : Path.descend kept segments = some left) :
    walkFrom disk follow n (base ++ kept) segments =
      walkFrom disk' follow' n' (base ++ kept) segments ∧
      LandsAt (base ++ left) (walkFrom disk follow n (base ++ kept) segments) := by
  have below (way : List String) (hw : way <+: segments) :
      base <+: Path.landing (base ++ kept) way := by
    obtain ⟨more, rfl⟩ := hw
    rw [Path.descend_append] at hd
    obtain ⟨mid, hmid, -⟩ := Option.bind_eq_some_iff.1 hd
    rw [Path.landing_of_descend base hmid]
    exact List.prefix_append _ _
  rw [← Path.landing_of_descend base hd]
  refine (walkFrom_passing fun way hw => ?_).imp_left Eq.symm
  exact ⟨(ha _ (below way hw)).symm, hl _ (below way hw)⟩

end StaticSite.Disk
