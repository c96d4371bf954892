import StaticSite.Proofs.Disk.Walk

/-!
# Paths at, above and below a directory

A root is a path that leads to a directory. The paths above it lead to directories that are there
(`makeDirectory_above`, `isDirectory_above`). The paths below it continue it by steps that do not
climb above it; when there are no links below the directory, what such a path names depends only on
what is below the directory and is there itself (`resolve_below`, `nameOf_below`).
-/

namespace StaticSite.Disk

variable {disk disk' : Disk} {root p : Path} {base : Location} {segments : List String}

/-! ## Paths that the system takes -/

/-- Why the system does not take a path, whatever is on the disk. -/
def faultOf (p : Path) : Option IoError :=
  if p.text = "" then some .missing
  else if '\x00' ∈ p.text.toList then some .nulInPath
  else none

theorem resolve_of_fault {cause : IoError} (h : faultOf p = some cause) (follow : Bool) :
    disk.resolve follow p = .error cause := by
  unfold faultOf at h
  unfold resolve
  split at h
  · cases h
    rename_i he
    rw [if_pos he]
  · rename_i he
    rw [if_neg he]
    split at h
    · cases h
      rename_i hn
      rw [if_pos hn]
    · cases h

theorem resolve_of_noFault (h : faultOf p = none) (follow : Bool) :
    disk.resolve follow p =
      walkFrom disk follow linkLimit (startOf disk.cwd p) p.segments := by
  unfold faultOf at h
  unfold resolve
  split at h
  · cases h
  · rename_i he
    rw [if_neg he]
    split at h
    · cases h
    · rename_i hn
      rw [if_neg hn]

theorem noFault_of_resolve {follow : Bool} {found : Place} (h : disk.resolve follow p = .ok found) :
    faultOf p = none := by
  cases hf : faultOf p with
  | none => rfl
  | some cause =>
    rw [resolve_of_fault hf] at h
    cases h

/-- What a path led to is there. -/
theorem isThere_of_resolve {follow : Bool} {found : Place} (h : disk.resolve follow p = .ok found) :
    found.IsThere disk := by
  rw [resolve_of_noFault (noFault_of_resolve h)] at h
  exact isThere_of_walkFrom h

theorem nameOf_of_fault {cause : IoError} (h : faultOf p = some cause) :
    disk.nameOf p = .error cause := by
  unfold faultOf at h
  unfold nameOf
  split at h
  · cases h
    rename_i he
    rw [if_pos he]
    rfl
  · rename_i he
    rw [if_neg he]
    split at h
    · cases h
      rename_i hn
      rw [if_pos hn]
      rfl
    · cases h

/-- The location that the last of some bare segments names in the directory of the others. -/
def lastName (disk : Disk) (p : Path) (last : String) :
    Except IoError (Option Location × Bool) := do
  match ← walkFrom disk true linkLimit (startOf disk.cwd p)
    ((bareSegments p).dropLast ++ ["."]) with
  | .free _ => throw .missing
  | .held here _ =>
    if last = "." ∨ last = ".." then return (none, true)
    else if nameLimit < last.utf8ByteSize then throw .nameTooLong
    else return (some (here ++ [last]), p.text.toList.getLast? == some '/')

theorem nameOf_of_noFault (h : faultOf p = none) :
    disk.nameOf p =
      match (bareSegments p).getLast? with
      | none => .ok (none, true)
      | some last => disk.lastName p last := by
  unfold faultOf at h
  unfold nameOf
  split at h
  · cases h
  · rename_i he
    rw [if_neg he]
    split at h
    · cases h
    · rename_i hn
      rw [if_neg hn]
      dsimp only
      generalize (bareSegments p).getLast? = last
      cases last with
      | none => rfl
      | some last => rfl

/-! ### The last segment -/

theorem filter_segments_eq (p : Path) : (bareSegments p).filter (!Path.isIdle ·) = p.steps := by
  have h := List.takeWhile_append_dropWhile (p := (· == "")) (l := p.segments.reverse)
  have hblank : (p.segments.reverse.takeWhile (· == "")).reverse.filter (!Path.isIdle ·) = [] := by
    refine List.filter_eq_nil_iff.2 fun s hs => ?_
    have := List.all_eq_true.1 List.all_takeWhile s (List.mem_reverse.1 hs)
    simp [Path.isIdle, eq_of_beq this]
  have hs : p.segments = bareSegments p ++ (p.segments.reverse.takeWhile (· == "")).reverse := by
    rw [bareSegments, ← List.reverse_append, h, List.reverse_reverse]
  rw [Path.steps, hs, List.filter_append, hblank, List.append_nil]

/-- The steps of a path, from its last bare segment. -/
theorem steps_of_getLast {last : String} (h : (bareSegments p).getLast? = some last) :
    p.steps = (bareSegments p).dropLast.filter (!Path.isIdle ·) ++
      if Path.isIdle last then [] else [last] := by
  obtain ⟨init, hb⟩ := List.getLast?_eq_some_iff.1 h
  rw [← filter_segments_eq, hb, List.dropLast_concat, List.filter_append]
  cases hi : Path.isIdle last <;> simp [hi]

theorem getLast_ne_empty {last : String} (h : (bareSegments p).getLast? = some last) :
    last ≠ "" := by
  rintro rfl
  rw [bareSegments, List.getLast?_reverse] at h
  have := List.head?_dropWhile_not (· == "") p.segments.reverse
  rw [h] at this
  simp at this

theorem getLast_eq_dot {last : String} (h : (bareSegments p).getLast? = some last)
    (hi : Path.isIdle last = true) : last = "." := by
  have := getLast_ne_empty h
  simpa [Path.isIdle, this] using hi

/-! ## Roots -/

/-- A path leads to a directory. -/
def Reaches (disk : Disk) (p : Path) (base : Location) : Prop :=
  ∃ m, Leads disk linkLimit (startOf disk.cwd p) p.segments m base

theorem reaches_iff : Reaches disk p base ↔
    walkFrom disk true linkLimit (startOf disk.cwd p) p.segments = .ok (.held base .directory) :=
  ⟨fun ⟨_, h⟩ => h.walk_eq, leads_of_walkFrom⟩

theorem Reaches.mono (h : Reaches disk p base) (hc : disk'.cwd = disk.cwd)
    (hd : Persists disk disk') :
    Reaches disk' p base := by
  obtain ⟨m, hm⟩ := h
  exact ⟨m, hc ▸ hm.mono hd⟩

theorem startOf_eq {here : Location} (h : p.isAbsolute = root.isAbsolute) :
    startOf here p = startOf here root := by
  unfold startOf
  rw [h]

/-- What is above a root leads to a directory, and the rest of the root's steps on from there. -/
theorem Reaches.above {rest : List String} (h : Reaches disk root base)
    (ha : p.isAbsolute = root.isAbsolute)
    (hs : segments.filter (!Path.isIdle ·) ++ rest = root.steps) :
    ∃ m k mid, Leads disk linkLimit (startOf disk.cwd p) segments m mid ∧
      Leads disk m mid rest k base := by
  obtain ⟨k, hk⟩ := h
  have hrest : rest.filter (!Path.isIdle ·) = rest := List.filter_eq_self.2 fun s hr => by
    have := Path.isIdle_of_mem_steps (p := root) (hs ▸ List.mem_append_right _ hr)
    simp [this]
  have hall : Leads disk linkLimit (startOf disk.cwd p) (segments ++ rest) k base := by
    rw [startOf_eq ha]
    refine hk.congr ?_
    rw [List.filter_append, hrest, hs]
    rfl
  obtain ⟨m, mid, h₁, h₂⟩ := hall.split
  exact ⟨m, k, mid, h₁, h₂⟩

theorem Reaches.of_isAbove (h : Reaches disk root base) (ha : p.IsAbove root) :
    ∃ mid, Reaches disk p mid := by
  obtain ⟨rest, hs⟩ := ha.1
  obtain ⟨m, k, mid, hm, -⟩ := h.above ha.2 (show p.segments.filter _ ++ rest = _ from hs)
  exact ⟨mid, m, hm⟩

theorem resolve_above (h : Reaches disk root base) (ha : p.IsAbove root) (hf : faultOf p = none) :
    ∃ mid, disk.resolve true p = .ok (.held mid .directory) := by
  obtain ⟨mid, hm⟩ := h.of_isAbove ha
  exact ⟨mid, by rw [resolve_of_noFault hf, reaches_iff.1 hm]⟩

theorem isDirectory_of_resolve {place : Location}
    (hr : disk.resolve true p = .ok (.held place .directory)) : disk.isDirectory p = true := by
  unfold isDirectory entry
  rw [hr]
  rfl

theorem isDirectory_above (h : Reaches disk root base) (ha : p.IsAbove root)
    (hf : faultOf p = none) :
    disk.isDirectory p = true := by
  obtain ⟨mid, hr⟩ := resolve_above h ha hf
  exact isDirectory_of_resolve hr

theorem dropLast_dot_filter (p : Path) :
    ((bareSegments p).dropLast ++ ["."]).filter (!Path.isIdle ·) =
      (bareSegments p).dropLast.filter (!Path.isIdle ·) := by
  rw [List.filter_append]
  exact List.append_nil _

theorem lastName_of_walk {last : String} {here : Location} {entry : Entry}
    (h : walkFrom disk true linkLimit (startOf disk.cwd p) ((bareSegments p).dropLast ++ ["."]) =
      .ok (.held here entry)) :
    disk.lastName p last =
      if last = "." ∨ last = ".." then .ok (none, true)
      else if nameLimit < last.utf8ByteSize then .error .nameTooLong
      else .ok (some (here ++ [last]), p.text.toList.getLast? == some '/') := by
  unfold lastName
  rw [h]
  rfl

/-- A path above a root names no entry, or one that is there. -/
theorem nameOf_above (h : Reaches disk root base) (ha : p.IsAbove root) (hf : faultOf p = none) :
    disk.nameOf p = .ok (none, true) ∨
      ∃ place slash, disk.nameOf p = .ok (some place, slash) ∧ (disk.at? place).isSome := by
  rw [nameOf_of_noFault hf]
  cases hb : (bareSegments p).getLast? with
  | none => exact .inl rfl
  | some last =>
    obtain ⟨rest, hs⟩ := ha.1
    rw [steps_of_getLast hb, List.append_assoc, ← dropLast_dot_filter] at hs
    obtain ⟨m, k, mid, hm, hrest⟩ := h.above ha.2 hs
    dsimp only
    rw [lastName_of_walk hm.walk_eq]
    by_cases hdots : last = "." ∨ last = ".."
    · exact .inl (if_pos hdots)
    · rw [if_neg hdots]
      have hidle : Path.isIdle last = false := by
        rw [← Bool.not_eq_true]
        exact fun hi => hdots (.inl (getLast_eq_dot hb hi))
      rw [hidle] at hrest
      refine .inr ?_
      cases hrest with
      | idle hi => simp [hidle] at hi
      | up => exact absurd (.inr rfl) hdots
      | enter hl found =>
        exact ⟨_, _, if_neg (by have := hl.2.2; omega), by rw [found]; rfl⟩
      | jump hl found =>
        exact ⟨_, _, if_neg (by have := hl.2.2; omega), by rw [found]; rfl⟩

/-- What is above a root cannot be made. -/
theorem makeDirectory_above (h : Reaches disk root base) (ha : p.IsAbove root) :
    disk.makeDirectory p = .error ((faultOf p).getD .alreadyThere) := by
  unfold makeDirectory
  cases hf : faultOf p with
  | some cause => rw [nameOf_of_fault hf]; rfl
  | none =>
    rcases nameOf_above h ha hf with hn | ⟨place, slash, hn, hp⟩
    · rw [hn]
      rfl
    · rw [hn]
      show (if (disk.at? place).isSome then _ else _) = _
      rw [if_pos hp]
      rfl

/-- What is above a root cannot be written to. -/
theorem writable_above (h : Reaches disk root base) (ha : p.IsAbove root) :
    disk.writable p = .error ((faultOf p).getD .isDirectory) := by
  unfold writable
  cases hf : faultOf p with
  | some cause => rw [nameOf_of_fault hf]; rfl
  | none =>
    obtain ⟨mid, hr⟩ := resolve_above h ha hf
    rcases nameOf_above h ha hf with hn | ⟨place, slash, hn, hp⟩
    · rw [hn]
      rfl
    · rw [hn, hr]
      cases slash <;> rfl

/-! ## Below a root -/

/-- Two disks on which a root leads to one directory, with the same below it and no links there. -/
structure Twins (root : Path) (base : Location) (disk disk' : Disk) : Prop where
  reaches : Reaches disk root base
  reaches' : Reaches disk' root base
  noLinks : disk.HasNoLinks base
  agree : AgreeBelow base disk disk'

/-- A path continues a root by steps that leave some names below it. -/
def Continues (root p : Path) (left : List String) : Prop :=
  p.isAbsolute = root.isAbsolute ∧
    ∃ more, p.steps = root.steps ++ more ∧ Path.descend [] more = some left

theorem Twins.walk {more left : List String} (h : Twins root base disk disk')
    (ha : p.isAbsolute = root.isAbsolute)
    (hs : segments.filter (!Path.isIdle ·) = root.steps ++ more)
    (hd : Path.descend [] more = some left) :
    walkFrom disk true linkLimit (startOf disk.cwd p) segments =
        walkFrom disk' true linkLimit (startOf disk'.cwd p) segments ∧
      LandsAt (base ++ left) (walkFrom disk true linkLimit (startOf disk.cwd p) segments) := by
  obtain ⟨first, second, rfl, hf, hm⟩ := List.filter_eq_append_iff.1 hs
  have hd' : Path.descend [] second = some left := by rw [← Path.descend_filter, hm, hd]
  obtain ⟨m, hr⟩ := h.reaches
  obtain ⟨m', hr'⟩ := h.reaches'
  rw [← startOf_eq ha] at hr hr'
  rw [(hr.congr hf.symm).walk, (hr'.congr hf.symm).walk]
  have hbelow : walkFrom disk true m (base ++ []) second =
      walkFrom disk' true m' (base ++ []) second ∧
      LandsAt (base ++ left) (walkFrom disk true m (base ++ []) second) :=
    walkFrom_below h.noLinks h.agree hd'
  rwa [List.append_nil] at hbelow

theorem resolve_below {left : List String} (h : Twins root base disk disk')
    (hp : Continues root p left) :
    disk.resolve true p = disk'.resolve true p ∧ LandsAt (base ++ left) (disk.resolve true p) := by
  obtain ⟨ha, more, hs, hd⟩ := hp
  cases hf : faultOf p with
  | some cause =>
    rw [resolve_of_fault hf, resolve_of_fault hf]
    exact ⟨rfl, trivial⟩
  | none =>
    rw [resolve_of_noFault hf, resolve_of_noFault hf]
    exact h.walk ha hs hd

/-- A location strictly below another one. -/
def IsInside (base place : Location) : Prop :=
  base <+: place ∧ place ≠ base

theorem isInside_append (base : Location) {left : List String} (h : left ≠ []) :
    IsInside base (base ++ left) :=
  ⟨List.prefix_append _ _, fun he => h (List.append_right_eq_self.1 he)⟩

/-- The directory of a path that continues a root continues it too. -/
theorem exists_continuation {before more left rootSteps : List String} {last : String}
    (hlast : p.steps = before ++ if Path.isIdle last then [] else [last])
    (hs : p.steps = rootSteps ++ more) (hd : Path.descend [] more = some left)
    (hne : p.steps ≠ rootSteps) :
    ∃ more' left', before = rootSteps ++ more' ∧ Path.descend [] more' = some left' ∧
      (Path.isIdle last = false → last ≠ ".." → left = left' ++ [last]) := by
  cases hi : Path.isIdle last with
  | true =>
    rw [hi, if_pos rfl, List.append_nil] at hlast
    exact ⟨more, left, hlast ▸ hs, hd, fun hf => by cases hf⟩
  | false =>
    rw [hi, if_neg (by decide)] at hlast
    have hmore : more ≠ [] := by
      rintro rfl
      exact hne (by rw [hs, List.append_nil])
    have hsplit := List.dropLast_append_getLast hmore
    have heq := hlast.symm.trans hs
    have hlasts : more.getLast hmore = last := by
      have := congrArg List.getLast? heq
      rw [List.getLast?_concat, List.getLast?_append_of_ne_nil _ hmore,
        List.getLast?_eq_getLast_of_ne_nil hmore] at this
      exact (Option.some.inj this).symm
    rw [← hsplit, Path.descend_append, hlasts] at hd
    obtain ⟨left', hd', hlast'⟩ := Option.bind_eq_some_iff.1 hd
    refine ⟨more.dropLast, left', ?_, hd', fun _ hup => ?_⟩
    · have := congrArg List.dropLast heq
      rwa [List.dropLast_concat, List.dropLast_append_of_ne_nil hmore] at this
    · rw [Path.descend, if_neg (by simp [hi]), if_neg hup] at hlast'
      exact (Option.some.inj hlast').symm

theorem nameOf_below {left : List String} (h : Twins root base disk disk')
    (hp : Continues root p left) (hne : p.steps ≠ root.steps) :
    disk.nameOf p = disk'.nameOf p ∧
      ∀ place slash, disk.nameOf p = .ok (some place, slash) →
        place = base ++ left ∧ left ≠ [] := by
  obtain ⟨ha, more, hs, hd⟩ := hp
  cases hf : faultOf p with
  | some cause =>
    rw [nameOf_of_fault hf, nameOf_of_fault hf]
    exact ⟨rfl, fun _ _ hn => by cases hn⟩
  | none =>
    rw [nameOf_of_noFault hf, nameOf_of_noFault hf]
    cases hb : (bareSegments p).getLast? with
    | none => exact ⟨rfl, fun _ _ hn => by cases hn⟩
    | some last =>
      obtain ⟨more', left', hpre, hd', hleft⟩ := exists_continuation (steps_of_getLast hb) hs hd hne
      rw [← dropLast_dot_filter] at hpre
      obtain ⟨hwalk, hland⟩ := h.walk ha hpre hd'
      dsimp only
      unfold lastName
      rw [← hwalk]
      refine ⟨rfl, fun place slash hn => ?_⟩
      obtain ⟨found, hw, hn⟩ := Except.bind_eq_ok_iff.1 hn
      rw [hw] at hland
      cases found with
      | free => cases hn
      | held here entry =>
        obtain rfl : here = base ++ left' := hland
        dsimp only at hn
        split at hn
        · cases hn
        · rename_i hdots
          split at hn
          · cases hn
          · cases hn
            have hidle : Path.isIdle last = false := by
              rw [← Bool.not_eq_true]
              exact fun hi => hdots (.inl (getLast_eq_dot hb hi))
            rw [hleft hidle fun he => hdots (.inr he), List.append_assoc]
            exact ⟨rfl, by simp⟩

end StaticSite.Disk
