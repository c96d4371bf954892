import Mathlib.Data.List.Induction
import StaticSite.Proofs.Disk.Ensure
import StaticSite.Proofs.Disk.Zone

/-!
# Chains of directories

A path that goes on from a root by names asks for a chain of directories below the root's. Making it
succeeds exactly if nothing but directories stands in the way (`ensureDirectory_of_isClear`,
`isClear_of_ensureDirectory`), and then it makes those of the chain that were not there and changes
nothing else (`Raised`).
-/

namespace StaticSite.Disk

variable {disk disk' : Disk} {base here place : Location} {root p : Path} {names : List String}
  {n m : Nat}

/-! ## Walking along a chain -/

/-- At the places of a chain nothing or a directory stands. -/
def IsClear (disk : Disk) (base : Location) (names : List String) : Prop :=
  ∀ way, way ≠ [] → way <+: names → disk.at? (base ++ way) = none ∨
    disk.at? (base ++ way) = some .directory

/-- A chain of directories. -/
def IsChain (disk : Disk) (base : Location) (names : List String) : Prop :=
  ∀ way, way ≠ [] → way <+: names → disk.at? (base ++ way) = some .directory

/-- At the places of a chain no link stands. -/
def IsLinkless (disk : Disk) (base : Location) (names : List String) : Prop :=
  ∀ way, way ≠ [] → way <+: names → ∀ target, disk.at? (base ++ way) ≠ some (.link target)

theorem IsChain.isClear (h : IsChain disk base names) : IsClear disk base names :=
  fun way hne hp => .inr (h way hne hp)

theorem IsClear.isLinkless (h : IsClear disk base names) : IsLinkless disk base names := by
  intro way hne hp target
  rcases h way hne hp with hd | hd <;> simp [hd]

theorem HasNoLinks.isLinkless (h : disk.HasNoLinks base) (names : List String) :
    IsLinkless disk base names :=
  fun _ _ _ => h _ (List.prefix_append _ _)

theorem IsLinkless.mono {init : List String} (h : IsLinkless disk base names)
    (hp : init <+: names) :
    IsLinkless disk base init :=
  fun way hne hw => h way hne (hw.trans hp)

/-- The places of a chain are its first one and those of the chain behind it. -/
theorem forall_places_cons {P : Location → Prop} {s : String} {rest : List String} :
    (∀ way, way ≠ [] → way <+: s :: rest → P (here ++ way)) ↔
      P (here ++ [s]) ∧ ∀ way, way ≠ [] → way <+: rest → P (here ++ [s] ++ way) := by
  simp only [List.append_assoc, List.singleton_append]
  constructor
  · exact fun h => ⟨h [s] (by simp) ⟨rest, rfl⟩,
      fun way _ hp => h (s :: way) (by simp) ((List.prefix_cons_inj s).2 hp)⟩
  · rintro ⟨hs, hrest⟩ way hne hp
    obtain ⟨more, rfl, hmore⟩ := (List.prefix_cons_iff.1 hp).resolve_left hne
    by_cases hr : more = []
    · rwa [hr]
    · exact hrest more hr hmore

theorem isLinkless_cons {s : String} {rest : List String} :
    IsLinkless disk here (s :: rest) ↔
      (∀ target, disk.at? (here ++ [s]) ≠ some (.link target)) ∧
      IsLinkless disk (here ++ [s]) rest :=
  forall_places_cons (P := fun place => ∀ target, disk.at? place ≠ some (.link target))

theorem isChain_cons {s : String} {rest : List String} :
    IsChain disk here (s :: rest) ↔
      disk.at? (here ++ [s]) = some .directory ∧ IsChain disk (here ++ [s]) rest :=
  forall_places_cons (P := fun place => disk.at? place = some .directory)

theorem isClear_cons {s : String} {rest : List String} :
    IsClear disk here (s :: rest) ↔
      (disk.at? (here ++ [s]) = none ∨ disk.at? (here ++ [s]) = some .directory) ∧
        IsClear disk (here ++ [s]) rest :=
  forall_places_cons (P := fun place => disk.at? place = none ∨ disk.at? place = some .directory)

/-- A chain is walked to its end, or the walk fails in it: because something is missing, if nothing
but directories stands in the way. -/
theorem walk_chain (hn : ∀ s ∈ names, Path.IsName s) (hl : IsLinkless disk here names) :
    (IsChain disk here names ∧ (∀ s ∈ names, IsProper s) ∧ ∀ rest,
      walkFrom disk true m here (names ++ rest) = walkFrom disk true m (here ++ names) rest) ∨
    ∃ cause, (∀ rest, rest ≠ [] → walkFrom disk true m here (names ++ rest) = .error cause) ∧
      ((∀ s ∈ names, IsProper s) → IsClear disk here names → cause = .missing) := by
  induction names generalizing here with
  | nil =>
    refine .inl ⟨fun way hne hp => absurd (List.prefix_nil.1 hp) hne, by simp, fun rest => ?_⟩
    rw [List.nil_append, List.append_nil]
  | cons s names ih =>
    have hs := hn s List.mem_cons_self
    have hstep := hs.isStep.1
    by_cases hlen : nameLimit < s.utf8ByteSize
    · refine .inr ⟨.nameTooLong, fun rest _ => ?_, fun hp _ => ?_⟩
      · rw [List.cons_append, walkFrom_tooLong hstep hs.2.2.1 hlen]
      · have := (hp s List.mem_cons_self).2.2
        omega
    · have hproper : IsProper s := ⟨hstep, hs.2.2.1, by omega⟩
      cases hfound : disk.at? (here ++ [s]) with
      | none =>
        exact .inr ⟨.missing, fun rest hr => walkFrom_missing hproper hfound (by simp [hr]),
          fun _ _ => rfl⟩
      | some entry =>
        cases entry with
        | file bytes modified =>
          refine .inr ⟨.notDirectory, fun rest hr => ?_, fun _ h => ?_⟩
          · rw [List.cons_append, walkFrom_proper hproper, hfound]
            exact if_neg (by simp [hr])
          · rcases (isClear_cons.1 h).1 with h | h <;> rw [hfound] at h <;> cases h
        | link target => exact absurd hfound ((isLinkless_cons.1 hl).1 target)
        | directory =>
          have hwalk (rest : List String) : walkFrom disk true m here (s :: names ++ rest) =
              walkFrom disk true m (here ++ [s]) (names ++ rest) :=
            walkFrom_enter hproper hfound
          rcases ih (List.forall_mem_cons.1 hn).2 (isLinkless_cons.1 hl).2 with
            ⟨hc, hp, hw⟩ | ⟨cause, hw, hmissing⟩
          · refine .inl ⟨isChain_cons.2 ⟨hfound, hc⟩, ?_, fun rest => ?_⟩
            · exact List.forall_mem_cons.2 ⟨hproper, hp⟩
            · rw [hwalk, hw, List.append_assoc]
              rfl
          · exact .inr ⟨cause, fun rest hr => by rw [hwalk, hw rest hr], fun hp hc =>
              hmissing (List.forall_mem_cons.1 hp).2 (isClear_cons.1 hc).2⟩

theorem leads_of_isChain (h : IsChain disk here names) (hp : ∀ s ∈ names, IsProper s) :
    Leads disk n here names n (here ++ names) := by
  induction names generalizing here with
  | nil =>
    rw [List.append_nil]
    exact .done
  | cons s rest ih =>
    obtain ⟨hs, hrest⟩ := isChain_cons.1 h
    have := ih hrest fun x hx => hp x (List.mem_cons_of_mem s hx)
    rw [List.append_assoc] at this
    exact .enter (hp s List.mem_cons_self) hs this

/-- A path whose steps go on along a chain leads to the end of the chain. -/
theorem Reaches.onward (h : Reaches disk root base) (ha : p.isAbsolute = root.isAbsolute)
    (hs : p.steps = root.steps ++ names) (hc : IsChain disk base names)
    (hp : ∀ n ∈ names, IsProper n) :
    Reaches disk p (base ++ names) := by
  obtain ⟨m, hm⟩ := h
  rw [← startOf_eq ha] at hm
  have hnames : names.filter (!Path.isIdle ·) = names :=
    List.filter_eq_self.2 fun n hn => by simp [(hp n hn).1]
  refine ⟨m, (hm.append (leads_of_isChain hc hp)).congr ?_⟩
  rw [List.filter_append, hnames]
  exact hs.symm

theorem isChain_concat {init : List String} {s : String} : IsChain disk base (init ++ [s]) ↔
    IsChain disk base init ∧ disk.at? (base ++ (init ++ [s])) = some .directory := by
  constructor
  · exact fun h => ⟨fun way hne hp => h way hne (hp.trans (List.prefix_append _ _)),
      h _ (by simp) List.prefix_rfl⟩
  · rintro ⟨h, hlast⟩ way hne hp
    rcases List.prefix_concat_iff.1 hp with rfl | hp
    · exact hlast
    · exact h way hne hp

theorem isClear_concat {init : List String} {s : String} : IsClear disk base (init ++ [s]) ↔
    IsClear disk base init ∧
      (disk.at? (base ++ init ++ [s]) = none ∨
        disk.at? (base ++ init ++ [s]) = some .directory) := by
  constructor
  · refine fun h => ⟨fun way hne hp => h way hne (hp.trans (List.prefix_append _ _)), ?_⟩
    rw [List.append_assoc]
    exact h (init ++ [s]) (by simp) List.prefix_rfl
  · rintro ⟨h, hlast⟩ way hne hp
    rcases List.prefix_concat_iff.1 hp with rfl | hp
    · rwa [← List.append_assoc]
    · exact h way hne hp

/-! ## Paths that go on by names -/

/-- A path whose last segments are names that go on from a root. -/
structure Extends (root p : Path) (names : List String) : Prop where
  isAbsolute : p.isAbsolute = root.isAbsolute
  front : ∃ front, p.segments = front ++ names ∧ front.filter (!Path.isIdle ·) = root.steps
  names : ∀ n ∈ names, Path.IsName n

theorem filter_names (h : ∀ n ∈ names, Path.IsName n) : names.filter (!Path.isIdle ·) = names :=
  List.filter_eq_self.2 fun n hn => by simp [(h n hn).isStep.1]

theorem Extends.steps (h : Extends root p names) : p.steps = root.steps ++ names := by
  obtain ⟨front, hs, hf⟩ := h.front
  rw [Path.steps, hs, List.filter_append, hf, filter_names h.names]

theorem Extends.refl (root : Path) : Extends root root [] :=
  ⟨rfl, ⟨root.segments, (List.append_nil _).symm, rfl⟩, nofun⟩

/-- A path goes on by the segments of a text that is joined to it, if these are names. -/
theorem Extends.join_text {t : String} (h : Extends root p names)
    (ht : ∀ n ∈ Path.segments ⟨t⟩, Path.IsName n) :
    Extends root (p.join t) (names ++ Path.segments ⟨t⟩) := by
  have hrel := Path.isRelative_of_segments ht
  obtain ⟨front, hsegments, hfront⟩ := h.front
  have hempty : Path.segments ⟨""⟩ = [""] := Path.segments_of_noSlash (by decide)
  -- a path behind which no slash is put ends with an empty segment, which is no name
  have opened (rest : List String) (hp : p.segments = rest ++ [""]) :
      names = [] ∧ rest.filter (!Path.isIdle ·) = root.steps := by
    obtain rfl : names = [] := by
      rcases names.eq_nil_or_concat with hnil | ⟨others, m, rfl⟩
      · exact hnil
      · have hlast := congrArg List.getLast? (hsegments.symm.trans hp)
        rw [List.concat_eq_append, ← List.append_assoc, List.getLast?_concat,
          List.getLast?_concat] at hlast
        exact absurd (Option.some.inj hlast) (h.names m (by simp)).1
    rw [List.append_nil] at hsegments
    rw [← hsegments, hp, List.filter_append] at hfront
    exact ⟨rfl, (List.append_nil _).symm.trans hfront⟩
  refine ⟨(p.isAbsolute_join hrel).trans h.isAbsolute, ?_, fun n hn => ?_⟩
  · rcases p.join_cases hrel with ⟨hp, hj⟩ | ⟨a, hp, hj⟩ | ⟨hp, hj⟩
    · obtain ⟨text⟩ := p
      obtain rfl : text = "" := hp
      obtain ⟨rfl, hrest⟩ := opened [] hempty
      exact ⟨[], by rw [hj]; rfl, hrest⟩
    · obtain ⟨text⟩ := p
      obtain rfl : text = a ++ "/" := hp
      obtain ⟨rfl, hrest⟩ := opened (Path.segments ⟨a⟩) (by
        rw [← hempty, ← Path.segments_append_slash, String.append_empty])
      exact ⟨Path.segments ⟨a⟩, by rw [hj, Path.segments_append_slash]; rfl, hrest⟩
    · refine ⟨front, ?_, hfront⟩
      rw [hj, Path.segments_append_slash, ← List.append_assoc, ← hsegments]
  · rcases List.mem_append.1 hn with hn | hn
    · exact h.names n hn
    · exact ht n hn

theorem Extends.join {n : String} (h : Extends root p names) (hn : Path.IsName n) :
    Extends root (p.join n) (names ++ [n]) := by
  have hsegments : Path.segments ⟨n⟩ = [n] := Path.segments_of_noSlash hn.2.2.2
  have := h.join_text (t := n) (by simpa [hsegments] using hn)
  rwa [hsegments] at this

theorem extends_join (root : Path) (h : ∀ n ∈ names, Path.IsName n) (hne : names ≠ []) :
    Extends root (root.join ("/".intercalate names)) names := by
  have hsegments : Path.segments ⟨"/".intercalate names⟩ = names :=
    Path.segments_intercalate (fun n hn => (h n hn).2.2.2) hne
  have := (Extends.refl root).join_text (t := "/".intercalate names) (by rwa [hsegments])
  rwa [hsegments] at this

theorem Extends.components {init : List String} {n : String} (h : Extends root p (init ++ [n])) :
    p.components = p.lead ++ (root.steps ++ init) ++ [n] := by
  rw [Path.components_eq, h.steps, List.append_assoc, List.append_assoc]

theorem Extends.withAncestors {init : List String} {n : String} (h : Extends root p (init ++ [n])) :
    p.withAncestors = p :: (Path.ofComponents p.components.dropLast).withAncestors :=
  Path.withAncestors_eq (by simp [h.components])

theorem Extends.dropLast_components {init : List String} {n : String}
    (h : Extends root p (init ++ [n])) :
    p.components.dropLast = p.lead ++ (root.steps ++ init) := by
  rw [h.components, List.dropLast_concat]

theorem Extends.isStep {init : List String} {n : String} (h : Extends root p (init ++ [n])) :
    ∀ s ∈ root.steps ++ init, Path.IsStep s := fun s hs =>
  Path.isStep_of_mem_steps (p := p)
    (by rw [h.steps, ← List.append_assoc]; exact List.mem_append_left _ hs)

/-- The steps of the path above a path that goes on by names. -/
theorem Extends.steps_above {init : List String} {n : String} (h : Extends root p (init ++ [n])) :
    (Path.ofComponents p.components.dropLast).steps = root.steps ++ init ∧
      (Path.ofComponents p.components.dropLast).isAbsolute = root.isAbsolute := by
  obtain ⟨hsteps, habsolute⟩ := Path.ofComponents_steps p.isLead_lead h.isStep
  rw [h.dropLast_components, hsteps, habsolute, ← h.isAbsolute, Bool.eq_iff_iff, decide_eq_true_iff,
    Path.lead_eq_slash_iff]
  exact ⟨rfl, .rfl⟩

/-- The path above a path that goes on by names. -/
theorem Extends.above {init : List String} {n : String} (h : Extends root p (init ++ [n]))
    (hne : init ≠ []) : Extends root (Path.ofComponents p.components.dropLast) init := by
  obtain ⟨front, hfront, hidle⟩ := Path.segments_ofComponents p.isLead_lead h.isStep (by simp [hne])
  refine ⟨h.steps_above.2, ⟨front ++ root.steps, ?_, ?_⟩,
    fun m hm => h.names m (List.mem_append_left _ hm)⟩
  · rw [h.dropLast_components, hfront, List.append_assoc]
  · rw [List.filter_append, List.filter_eq_nil_iff.2 fun s hs => by simp [hidle s hs],
      List.nil_append]
    exact List.filter_eq_self.2 fun s hs => by simp [Path.isIdle_of_mem_steps hs]

theorem faultOf_of_steps {names : List String} (h : p.steps = names) (hne : names ≠ [])
    (hnul : '\x00' ∉ p.text.toList) : faultOf p = none := by
  have htext : p.text ≠ "" := by
    intro he
    obtain ⟨text⟩ := p
    obtain rfl : text = "" := he
    exact hne (h.symm.trans (by decide))
  rw [faultOf, if_neg htext, if_neg hnul]

theorem nul_of_noFault (h : faultOf p = none) : '\x00' ∉ p.text.toList := by
  unfold faultOf at h
  split at h
  · cases h
  · split at h
    · cases h
    · assumption

/-- The system takes the path above a path that it takes. -/
theorem Extends.noFault_above {init : List String} {n : String} (h : Extends root p (init ++ [n]))
    (hne : init ≠ []) (hf : faultOf p = none) :
    faultOf (Path.ofComponents p.components.dropLast) = none :=
  faultOf_of_steps (h.above hne).steps (by simp [hne]) (Path.noNul_above (nul_of_noFault hf))

theorem Extends.parent? {init : List String} {s : String} (h : Extends root p (init ++ [s])) :
    p.parent? = some (Path.ofComponents p.components.dropLast) := by
  have hs := h.names s (by simp)
  unfold Path.parent?
  split
  · rename_i hc
    simp [h.components] at hc
  · rename_i hc
    have hlast := congrArg List.getLast? hc
    rw [h.components, List.getLast?_concat] at hlast
    cases hlast
    exact absurd hs (by decide)
  · rfl

theorem extends_pathBelow (source : Path) (h : ∀ n ∈ names, Path.IsName n) :
    Extends source (pathBelow source names) names := by
  induction names using List.reverseRecOn with
  | nil => exact ⟨rfl, ⟨source.segments, (List.append_nil _).symm, rfl⟩, h⟩
  | append_singleton init n ih =>
    rw [pathBelow, List.foldl_append]
    exact (ih fun m hm => h m (List.mem_append_left _ hm)).join (h n (by simp))

/-! ## Making the last directory of a chain -/

/-- What making the directory at the end of a chain can do. -/
inductive LastStep (disk : Disk) (p : Path) (place : Location) (n : String) : Prop
  | tooLong (h : nameLimit < n.utf8ByteSize) (made : disk.makeDirectory p = .error .nameTooLong)
      (found : disk.isDirectory p = false)
  | fresh (h : IsProper n) (free : disk.at? place = none)
      (made : disk.makeDirectory p = .ok (disk.put place .directory))
  | there (h : IsProper n) (held : disk.at? place = some .directory)
      (made : disk.makeDirectory p = .error .alreadyThere) (found : disk.isDirectory p = true)
  | blocked (bytes : ByteArray) (modified : Nat)
      (held : disk.at? place = some (.file bytes modified))
      (made : disk.makeDirectory p = .error .alreadyThere) (found : disk.isDirectory p = false)

theorem isDirectory_of_resolve_ne
    (hr : ∀ place, disk.resolve true p ≠ .ok (.held place .directory)) :
    disk.isDirectory p = false := by
  rw [← Bool.not_eq_true]
  intro hd
  obtain ⟨place, hp⟩ := resolve_of_isDirectory hd
  exact hr place hp

theorem makeDirectory_of_nameOf {slash : Bool} (h : disk.nameOf p = .ok (some place, slash)) :
    disk.makeDirectory p =
      if (disk.at? place).isSome then .error .alreadyThere
      else .ok (disk.put place .directory) := by
  unfold makeDirectory
  rw [h]
  rfl

theorem makeDirectory_of_nameOf_error {cause : IoError} (h : disk.nameOf p = .error cause) :
    disk.makeDirectory p = .error cause := by
  unfold makeDirectory
  rw [h]
  rfl

/-- A path that goes on by names is walked from where its root leads. -/
theorem Extends.walks {init : List String} {s : String} (h : Extends root p (init ++ [s]))
    (hf : faultOf p = none) (hr : Reaches disk root base) :
    ∃ m, disk.resolve true p = walkFrom disk true m base (init ++ [s]) ∧
      disk.nameOf p = disk.lastName p s ∧
      walkFrom disk true linkLimit (startOf disk.cwd p) ((bareSegments p).dropLast ++ ["."]) =
        walkFrom disk true m base (init ++ ["."]) := by
  have hs := h.names s (by simp)
  obtain ⟨front, hsegments, hfront⟩ := h.front
  obtain ⟨m, hm⟩ := hr
  rw [← startOf_eq h.isAbsolute] at hm
  have hroot (rest : List String) :
      walkFrom disk true linkLimit (startOf disk.cwd p) (front ++ rest) =
      walkFrom disk true m base rest :=
    (hm.congr hfront.symm).walk rest
  have hbare : bareSegments p = front ++ init ++ [s] := by
    rw [bareSegments, hsegments, ← List.append_assoc, List.reverse_append, List.reverse_singleton,
      List.singleton_append, List.dropWhile_cons_of_neg (by simpa using hs.1)]
    simp
  refine ⟨m, ?_, ?_, ?_⟩
  · rw [resolve_of_noFault hf, hsegments, hroot]
  · rw [nameOf_of_noFault hf, hbare, List.getLast?_concat]
  · rw [hbare, List.dropLast_concat, List.append_assoc, hroot]

/-- Making a directory at the end of a chain: what is above it is a chain of directories, or the
call fails in the chain. -/
theorem Extends.makeDirectory_cases {init : List String} {s : String}
    (h : Extends root p (init ++ [s])) (hf : faultOf p = none) (hr : Reaches disk root base)
    (hl : IsLinkless disk base (init ++ [s])) :
    (IsChain disk base init ∧ (∀ n ∈ init, IsProper n) ∧ LastStep disk p (base ++ init ++ [s]) s) ∨
      ∃ cause, disk.makeDirectory p = .error cause ∧ disk.isDirectory p = false ∧
        ((∀ n ∈ init, IsProper n) → IsClear disk base init → cause = .missing) ∧
        ¬ (IsChain disk base init ∧ ∀ n ∈ init, IsProper n) := by
  have hs := h.names s (by simp)
  have hinit : ∀ n ∈ init, Path.IsName n := fun n hn => h.names n (List.mem_append_left _ hn)
  have hdots : ¬ (s = "." ∨ s = "..") := fun hd => hd.elim hs.2.1 hs.2.2.1
  obtain ⟨m, hresolve, hname, hwalk⟩ := h.walks hf hr
  rcases walk_chain hinit (hl.mono (List.prefix_append _ _)) with
    ⟨hc, hp, hw⟩ | ⟨cause, hw, hmissing⟩
  · refine .inl ⟨hc, hp, ?_⟩
    rw [hw, walkFrom_idle (by decide), walkFrom_nil] at hwalk
    rw [lastName_of_walk hwalk, if_neg hdots] at hname
    rw [hw] at hresolve
    by_cases hlen : nameLimit < s.utf8ByteSize
    · rw [if_pos hlen] at hname
      rw [walkFrom_tooLong hs.isStep.1 hs.2.2.1 hlen] at hresolve
      exact .tooLong hlen (makeDirectory_of_nameOf_error hname)
        (isDirectory_of_resolve_ne fun place => by rw [hresolve]; simp)
    · have hproper : IsProper s := ⟨hs.isStep.1, hs.2.2.1, by omega⟩
      rw [if_neg hlen] at hname
      rw [walkFrom_proper hproper] at hresolve
      have hmake := makeDirectory_of_nameOf hname
      cases hat : disk.at? (base ++ init ++ [s]) with
      | none =>
        rw [hat, if_neg (by simp)] at hmake
        exact .fresh hproper hat hmake
      | some entry =>
        rw [hat, Option.isSome_some, if_pos rfl] at hmake
        rw [hat] at hresolve
        cases entry with
        | directory =>
          rw [walkFrom_nil] at hresolve
          exact .there hproper hat hmake (isDirectory_of_resolve hresolve)
        | file bytes modified =>
          refine .blocked bytes modified hat hmake (isDirectory_of_resolve_ne fun place => ?_)
          rw [hresolve]
          simp
        | link target =>
          rw [List.append_assoc] at hat
          exact absurd hat (hl _ (by simp) List.prefix_rfl target)
  · refine .inr ⟨cause, makeDirectory_of_nameOf_error ?_, isDirectory_of_resolve_ne fun place => ?_,
      hmissing, fun hchain => ?_⟩
    · rw [hname, lastName, hwalk, hw _ (by simp)]
      rfl
    · rw [hresolve, hw _ (by simp)]
      simp
    · have := hw ["."] (by simp)
      rw [(leads_of_isChain hchain.1 hchain.2).walk, walkFrom_idle (by decide),
        walkFrom_nil] at this
      cases this

/-! ## Making all of a chain -/

/-- A disk with a directory at a location where nothing was. -/
def raiseOne (disk : Disk) (place : Location) : Disk :=
  if (disk.at? place).isSome then disk else disk.put place .directory

/-- A disk with the directories of a chain where nothing was. -/
def raise (disk : Disk) (here : Location) : List String → Disk
  | [] => disk
  | n :: rest => raise (disk.raiseOne (here ++ [n])) (here ++ [n]) rest

theorem raise_concat (disk : Disk) (here : Location) (init : List String) (s : String) :
    disk.raise here (init ++ [s]) = (disk.raise here init).raiseOne (here ++ init ++ [s]) := by
  induction init generalizing disk here with
  | nil =>
    rw [List.append_nil]
    rfl
  | cons n rest ih =>
    rw [List.cons_append, raise, raise, ih, List.append_assoc here [n]]
    rfl

theorem at?_raiseOne (hne : place ≠ []) (l : Location) :
    (disk.raiseOne place).at? l =
      if l = place then some ((disk.at? place).getD .directory) else disk.at? l := by
  unfold raiseOne
  cases h : disk.at? place with
  | some entry =>
    rw [Option.isSome_some, if_pos rfl]
    split
    · rename_i hl
      rw [hl, h]
      rfl
    · rfl
  | none =>
    rw [Option.isSome_none, if_neg (by simp)]
    split
    · rename_i hl
      rw [hl, at?_put disk hne]
      rfl
    · rename_i hl
      exact at?_put_of_ne disk hl _

/-- A location on a chain below a location. -/
def IsOn (base : Location) (names : List String) (place : Location) : Prop :=
  IsInside base place ∧ place <+: base ++ names

theorem isOn_iff :
    IsOn base names place ↔ ∃ way, way ≠ [] ∧ way <+: names ∧ place = base ++ way := by
  constructor
  · rintro ⟨⟨⟨way, rfl⟩, hne⟩, hp⟩
    exact ⟨way, fun hw => hne (by rw [hw, List.append_nil]),
      (List.prefix_append_right_inj base).1 hp, rfl⟩
  · rintro ⟨way, hne, hp, rfl⟩
    exact ⟨isInside_append base hne, (List.prefix_append_right_inj base).2 hp⟩

theorem isOn_concat {init : List String} {s : String} :
    IsOn base (init ++ [s]) place ↔ IsOn base init place ∨ place = base ++ init ++ [s] := by
  rw [isOn_iff, isOn_iff]
  constructor
  · rintro ⟨way, hne, hp, rfl⟩
    rcases List.prefix_concat_iff.1 hp with hp | hp
    · exact .inr (by rw [hp, List.append_assoc])
    · exact .inl ⟨way, hne, hp, rfl⟩
  · rintro (⟨way, hne, hp, rfl⟩ | rfl)
    · exact ⟨way, hne, hp.trans (List.prefix_append _ _), rfl⟩
    · exact ⟨init ++ [s], by simp, List.prefix_rfl, by rw [List.append_assoc]⟩

theorem not_isOn_last {init : List String} {s : String} :
    ¬ IsOn base init (base ++ init ++ [s]) := by
  rw [isOn_iff]
  rintro ⟨way, -, hp, he⟩
  rw [List.append_assoc, List.append_cancel_left_eq] at he
  have := hp.length_le
  rw [← he, List.length_append] at this
  exact absurd this (by simp)

open Classical in
/-- What a disk holds when a clear chain is made. -/
theorem at?_raise (h : IsClear disk base names) (place : Location) :
    (disk.raise base names).at? place = if IsOn base names place then some .directory
      else disk.at? place := by
  induction names using List.reverseRecOn generalizing place with
  | nil =>
    rw [if_neg]
    · rfl
    · rw [isOn_iff]
      rintro ⟨way, hne, hp, -⟩
      exact hne (List.prefix_nil.1 hp)
  | append_singleton init s ih =>
    obtain ⟨hinit, hs⟩ := isClear_concat.1 h
    have hlast := ih hinit (base ++ init ++ [s])
    rw [if_neg not_isOn_last] at hlast
    rw [raise_concat, at?_raiseOne (by simp), hlast, ih hinit]
    by_cases hp : place = base ++ init ++ [s]
    · rw [if_pos hp, if_pos (isOn_concat.2 (.inr hp))]
      rcases hs with hd | hd <;> rw [hd] <;> rfl
    · simp only [hp, if_false, isOn_concat, or_false]

theorem cwd_raise (disk : Disk) (here : Location) (names : List String) :
    (disk.raise here names).cwd = disk.cwd ∧ (disk.raise here names).now = disk.now := by
  induction names generalizing disk here with
  | nil => exact ⟨rfl, rfl⟩
  | cons n rest ih =>
    obtain ⟨hc, hn⟩ := ih (disk.raiseOne (here ++ [n])) (here ++ [n])
    rw [raise, hc, hn]
    unfold raiseOne
    split
    · exact ⟨rfl, rfl⟩
    · exact ⟨rfl, rfl⟩

theorem isChain_raise (h : IsClear disk base names) :
    IsChain (disk.raise base names) base names := by
  intro way hne hp
  rw [at?_raise h, if_pos (isOn_iff.2 ⟨way, hne, hp, rfl⟩)]

theorem persists_raise (h : IsClear disk base names) : Persists disk (disk.raise base names) := by
  intro place
  rw [at?_raise h]
  split
  · rename_i hon
    obtain ⟨way, hne, hp, rfl⟩ := isOn_iff.1 hon
    rcases h way hne hp with hd | hd <;> rw [hd] <;> simp
  · exact ⟨id, fun _ => id⟩

theorem IsLinkless.raise {init : List String} (hl : IsLinkless disk base names)
    (h : IsClear disk base init) : IsLinkless (disk.raise base init) base names := by
  intro way hne hp target
  rw [at?_raise h]
  split
  · simp
  · exact hl way hne hp target

theorem raiseOne_of_held {entry : Entry} (h : disk.at? place = some entry) :
    disk.raiseOne place = disk := by
  rw [raiseOne, h, Option.isSome_some, if_pos rfl]

theorem raiseOne_of_free (h : disk.at? place = none) :
    disk.raiseOne place = disk.put place .directory := by
  rw [raiseOne, h, Option.isSome_none, if_neg (by simp)]

theorem raise_of_isChain (h : IsChain disk base names) : disk.raise base names = disk := by
  induction names generalizing base with
  | nil => rfl
  | cons n rest ih =>
    obtain ⟨hn, hrest⟩ := isChain_cons.1 h
    rw [raise, raiseOne_of_held hn, ih hrest]

theorem Settled.raise {made : Disk} (h : Settled made base disk) (names : List String) :
    Settled made base (disk.raise base names) := by
  induction names using List.reverseRecOn with
  | nil => exact h
  | append_singleton init s ih =>
    rw [raise_concat, raiseOne]
    split
    · exact ih
    · have hin : IsInside base (base ++ init ++ [s]) := by
        rw [List.append_assoc]
        exact isInside_append base (by simp)
      exact ih.put hin (fun _ he => by cases he) fun _ => rfl

/-- The path behind a clear chain leads to the chain's end when the chain is made. -/
theorem Extends.reaches_raise (h : Extends root p names) (hr : Reaches disk root base)
    (hp : ∀ n ∈ names, IsProper n) (hc : IsClear disk base names) :
    Reaches (disk.raise base names) p (base ++ names) :=
  (hr.mono (cwd_raise disk base names).1 (persists_raise hc)).onward h.isAbsolute h.steps
    (isChain_raise hc) hp

theorem AgreeBelow.raise {disk' : Disk} {below : Location} (h : AgreeBelow below disk disk')
    (hc : IsClear disk base names) (hc' : IsClear disk' base names) :
    AgreeBelow below (disk.raise base names) (disk'.raise base names) := by
  intro place hp
  rw [at?_raise hc, at?_raise hc', h place hp]

open Simulation

theorem settle_of_lastStep {s : String} (h : LastStep disk p place s) (hs : IsProper s)
    (hp : disk.at? place = none ∨ disk.at? place = some .directory) :
    settle p disk = (.ok (), disk.raiseOne place) := by
  unfold settle
  cases h with
  | tooLong hlen =>
    have := hs.2.2
    omega
  | fresh _ free made => rw [made, raiseOne_of_free free]
  | there _ held made found =>
    rw [made, found, raiseOne_of_held held]
    rfl
  | blocked bytes modified held => rcases hp with hp | hp <;> rw [held] at hp <;> cases hp

theorem lastStep_of_settle {s : String} (h : LastStep disk p place s)
    (hr : (settle p disk).1 = .ok ()) :
    IsProper s ∧ (disk.at? place = none ∨ disk.at? place = some .directory) := by
  unfold settle at hr
  cases h with
  | tooLong hs made found =>
    rw [made, found] at hr
    cases hr
  | fresh hs free made => exact ⟨hs, .inl free⟩
  | there hs held made found => exact ⟨hs, .inr held⟩
  | blocked bytes modified held made found =>
    rw [made, found] at hr
    cases hr

theorem LastStep.ne_missing {s : String} (h : LastStep disk p place s) :
    disk.makeDirectory p ≠ .error .missing := by
  cases h with
  | tooLong _ made => simp [made]
  | fresh _ _ made => simp [made]
  | there _ _ made => simp [made]
  | blocked _ _ _ made => simp [made]

/-- Making a path that goes on by names, when nothing but directories stands in the way. -/
theorem ensureDirectory_of_isClear (h : Extends root p names) (hne : names ≠ [])
    (hf : faultOf p = none) (hr : Reaches disk root base) (hp : ∀ n ∈ names, IsProper n)
    (hc : IsClear disk base names) :
    (ensureDirectory p).run.run disk = (.ok (), disk.raise base names) := by
  induction names using List.reverseRecOn generalizing p with
  | nil => exact absurd rfl hne
  | append_singleton init s ih =>
    have hs := hp s (by simp)
    have hpinit : ∀ n ∈ init, IsProper n := fun n hn => hp n (List.mem_append_left _ hn)
    obtain ⟨hinit, hlast⟩ := isClear_concat.1 hc
    rw [ensureDirectory, h.withAncestors, raise_concat]
    rcases h.makeDirectory_cases hf hr hc.isLinkless with
      ⟨hchain, -, hstep⟩ | ⟨cause, hm, -, hmissing, hnot⟩
    · rw [run_ensureAll_of_ne _ hstep.ne_missing, raise_of_isChain hchain]
      exact settle_of_lastStep hstep hs hlast
    · obtain rfl := hmissing hpinit hinit
      have hi : init ≠ [] := by
        rintro rfl
        exact hnot ⟨fun way hw hp => absurd (List.prefix_nil.1 hp) hw, by simp⟩
      have hmade := ih (h.above hi) hi (h.noFault_above hi hf) hpinit hinit
      rw [ensureDirectory] at hmade
      rw [run_ensureAll_of_missing _ hm, hmade]
      have hr' := hr.mono (cwd_raise disk base init).1 (persists_raise hinit)
      rcases h.makeDirectory_cases hf hr' (hc.isLinkless.raise hinit) with
        ⟨-, -, hstep⟩ | ⟨_, -, -, -, hnot⟩
      · refine settle_of_lastStep hstep hs ?_
        rwa [at?_raise hinit, if_neg not_isOn_last]
      · exact absurd ⟨isChain_raise hinit, hpinit⟩ hnot

theorem settle_error {cause : IoError} (hm : disk.makeDirectory p = .error cause)
    (hd : disk.isDirectory p = false) : settle p disk = (.error cause, disk) := by
  unfold settle
  rw [hm, hd]
  rfl

theorem settle_of_fault {cause : IoError} (hf : faultOf p = some cause) (hs : p.components ≠ [])
    (disk : Disk) :
    disk.makeDirectory p ≠ .error .missing ∧ settle p disk = (.error cause, disk) := by
  have hm : disk.makeDirectory p = .error cause :=
    makeDirectory_of_nameOf_error (nameOf_of_fault hf)
  refine ⟨?_,
    settle_error hm (isDirectory_of_resolve_ne fun place => by rw [resolve_of_fault hf]; simp)⟩
  rw [hm]
  rintro ⟨⟩
  unfold faultOf at hf
  split at hf
  · rename_i he
    obtain ⟨text⟩ := p
    obtain rfl : text = "" := he
    exact hs (by decide)
  · split at hf
    · cases hf
    · cases hf

/-- Making a directory that is there does nothing. -/
theorem eq_of_ensureDirectory (hr : Reaches disk p place)
    (h : (ensureDirectory p).run.run disk = (.ok (), disk')) : disk' = disk := by
  by_cases hc : p.components = []
  · rw [ensureDirectory, Path.withAncestors, if_pos hc] at h
    cases h
    rfl
  · cases hf : faultOf p with
    | none =>
      rw [ensureDirectory_of_isDirectory (isDirectory_above hr ⟨List.prefix_rfl, rfl⟩ hf)] at h
      cases h
      rfl
    | some cause =>
      obtain ⟨hm, hsettle⟩ := settle_of_fault hf hc disk
      rw [ensureDirectory, Path.withAncestors_eq hc, Simulation.run_ensureAll_of_ne _ hm,
        hsettle] at h
      cases h

/-- Making a path that goes on by names succeeds only if nothing but directories stands in the
way. -/
theorem isClear_of_ensureDirectory (h : Extends root p names) (hne : names ≠ [])
    (hr : Reaches disk root base) (hl : IsLinkless disk base names)
    (hrun : ((ensureDirectory p).run.run disk).1 = .ok ()) :
    faultOf p = none ∧ (∀ n ∈ names, IsProper n) ∧ IsClear disk base names := by
  induction names using List.reverseRecOn generalizing p with
  | nil => exact absurd rfl hne
  | append_singleton init s ih =>
    rw [ensureDirectory, h.withAncestors] at hrun
    cases hf : faultOf p with
    | some cause =>
      obtain ⟨hm, hsettle⟩ := settle_of_fault hf (by simp [h.components]) disk
      rw [run_ensureAll_of_ne _ hm, hsettle] at hrun
      cases hrun
    | none =>
      have hproper (hp : ∀ n ∈ init, IsProper n) (hs : IsProper s) :
          ∀ n ∈ init ++ [s], IsProper n := by
        intro n hn
        rcases List.mem_append.1 hn with hn | hn
        · exact hp n hn
        · exact List.mem_singleton.1 hn ▸ hs
      rcases h.makeDirectory_cases hf hr hl with ⟨hchain, hp, hstep⟩ | ⟨cause, hm, hd, -, hnot⟩
      · rw [run_ensureAll_of_ne _ hstep.ne_missing] at hrun
        obtain ⟨hs, hlast⟩ := lastStep_of_settle hstep hrun
        exact ⟨rfl, hproper hp hs, isClear_concat.2 ⟨hchain.isClear, hlast⟩⟩
      · have hi : init ≠ [] := by
          rintro rfl
          exact hnot ⟨fun way hw hp => absurd (List.prefix_nil.1 hp) hw, by simp⟩
        by_cases hmissing : cause = .missing
        · subst hmissing
          rw [run_ensureAll_of_missing _ hm] at hrun
          rcases habove : (ensureAll
            (Path.ofComponents p.components.dropLast).withAncestors).run.run disk
            with ⟨cause | ⟨⟩, d⟩
          · rw [habove] at hrun
            cases hrun
          · rw [habove] at hrun
            obtain ⟨hf', hp, hinit⟩ :=
              ih (h.above hi) hi (hl.mono (List.prefix_append _ _))
                (by rw [ensureDirectory, habove])
            have hmade := ensureDirectory_of_isClear (h.above hi) hi hf' hr hp hinit
            rw [ensureDirectory, habove] at hmade
            cases hmade
            have hr' := hr.mono (cwd_raise disk base init).1 (persists_raise hinit)
            rcases h.makeDirectory_cases hf hr' (hl.raise hinit) with
              ⟨-, -, hstep⟩ | ⟨_, -, -, -, hnot⟩
            · obtain ⟨hs, hlast⟩ := lastStep_of_settle hstep hrun
              rw [at?_raise hinit, if_neg not_isOn_last] at hlast
              exact ⟨rfl, hproper hp hs, isClear_concat.2 ⟨hinit, hlast⟩⟩
            · exact absurd ⟨isChain_raise hinit, hp⟩ hnot
        · rw [run_ensureAll_of_ne _ (by simp [hm, hmissing]), settle_error hm hd] at hrun
          cases hrun

end StaticSite.Disk
