import Mathlib.Data.List.Infix
import StaticSite.Proofs.Disk.Merging

/-!
# Making the directories of a path

A path comes by a place after each of its steps (`passed`). When nothing but directories stands at
these places, making the path succeeds, whether or not it climbs on its way: then all these places
are directories, and nothing else has changed (`ensureDirectory_of_isMakeable`). Only a path that
ends with `.` has to be there before, because the call for its last directory is refused.
-/

namespace StaticSite.Disk

variable {disk made : Disk} {here there place : Location} {p q : Path} {names init : List String}
  {s : String} {n : Nat} {entry : Entry}

/-! ## Walking past directories -/

/-- A segment with which a walk goes on to another place. -/
def IsPassable (s : String) : Prop :=
  s = ".." ∨ IsProper s

theorem IsTree.above (h : disk.IsTree) (hat : disk.at? place = some entry) :
    disk.at? place.dropLast = some .directory := by
  rcases place.eq_nil_or_concat' with rfl | ⟨init, s, rfl⟩
  · exact at?_root disk
  · rw [List.dropLast_concat]
    exact h.directory hat

/-- Steps past directories lead on. -/
theorem leads_of_directories (hs : ∀ s ∈ names, IsPassable s)
    (hd : ∀ way, way <+: names → disk.at? (Path.landing here way) = some .directory) :
    Leads disk n here names n (Path.landing here names) := by
  induction names generalizing here with
  | nil => exact .done
  | cons s rest ih =>
    have hrest : ∀ x ∈ rest, IsPassable x := fun x hx => hs x (List.mem_cons_of_mem s hx)
    have htail (next : Location)
        (hn : ∀ way, Path.landing here (s :: way) = Path.landing next way) :
        ∀ way, way <+: rest → disk.at? (Path.landing next way) = some .directory := by
      intro way hw
      rw [← hn]
      exact hd _ ((List.prefix_cons_inj s).2 hw)
    rcases hs s List.mem_cons_self with rfl | hproper
    · rw [landing_up]
      exact .up (ih hrest (htail _ (landing_up here)))
    · rw [landing_proper hproper]
      have := ih hrest (htail _ (landing_proper hproper here))
      exact .enter hproper (htail _ (landing_proper hproper here) [] List.nil_prefix) this

/-- A walk past places where nothing but directories stands meets directories only, or something is
missing. -/
theorem walk_open (ht : disk.IsTree) (hhere : disk.at? here = some .directory)
    (hs : ∀ s ∈ names, Path.isIdle s = true ∨ IsPassable s)
    (hc : ∀ way, way <+: names → disk.at? (Path.landing here way) = none ∨
      disk.at? (Path.landing here way) = some .directory) :
    (∀ way, way <+: names → disk.at? (Path.landing here way) = some .directory) ∨
      ∀ rest, rest ≠ [] → walkFrom disk true n here (names ++ rest) = .error .missing := by
  induction names generalizing here with
  | nil => exact .inl fun way hw => List.prefix_nil.1 hw ▸ hhere
  | cons s rest ih =>
    have onward (next : Location) (hn : ∀ way, Path.landing here (s :: way) = Path.landing next way)
        (hnext : disk.at? next = some .directory)
        (hw : ∀ more, walkFrom disk true n here (s :: more) = walkFrom disk true n next more) :
        (∀ way, way <+: s :: rest → disk.at? (Path.landing here way) = some .directory) ∨
          ∀ more, more ≠ [] → walkFrom disk true n here (s :: rest ++ more) = .error .missing := by
      rcases ih hnext (fun x hx => hs x (List.mem_cons_of_mem s hx)) fun way hw => by
        rw [← hn]
        exact hc _ ((List.prefix_cons_inj s).2 hw) with hd | hmissing
      · refine .inl fun way hway => ?_
        rcases List.prefix_cons_iff.1 hway with rfl | ⟨more, rfl, hmore⟩
        · exact hhere
        · rw [hn]
          exact hd more hmore
      · exact .inr fun more hmore => by rw [List.cons_append, hw, hmissing more hmore]
    rcases hs s List.mem_cons_self with hidle | rfl | hproper
    · refine onward here (fun way => ?_) hhere fun _ => walkFrom_idle hidle
      rw [Path.landing, if_pos hidle]
    · exact onward _ (landing_up here) (ht.above hhere) fun _ => walkFrom_up
    · have hplace := hc [s] ⟨rest, rfl⟩
      rw [landing_proper hproper] at hplace
      rcases hplace with hnone | hdirectory
      · exact .inr fun more hmore => walkFrom_missing hproper hnone (by simp [hmore])
      · exact onward _ (landing_proper hproper here) hdirectory fun more =>
          walkFrom_enter hproper hdirectory

/-! ## Open paths -/

/-- The places that a path comes by, one after another, if all its names are directories. -/
def passed (disk : Disk) (p : Path) : List Location :=
  p.steps.inits.map (Path.landing (startOf disk.cwd p))

theorem mem_passed : place ∈ disk.passed p ↔
    ∃ way, way <+: p.steps ∧ Path.landing (startOf disk.cwd p) way = place := by
  simp only [passed, List.mem_map, List.mem_inits]

theorem landsAt_eq (cwd : Location) (p : Path) :
    p.landsAt cwd = Path.landing (startOf cwd p) p.steps :=
  (Path.landing_filter _ _).symm

theorem landsAt_mem_passed (disk : Disk) (p : Path) : p.landsAt disk.cwd ∈ disk.passed p :=
  mem_passed.2 ⟨p.steps, List.prefix_rfl, (landsAt_eq disk.cwd p).symm⟩

/-- What a location holds when the directories of a path are made. -/
def madeAt (disk : Disk) (p : Path) (place : Location) : Option Entry :=
  if place ∈ disk.passed p then some .directory else disk.at? place

/-- The system takes a path, and where it comes by nothing but directories stands. -/
structure IsOpen (disk : Disk) (p : Path) : Prop where
  noNul : '\x00' ∉ p.text.toList
  short : ∀ s ∈ p.steps, s.utf8ByteSize ≤ nameLimit
  start : disk.at? (startOf disk.cwd p) = some .directory
  clear : ∀ place ∈ disk.passed p, disk.at? place = none ∨ disk.at? place = some .directory

/-- An open path that does not end with `.`, unless it is there. -/
structure IsMakeable (disk : Disk) (p : Path) : Prop extends IsOpen disk p where
  dot : (bareSegments p).getLast? = some "." → disk.isDirectory p = true

theorem passed_congr (ha : q.isAbsolute = p.isAbsolute) (hs : q.steps = p.steps) :
    disk.passed q = disk.passed p := by
  rw [passed, passed, startOf_eq ha, hs]

theorem isPassable_of_mem_steps (h : s ∈ p.steps) (hshort : s.utf8ByteSize ≤ nameLimit) :
    IsPassable s :=
  or_iff_not_imp_left.2 fun hup => ⟨Path.isIdle_of_mem_steps h, hup, hshort⟩

theorem IsOpen.passable (h : disk.IsOpen p) : ∀ s ∈ p.steps, IsPassable s :=
  fun s hs => isPassable_of_mem_steps hs (h.short s hs)

/-- A path past directories leads to where its steps do. -/
theorem reaches_of_passed (hs : ∀ s ∈ p.steps, IsPassable s)
    (hd : ∀ place ∈ disk.passed p, disk.at? place = some .directory) :
    Reaches disk p (p.landsAt disk.cwd) := by
  refine ⟨linkLimit, ?_⟩
  rw [landsAt_eq]
  refine (leads_of_directories hs fun way hw => hd _ (mem_passed.2 ⟨way, hw, rfl⟩)).congr ?_
  exact List.filter_eq_self.2 fun s hm => by simp [Path.isIdle_of_mem_steps hm]

theorem noFault_of_components (hc : p.components ≠ []) (hnul : '\x00' ∉ p.text.toList) :
    faultOf p = none := by
  have htext : p.text ≠ "" := by
    intro he
    obtain ⟨text⟩ := p
    obtain rfl : text = "" := he
    exact hc (by decide)
  rw [faultOf, if_neg htext, if_neg hnul]

/-- A directory that is there does not have to be made. -/
theorem ensureDirectory_of_reaches (hr : Reaches disk p place) (hnul : '\x00' ∉ p.text.toList) :
    (ensureDirectory p).run.run disk = (.ok (), disk) := by
  by_cases hc : p.components = []
  · rw [ensureDirectory, Path.withAncestors, if_pos hc]
    rfl
  · exact ensureDirectory_of_isDirectory
      (isDirectory_above hr ⟨List.prefix_rfl, rfl⟩ (noFault_of_components hc hnul))

/-! ### Open paths with a slash behind them -/

theorem steps_join_empty (p : Path) : (p.join "").steps = p.steps := by
  rw [Path.steps_join p (by decide), show Path.steps ⟨""⟩ = [] by decide, List.append_nil]

theorem isAbsolute_join_empty (p : Path) : (p.join "").isAbsolute = p.isAbsolute :=
  Path.isAbsolute_join p (by decide)

theorem bareSegments_join_empty (p : Path) : bareSegments (p.join "") = bareSegments p := by
  rw [Path.join_empty, Path.opened]
  split
  · rfl
  · rw [bareSegments, Path.segments_append_end, List.reverse_append, List.reverse_singleton,
      List.singleton_append, List.dropWhile_cons_of_pos (by decide)]
    rfl

theorem noNul_join_empty (h : '\x00' ∉ p.text.toList) : '\x00' ∉ (p.join "").text.toList := by
  rw [Path.join_empty, Path.opened]
  split
  · exact h
  · simpa using h

theorem passed_join_empty (disk : Disk) (p : Path) : disk.passed (p.join "") = disk.passed p :=
  passed_congr (isAbsolute_join_empty p) (steps_join_empty p)

theorem IsOpen.join_empty (h : disk.IsOpen p) : disk.IsOpen (p.join "") where
  noNul := noNul_join_empty h.noNul
  short := steps_join_empty p ▸ h.short
  start := startOf_eq (isAbsolute_join_empty p) ▸ h.start
  clear := passed_join_empty disk p ▸ h.clear

theorem IsMakeable.join_empty (h : disk.IsMakeable p) : disk.IsMakeable (p.join "") where
  toIsOpen := h.toIsOpen.join_empty
  dot hdot := by
    rw [bareSegments_join_empty] at hdot
    obtain ⟨place, hr⟩ := resolve_of_isDirectory (h.dot hdot)
    have htext : p.text ≠ "" := fun he => by
      have hf := noFault_of_resolve hr
      rw [faultOf, if_pos he] at hf
      cases hf
    refine isDirectory_above (reaches_of_resolve hr) ⟨?_, isAbsolute_join_empty p⟩ ?_
    · rw [steps_join_empty]
    · refine (if_neg ?_).trans (if_neg (noNul_join_empty h.noNul))
      rw [Path.join_empty, Path.opened]
      split
      · exact htext
      · simp

/-! ## Making the last directory -/

open Simulation

/-- Making the last directory of a path, when the path leads to the one above it. -/
theorem settle_of_leads (hnul : '\x00' ∉ p.text.toList) (hlast : (bareSegments p).getLast? = some s)
    (hsteps : p.steps = init ++ [s]) (hs : IsPassable s)
    (hl : Leads disk linkLimit (startOf disk.cwd p) init linkLimit there)
    (hd : s = ".." → disk.at? there.dropLast = some .directory)
    (hp : disk.at? (Path.landing there [s]) = none ∨
      disk.at? (Path.landing there [s]) = some .directory) :
    settle p disk = (.ok (), disk.raiseOne (Path.landing there [s])) := by
  have hidle : Path.isIdle s = false := Path.isIdle_of_mem_steps (p := p) (by simp [hsteps])
  have hf : faultOf p = none := faultOf_of_steps hsteps (by simp) hnul
  have hinit : (bareSegments p).dropLast.filter (!Path.isIdle ·) = init := by
    have := steps_of_getLast hlast
    rw [hidle, if_neg (by decide), hsteps] at this
    exact (List.append_left_inj [s]).1 this.symm
  have hall : init.filter (!Path.isIdle ·) = init := List.filter_eq_self.2 fun x hx => by
    have := Path.isIdle_of_mem_steps (p := p) (s := x) (by simp [hsteps, hx])
    simp [this]
  have hwalk :
      walkFrom disk true linkLimit (startOf disk.cwd p) ((bareSegments p).dropLast ++ ["."]) =
      .ok (.held there .directory) := by
    rw [(hl.congr (hall.trans hinit.symm)).walk, walkFrom_idle (by decide), walkFrom_nil]
  have hname : disk.nameOf p = disk.lastName p s := by
    rw [nameOf_of_noFault hf, hlast]
  rw [lastName_of_walk hwalk] at hname
  have isDirectory {place : Location} (hend : Leads disk linkLimit there [s] linkLimit place) :
      disk.isDirectory p = true := by
    have hr : Reaches disk p place := ⟨linkLimit, (hl.append hend).congr (by
      rw [← hsteps]
      exact List.filter_eq_self.2 fun x hx => by simp [Path.isIdle_of_mem_steps hx])⟩
    exact isDirectory_above hr ⟨List.prefix_rfl, rfl⟩ hf
  rcases hs with rfl | hproper
  · rw [if_pos (.inr rfl)] at hname
    have hmake : disk.makeDirectory p = .error .alreadyThere := by
      rw [makeDirectory, hname]
      rfl
    have hheld : disk.at? (Path.landing there [".."]) = some .directory := by
      rw [landing_up]
      exact hd rfl
    rw [settle, hmake, isDirectory (.up .done), raiseOne_of_held hheld]
    rfl
  · rw [if_neg (fun hdots => hdots.elim (Path.isIdle_eq_false_iff.1 hidle).2 hproper.2.1),
      if_neg (Nat.not_lt.2 hproper.2.2)] at hname
    have hmake := makeDirectory_of_nameOf hname
    rw [landing_proper hproper, Path.landing] at hp ⊢
    rcases hp with hnone | hheld
    · rw [hnone, if_neg (by simp)] at hmake
      rw [settle, hmake, raiseOne_of_free hnone]
    · rw [hheld, Option.isSome_some, if_pos rfl] at hmake
      rw [settle, hmake, isDirectory (.enter hproper hheld .done), raiseOne_of_held hheld]
      rfl

/-! ## Making all directories -/

/-- The path above a path, when the path has a last step. -/
theorem above_of_steps (h : p.steps = init ++ [s]) :
    (Path.ofComponents p.components.dropLast).steps = init ∧
      (Path.ofComponents p.components.dropLast).isAbsolute = p.isAbsolute := by
  have hinit : ∀ x ∈ init, Path.IsStep x := fun x hx =>
    Path.isStep_of_mem_steps (p := p) (by simp [h, hx])
  obtain ⟨hsteps, habsolute⟩ := Path.ofComponents_steps p.isLead_lead hinit
  rw [Path.components_eq, h, ← List.append_assoc, List.dropLast_concat, hsteps, habsolute,
    Bool.eq_iff_iff, decide_eq_true_iff, Path.lead_eq_slash_iff]
  exact ⟨rfl, .rfl⟩

theorem passed_above (h : p.steps = init ++ [s]) :
    place ∈ disk.passed p ↔ place ∈ disk.passed (Path.ofComponents p.components.dropLast) ∨
      place = Path.landing (Path.landing (startOf disk.cwd p) init) [s] := by
  obtain ⟨hsteps, habsolute⟩ := above_of_steps h
  rw [mem_passed, mem_passed, hsteps, startOf_eq habsolute, ← Path.landing_append, h]
  constructor
  · rintro ⟨way, hway, rfl⟩
    rcases List.prefix_concat_iff.1 hway with rfl | hway
    · exact .inr rfl
    · exact .inl ⟨way, hway, rfl⟩
  · rintro (⟨way, hway, rfl⟩ | rfl)
    · exact ⟨way, hway.trans (List.prefix_append _ _), rfl⟩
    · exact ⟨_, List.prefix_rfl, rfl⟩

theorem getLast_bareSegments (h : p.steps ≠ []) :
    ∃ last, (bareSegments p).getLast? = some last := by
  refine Option.ne_none_iff_exists'.1 fun hnone => h ?_
  rw [← filter_segments_eq, List.getLast?_eq_none_iff.1 hnone]
  rfl

/-- A path of steps alone does not end with a dot. -/
theorem getLast_ofComponents {lead : List String} (hl : Path.IsLead lead)
    (hn : ∀ n ∈ names, Path.IsStep n)
    (hne : names ≠ []) :
    (bareSegments (Path.ofComponents (lead ++ names))).getLast? ≠ some "." := by
  intro hdot
  obtain ⟨front, hsegments, -⟩ := Path.segments_ofComponents hl hn hne
  obtain ⟨init, last, rfl⟩ := names.eq_nil_or_concat'.resolve_left hne
  have hlast := hn last (by simp)
  have hbare :
      bareSegments (Path.ofComponents (lead ++ (init ++ [last]))) = front ++ init ++ [last] := by
    rw [bareSegments, hsegments, ← List.append_assoc, List.reverse_append, List.reverse_singleton,
      List.singleton_append, List.dropWhile_cons_of_neg]
    · simp
    · simpa using (Path.isIdle_eq_false_iff.1 hlast.1).1
  rw [hbare, List.getLast?_concat] at hdot
  exact (Path.isIdle_eq_false_iff.1 hlast.1).2 (Option.some.inj hdot)

/-- The path above an open path is open. -/
theorem IsOpen.above (h : disk.IsOpen p) (hsteps : p.steps = init ++ [s]) :
    disk.IsOpen (Path.ofComponents p.components.dropLast) := by
  obtain ⟨hinit, habsolute⟩ := above_of_steps hsteps
  refine ⟨Path.noNul_above h.noNul, fun x hx => h.short x ?_, ?_, fun place hp => ?_⟩
  · rw [hinit] at hx
    simp [hsteps, hx]
  · rw [startOf_eq habsolute]
    exact h.start
  · exact h.clear place ((passed_above hsteps).2 (.inl hp))

theorem IsMakeable.above (h : disk.IsMakeable p) (hsteps : p.steps = init ++ [s]) :
    disk.IsMakeable (Path.ofComponents p.components.dropLast) := by
  have hopen := h.toIsOpen.above hsteps
  obtain ⟨hinit, habsolute⟩ := above_of_steps hsteps
  refine ⟨hopen, fun hdot => ?_⟩
  by_cases hne : init = []
  · have hcomponents : (Path.ofComponents p.components.dropLast).components ≠ [] := fun he => by
      have hlead : Path.ofComponents p.components.dropLast = ⟨""⟩ := by
        rw [Path.components_ofComponents (List.dropLast_prefix _)] at he
        rw [he, Path.ofComponents_nil]
      rw [hlead] at hdot
      exact absurd hdot (by decide)
    have hr : Reaches disk (Path.ofComponents p.components.dropLast) (startOf disk.cwd p) := by
      refine ⟨linkLimit, ?_⟩
      rw [startOf_eq habsolute]
      exact .idles fun x hx => by simpa using List.filter_eq_nil_iff.1 (hinit.trans hne) x hx
    exact isDirectory_above hr ⟨List.prefix_rfl, rfl⟩
      (noFault_of_components hcomponents hopen.noNul)
  · refine absurd hdot ?_
    rw [Path.components_eq, hsteps, ← List.append_assoc, List.dropLast_concat]
    exact getLast_ofComponents p.isLead_lead
      (fun x hx => Path.isStep_of_mem_steps (p := p) (by simp [hsteps, hx])) hne

/-- What the making of an open path leaves: where the path comes by there are directories, and all
else is as it was. -/
structure Opened (disk : Disk) (p : Path) (made : Disk) : Prop where
  cwd : made.cwd = disk.cwd
  at?_eq (place : Location) : made.at? place = disk.madeAt p place
  above {place l : Location} : place ∈ disk.passed p → l <+: place → made.at? l = some .directory

theorem IsTree.of_prefix (h : disk.IsTree) (hat : disk.at? place = some .directory) {l : Location}
    (hl : l <+: place) : disk.at? l = some .directory := by
  induction place using List.reverseRecOn with
  | nil => rwa [List.prefix_nil.1 hl]
  | append_singleton init s ih =>
    rcases List.prefix_concat_iff.1 hl with rfl | hl
    · exact hat
    · exact ih (h.directory hat) hl

theorem opened_of_directories (ht : disk.IsTree)
    (hd : ∀ place ∈ disk.passed p, disk.at? place = some .directory) : Opened disk p disk where
  cwd := rfl
  at?_eq place := by
    rw [madeAt]
    split
    · rename_i hp
      exact hd place hp
    · rfl
  above hp hl := ht.of_prefix (hd _ hp) hl

theorem at?_raiseOne_directory (h : disk.at? place = none ∨ disk.at? place = some .directory)
    (l : Location) :
    (disk.raiseOne place).at? l = if l = place then some .directory else disk.at? l := by
  by_cases hne : place = []
  · subst hne
    rw [raiseOne_of_held (at?_root disk)]
    split
    · rename_i hl
      rw [hl, at?_root]
    · rfl
  · rw [at?_raiseOne hne]
    rcases h with hat | hat <;> rw [hat] <;> rfl

theorem cwd_raiseOne (disk : Disk) (place : Location) : (disk.raiseOne place).cwd = disk.cwd := by
  unfold raiseOne
  split
  · rfl
  · rfl

/-- Making the last directory of an open path, when those above it are made. -/
theorem Opened.settle (h : disk.IsMakeable p) (hsteps : p.steps = init ++ [s])
    (hlast : (bareSegments p).getLast? = some s)
    (ho : Opened disk (Path.ofComponents p.components.dropLast) made) :
    ∃ last, Simulation.settle p made = (.ok (), last) ∧ Opened disk p last := by
  obtain ⟨hinit, habsolute⟩ := above_of_steps hsteps
  have hstart : startOf made.cwd p =
      startOf disk.cwd (Path.ofComponents p.components.dropLast) := by
    rw [ho.cwd, startOf_eq habsolute]
  have hthere : Path.landing (startOf made.cwd p) init ∈
      disk.passed (Path.ofComponents p.components.dropLast) :=
    mem_passed.2 ⟨init, hinit ▸ List.prefix_rfl, by rw [hstart]⟩
  have hl : Leads made linkLimit (startOf made.cwd p) init linkLimit
      (Path.landing (startOf made.cwd p) init) := by
    refine leads_of_directories (fun x hx => h.passable x (by simp [hsteps, hx])) fun way hw => ?_
    refine ho.above (mem_passed.2 ⟨way, hinit ▸ hw, rfl⟩) ?_
    rw [hstart]
  have hplace : Path.landing (Path.landing (startOf made.cwd p) init) [s] ∈ disk.passed p :=
    (passed_above hsteps).2 (.inr (by rw [ho.cwd]))
  have hp : made.at? (Path.landing (Path.landing (startOf made.cwd p) init) [s]) = none ∨
      made.at? (Path.landing (Path.landing (startOf made.cwd p) init) [s]) = some .directory := by
    rw [ho.at?_eq, madeAt]
    split
    · exact .inr rfl
    · exact h.clear _ hplace
  have hs := h.passable s (by simp [hsteps])
  refine ⟨_, settle_of_leads h.noNul hlast hsteps hs hl
    (fun _ => ho.above hthere (List.dropLast_prefix _)) hp, ?_⟩
  have hat := at?_raiseOne_directory hp
  refine ⟨(cwd_raiseOne _ _).trans ho.cwd, fun l => ?_, fun {l m} hl hm => ?_⟩
  · rw [hat, ho.at?_eq, madeAt, madeAt]
    simp only [passed_above hsteps, ho.cwd]
    by_cases he : l = Path.landing (Path.landing (startOf disk.cwd p) init) [s]
    · rw [if_pos he, if_pos (.inr he)]
    · simp only [he, or_false, if_false]
  · rw [hat]
    split
    · rfl
    · rename_i hne
      rcases (passed_above hsteps).1 hl with hl | rfl
      · exact ho.above hl hm
      · rw [ho.cwd] at hthere hne
        rcases hs with rfl | hproper
        · rw [landing_up] at hm
          exact ho.above hthere (hm.trans (List.dropLast_prefix _))
        · rw [landing_proper hproper] at hm hne
          exact ho.above hthere ((List.prefix_concat_iff.1 hm).resolve_left hne)

/-- The last segment of an open path that is not there is its last step. -/
theorem IsMakeable.getLast_of_missing (h : disk.IsMakeable p)
    (hmissing : walkFrom disk true linkLimit (startOf disk.cwd p) (p.steps ++ ["."]) =
      .error .missing)
    (hsteps : p.steps = init ++ [s]) : (bareSegments p).getLast? = some s := by
  obtain ⟨last, hlast⟩ := getLast_bareSegments (p := p) (by simp [hsteps])
  have hsplit := steps_of_getLast hlast
  cases hidle : Path.isIdle last with
  | true =>
    rw [getLast_eq_dot hlast hidle] at hlast
    obtain ⟨place, hr⟩ := resolve_of_isDirectory (h.dot hlast)
    obtain ⟨m, hm⟩ := reaches_of_resolve hr
    have hall : p.segments.filter (!Path.isIdle ·) = p.steps.filter (!Path.isIdle ·) :=
      (List.filter_eq_self.2 fun x hx => by simp [Path.isIdle_of_mem_steps hx]).symm
    rw [(hm.congr hall).walk, walkFrom_idle (by decide), walkFrom_nil] at hmissing
    cases hmissing
  | false =>
    rw [hidle, if_neg (by decide), hsteps] at hsplit
    obtain ⟨rfl, -⟩ := List.cons.inj (List.append_inj_right' hsplit rfl)
    exact hlast

/-- The call for the last directory of an open path goes on from those above it, or one of them is
missing. -/
theorem IsMakeable.above_cases (ht : disk.IsTree) (h : disk.IsMakeable p)
    (hsteps : p.steps = init ++ [s]) (hlast : (bareSegments p).getLast? = some s) :
    Opened disk (Path.ofComponents p.components.dropLast) disk ∨
    disk.makeDirectory p = .error .missing := by
  have hinit : (bareSegments p).dropLast.filter (!Path.isIdle ·) = init := by
    have := steps_of_getLast hlast
    rw [if_neg (by simp [Path.isIdle_of_mem_steps (p := p) (s := s) (by simp [hsteps])]),
      hsteps] at this
    exact (List.append_left_inj [s]).1 this.symm
  have hpassable : ∀ x ∈ (bareSegments p).dropLast, Path.isIdle x = true ∨ IsPassable x := by
    intro x hx
    by_cases hidle : Path.isIdle x = true
    · exact .inl hidle
    · refine .inr (h.passable x ?_)
      have : x ∈ init := hinit ▸ List.mem_filter.2 ⟨hx, by simpa using hidle⟩
      simp [hsteps, this]
  have hways (way : List String) (hw : way <+: (bareSegments p).dropLast) :
      Path.landing (startOf disk.cwd p) way ∈ disk.passed p := by
    refine mem_passed.2 ⟨way.filter (!Path.isIdle ·), ?_, Path.landing_filter _ _⟩
    exact hsteps ▸ (hinit ▸ hw.filter _).trans (List.prefix_append _ _)
  rcases walk_open (n := linkLimit) ht h.start hpassable fun way hw => h.clear _ (hways way hw) with
    hall | hmissing
  · refine .inl (opened_of_directories ht fun place hp => ?_)
    obtain ⟨way, hway, rfl⟩ := mem_passed.1 hp
    obtain ⟨hsteps', habsolute⟩ := above_of_steps hsteps
    rw [hsteps', ← hinit] at hway
    obtain ⟨front, back, hfront, hfilter, -⟩ := List.filter_eq_append_iff.1 hway.choose_spec.symm
    rw [startOf_eq habsolute, ← hfilter, Path.landing_filter]
    exact hall front (hfront ▸ List.prefix_append _ _)
  · refine .inr (makeDirectory_of_nameOf_error ?_)
    rw [nameOf_of_noFault (faultOf_of_steps hsteps (by simp) h.noNul), hlast]
    dsimp only
    rw [lastName, hmissing ["."] (by simp)]
    rfl

/-- Making an open path with the directories above it. -/
theorem ensureDirectory_of_isMakeable (ht : disk.IsTree) (h : disk.IsMakeable p) :
    ∃ made, (ensureDirectory p).run.run disk = (.ok (), made) ∧ Opened disk p made := by
  induction hsteps : p.steps using List.reverseRecOn generalizing p with
  | nil =>
    have hd : ∀ place ∈ disk.passed p, disk.at? place = some .directory := fun place hp => by
      obtain ⟨way, hway, rfl⟩ := mem_passed.1 hp
      rw [hsteps, List.prefix_nil] at hway
      rw [hway]
      exact h.start
    exact ⟨disk, ensureDirectory_of_reaches (reaches_of_passed h.passable hd) h.noNul,
      opened_of_directories ht hd⟩
  | append_singleton init s ih =>
    rcases walk_open (n := linkLimit) ht h.start (fun x hx => .inr (h.passable x hx)) (fun way hw =>
      h.clear _ (mem_passed.2 ⟨way, hw, rfl⟩)) with hall | hmissing
    · have hd : ∀ place ∈ disk.passed p, disk.at? place = some .directory := fun place hp => by
        obtain ⟨way, hway, rfl⟩ := mem_passed.1 hp
        exact hall way hway
      exact ⟨disk, ensureDirectory_of_reaches (reaches_of_passed h.passable hd) h.noNul,
        opened_of_directories ht hd⟩
    · have hne : p.steps ≠ [] := by simp [hsteps]
      have hlast := h.getLast_of_missing (hmissing ["."] (by simp)) hsteps
      obtain ⟨made, hmade, ho⟩ := ih (h.above hsteps) (above_of_steps hsteps).1
      rw [ensureDirectory] at hmade
      rw [ensureDirectory, Path.withAncestors_eq (by simp [Path.components_eq, hne])]
      by_cases hm : disk.makeDirectory p = .error .missing
      · rw [run_ensureAll_of_missing _ hm, hmade]
        exact ho.settle h hsteps hlast
      · rw [run_ensureAll_of_ne _ hm]
        exact ((h.above_cases ht hsteps hlast).resolve_right hm).settle h hsteps hlast

end StaticSite.Disk
