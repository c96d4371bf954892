import StaticSite.Proofs.Disk.Traces
import StaticSite.Proofs.Site.Linked
import StaticSite.Proofs.Site.Sources

/-!
# What becomes of resources

Each resource is copied or reported, by its name and target first and then by what its source is
(`Resources.IsOutcome`). Resources come one after the other, and of each a reported one leaves the
disk as it is, while a copied one runs the copy of its file or directory, which calls on its
destination only (`Resources.Accounts`, `Resources.IsCopied`). Where the sources and the
destinations lead to no links, the file or all that was below the directory then stands at the
destination (`Resources.StandsAt`), and what changes lies at the destinations of the resources that
were copied, apart from missing directories above them (`Resources.accounts_of_copyAll`).
-/

namespace StaticSite

open Disk Relation

theorem Disk.isFile_of_isDirectory {disk : Disk} {p : Path} (h : disk.isDirectory p = true) :
    disk.isFile p = false := by
  obtain ⟨place, hr⟩ := resolve_of_isDirectory h
  unfold isFile entry
  rw [hr]
  rfl

theorem Disk.resolve_of_isFile {disk : Disk} {p : Path} (h : disk.isFile p = true) :
    ∃ place bytes modified, disk.resolve true p = .ok (.held place (.file bytes modified)) := by
  unfold isFile at h
  split at h
  · rename_i he
    obtain ⟨found, hr, he⟩ := Except.bind_eq_ok_iff.1 he
    cases found with
    | free => cases he
    | held place entry =>
      cases he
      exact ⟨place, _, _, hr⟩
  · cases h

theorem Category.ofName?_eq_some_iff {word : String} {category : Category} :
    Category.ofName? word = some category ↔ category.directory = word := by
  constructor
  · intro h
    simpa using List.find?_some h
  · rintro rfl
    cases category <;> rfl

theorem Disk.isAbove_join_empty (p : Path) : (p.join "").IsAbove p :=
  ⟨steps_join_empty p ▸ List.prefix_rfl, isAbsolute_join_empty p⟩

theorem Disk.reaches_of_join_empty {disk : Disk} {p : Path} {base : Location}
    (h : Reaches disk (p.join "") base) : Reaches disk p base := by
  obtain ⟨m, hm⟩ := h
  rw [startOf_eq (isAbsolute_join_empty p)] at hm
  exact ⟨m, hm.congr (steps_join_empty p)⟩

namespace Resources

variable {disk disk' mid : Disk} {source output dest : Path} {name : String}
  {target : Option String} {w w' : World} {resources : Resources} {n : Nat} {place : Location}

/-! ## Outcomes -/

/-- Whether a resource's name and target may be used: they are contained and not empty. -/
def AreUsable (name : String) (target : Option String) : Prop :=
  ∀ text ∈ name :: target.toList, text ≠ "" ∧ Url.isContained text = true

/-- The targets that name the category of a file. -/
def categories : List String :=
  ["css", "font", "img", "js"]

/-- What becomes of a resource: its destination if it is copied, else what is reported. -/
structure IsOutcome (disk : Disk) (source output : Path) (name : String) (target : Option String)
    (outcome : Except Inconsistency Path) : Prop where
  refused : (∃ bad, outcome = .error (.invalidResourcePath bad)) ↔ ¬ AreUsable name target
  bad {bad : String} : outcome = .error (.invalidResourcePath bad) →
    bad ∈ name :: target.toList ∧ (bad = "" ∨ Url.isContained bad = false)
  copied (dest : Path) : outcome = .ok dest ↔ AreUsable name target ∧
    (disk.isDirectory (source.join name) = true ∧ dest = output.join (target.getD name) ∨
      disk.isFile (source.join name) = true ∧
        ∃ category ∈ categories, target = some category ∧ dest = (output.join category).join name)
  unknown : outcome = .error (.unknownCategory (source.join name) target) ↔ AreUsable name target ∧
    disk.isFile (source.join name) = true ∧ ∀ category ∈ categories, target ≠ some category
  missing : outcome = .error (.missingResource (source.join name)) ↔ AreUsable name target ∧
    disk.isDirectory (source.join name) = false ∧ disk.isFile (source.join name) = false

theorem unusable?_eq_none_iff : unusable? name target = none ↔ AreUsable name target := by
  simp [unusable?, AreUsable, isUsable, List.find?_eq_none]

theorem mem_categories_iff {word : String} :
    word ∈ categories ↔ ∃ category, Category.ofName? word = some category := by
  simp only [Category.ofName?_eq_some_iff]
  constructor
  · intro h
    simp only [categories, List.mem_cons, List.not_mem_nil, or_false] at h
    rcases h with rfl | rfl | rfl | rfl
    · exact ⟨.css, rfl⟩
    · exact ⟨.font, rfl⟩
    · exact ⟨.img, rfl⟩
    · exact ⟨.js, rfl⟩
  · rintro ⟨category, rfl⟩
    cases category <;> decide

namespace IsOutcome

theorem of_refused {bad : String} (h : unusable? name target = some bad) :
    IsOutcome disk source output name target (.error (.invalidResourcePath bad)) := by
  have hu : ¬ AreUsable name target := by
    rw [← unusable?_eq_none_iff, h]
    simp
  have hbad : ¬ isUsable bad = true := by simpa using List.find?_some h
  refine ⟨by simp [hu], ?_, by simp [hu], by simp [hu], by simp [hu]⟩
  rintro _ ⟨⟩
  refine ⟨List.mem_of_find?_eq_some h, ?_⟩
  rwa [isUsable, Bool.and_eq_true, bne_iff_ne, not_and_or, not_not, Bool.not_eq_true] at hbad

theorem of_directory (hu : AreUsable name target)
    (hd : disk.isDirectory (source.join name) = true) :
    IsOutcome disk source output name target (.ok (output.join (target.getD name))) := by
  have hf := isFile_of_isDirectory hd
  exact ⟨by simp [hu], nofun, by simp [hu, hd, hf, eq_comm], by simp [hf], by simp [hd]⟩

theorem of_file {category : Category} (hu : AreUsable name target)
    (hd : ¬ disk.isDirectory (source.join name) = true) (hf : disk.isFile (source.join name) = true)
    (hc : target.bind Category.ofName? = some category) :
    IsOutcome disk source output name target
      (.ok ((output.join category.directory).join name)) := by
  obtain ⟨word, rfl, hword⟩ := Option.bind_eq_some_iff.1 hc
  have hmem := mem_categories_iff.2 ⟨category, hword⟩
  obtain rfl := Category.ofName?_eq_some_iff.1 hword
  refine ⟨by simp [hu], nofun, fun dest => ?_, ?_, by simp [hf]⟩
  · simp [hu, hd, hf, hmem, eq_comm]
  · simp [hmem]

theorem of_unknown (hu : AreUsable name target) (hd : ¬ disk.isDirectory (source.join name) = true)
    (hf : disk.isFile (source.join name) = true) (hc : target.bind Category.ofName? = none) :
    IsOutcome disk source output name target
      (.error (.unknownCategory (source.join name) target)) := by
  have hnone : ∀ category ∈ categories, ¬ target = some category := by
    rintro category hmem rfl
    obtain ⟨_, hword⟩ := mem_categories_iff.1 hmem
    cases hc.symm.trans hword
  refine ⟨by simp [hu], nofun, fun dest => ?_, by simpa [hu, hf] using hnone, by simp [hf]⟩
  simp only [reduceCtorEq, false_iff, hd, false_and, false_or, not_and, not_exists]
  exact fun _ _ category hmem htarget _ => hnone category hmem htarget

theorem of_missing (hu : AreUsable name target) (hd : ¬ disk.isDirectory (source.join name) = true)
    (hf : ¬ disk.isFile (source.join name) = true) :
    IsOutcome disk source output name target (.error (.missingResource (source.join name))) :=
  ⟨by simp [hu], nofun, by simp [hd, hf], by simp [hf], by simp [hu, hd, hf]⟩

end IsOutcome

/-! ## Copies -/

/-- What a path names is copied to another path: a directory with all that is below it, or a file.
Only calls on the destination are made. -/
structure IsCopied (disk : Disk) (origin dest : Path) (disk' : Disk) : Prop where
  calls : ReflTransGen (CallsOn dest) disk disk'
  run : disk.isDirectory origin = true ∧
      (∃ count, (copyDirectory origin dest).run.run disk = (.ok count, disk')) ∨
    disk.isFile origin = true ∧ (copyFile origin dest).run.run disk = (.ok (), disk')

/-- What stands at a destination to which a path was copied: what the file held, unless it was
copied to itself, which empties it, and all that was below the directory, if the two lie apart. -/
inductive StandsAt (disk : Disk) (origin dest : Path) (disk' : Disk) : Prop
  | file {place copy : Location} {bytes : ByteArray} {modified : Nat}
      (hr : disk.resolve true origin = .ok (.held place (.file bytes modified)))
      (there : disk'.resolve true dest = .ok (.held copy
        (if copy = place then .file .empty disk.now else .file bytes modified)))
  | directory {place base : Location} (hr : disk.resolve true origin = .ok (.held place .directory))
      (there : Reaches disk' dest base)
      (below : ¬ base <+: place → ¬ place <+: base → ∀ names entry, names ≠ [] →
        disk.at? (place ++ names) = some entry → disk'.at? (base ++ names) = some entry)

section Copies

variable {origin : Path} {count : Nat}

theorem isCopied_of_copyDirectory (hw : disk.WellFormed) (hd : disk.isDirectory origin = true)
    (hrun : (copyDirectory origin dest).run.run disk = (.ok count, disk')) :
    IsCopied disk origin dest disk' := by
  have htraces := traces_copyDirectory hw origin dest
  rw [hrun] at htraces
  exact ⟨htraces, .inl ⟨hd, count, hrun⟩⟩

theorem isCopied_of_copyFile (hf : disk.isFile origin = true)
    (hrun : (copyFile origin dest).run.run disk = (.ok (), disk')) :
    IsCopied disk origin dest disk' := by
  have htraces := traces_copyFile origin dest disk
  rw [hrun] at htraces
  exact ⟨htraces, .inr ⟨hf, hrun⟩⟩

/-- Copying a directory without links makes the destination and those above it, and then writes
below the destination. -/
theorem run_copyDirectory_eq_ok (hw : disk.WellFormed)
    (hr : disk.resolve true origin = .ok (.held place .directory)) (ho : disk.HoldsNoLinks origin)
    (hrun : (copyDirectory origin dest).run.run disk = (.ok count, disk')) :
    ∃ base, Confined [dest] disk (disk.ensured (dest.join "")) ∧
      Reaches (disk.ensured (dest.join "")) dest base ∧
      ReflTransGen (WritesOn dest) (disk.ensured (dest.join "")) disk' := by
  have hnoLinks := ho.hasNoLinks (.refl hw.keyed) (reaches_of_resolve hr)
  have hlisted : disk.listed origin = .ok (([], .directory) :: disk.below place) := by
    rw [listed, resolve_false_of_directory hr fun hlink =>
      copyDirectory_of_link hlink dest count disk' hrun]
    rfl
  rw [copyDirectory, Simulation.run_get_bind, hlisted] at hrun
  obtain ⟨_, made, hfirst, hrun⟩ := Task.run_bind_eq_ok.1 (Task.run_adapt_eq_ok.1 hrun)
  obtain ⟨⟨⟩, _, hmade, hreturn⟩ := Task.run_bind_eq_ok.1 hfirst
  cases hreturn
  obtain ⟨_, _, hrest, hreturn⟩ := Task.run_bind_eq_ok.1 hrun
  cases hreturn
  -- the destination itself is made first, then what the directory holds is written below it
  obtain rfl : disk.ensured (dest.join "") = made := congrArg Prod.snd hmade
  obtain ⟨base, hreach⟩ := reaches_of_ensureDirectory hmade
  refine ⟨base, confined_ensureDirectory hw fun q hq => ?_, reaches_of_join_empty hreach, ?_⟩
  · exact (Path.isAbove_of_mem_withAncestors hq).trans (isAbove_join_empty dest)
  · have hwrites : Traces (WritesOn dest) (copyEntries origin dest (disk.below place)) := by
      refine traces_copyEntries (fun e he => ⟨?_, fun target hlink => ?_⟩) origin dest
      · exact isName_of_mem_listed hw hlisted (List.mem_cons_of_mem _ he)
      · obtain ⟨names, entry⟩ := e
        obtain rfl : entry = .link target := hlink
        exact hnoLinks (place ++ names) (List.prefix_append _ _) target
          (hw.keyed.at?_eq (mem_below he))
    have hwritten := hwrites (disk.ensured (dest.join ""))
    rwa [hrest] at hwritten

/-- A directory that is copied to where there are no links, without links in it, is confined to its
destination. -/
theorem confined_copyDirectory (hw : disk.WellFormed)
    (hr : disk.resolve true origin = .ok (.held place .directory)) (ho : disk.HoldsNoLinks origin)
    (hd : disk.HoldsNoLinks dest)
    (hrun : (copyDirectory origin dest).run.run disk = (.ok count, disk')) :
    Confined [dest] disk disk' := by
  obtain ⟨base, hmade, hreach, hwrites⟩ := run_copyDirectory_eq_ok hw hr ho hrun
  have hkeeps := hmade.keepsLinks
  have hrest := Confined.of_writes hwrites hkeeps.keyed hreach (hd.hasNoLinks hkeeps hreach)
  exact (hmade.trans hrest).mono (by simp)

theorem persists_withoutLinks_of_hasNoLinks {base : Location} (hw : disk.WellFormed)
    (hl : disk.HasNoLinks base) : Persists disk (disk.withoutLinks base) := fun l =>
  ⟨fun hd => (at?_withoutLinks_directory hw).2 hd, fun target ht =>
    (at?_withoutLinks hw).2 ⟨ht, fun hin => hl l hin.2.1 target ht⟩⟩

/-- All that is below a directory without links stands below a destination without links that lies
apart. -/
theorem standsAt_of_copyDirectory (hw : disk.WellFormed) (ht : disk.IsTree)
    (hr : disk.resolve true origin = .ok (.held place .directory)) (ho : disk.HoldsNoLinks origin)
    (hd : disk.HoldsNoLinks dest)
    (hrun : (copyDirectory origin dest).run.run disk = (.ok count, disk')) :
    StandsAt disk origin dest disk' := by
  obtain ⟨base, hmade, hreach, hwrites⟩ := run_copyDirectory_eq_ok hw hr ho hrun
  have hkeeps := hmade.keepsLinks
  have hnone : disk.HasNoLinks base := hd _ base hkeeps hreach
  have hrest := Confined.of_writes hwrites hkeeps.keyed hreach (hkeeps.hasNoLinks hnone)
  refine .directory hr (hrest.keepsLinks.reaches hreach)
    fun houtside houtside' names entry hne hat => ?_
  have hmadeWell := (ensureDirectory_grows hw (dest.join "")).wellFormed
  have hapart : IsApart disk origin dest place base :=
    { isDirectory := resolve_false_of_directory hr fun hlink =>
      copyDirectory_of_link hlink dest _ _ hrun
      source := (reaches_of_resolve hr).mono rfl (persists_withoutLinks_of_hasNoLinks hw hnone)
      dest := hreach.mono rfl
        (persists_withoutLinks_of_hasNoLinks hmadeWell (hkeeps.hasNoLinks hnone))
      outside := houtside
      outside' := houtside' }
  have hmerged := (copyDirectory_merges hw ht hapart (fun names _ _ _ _ target =>
    hnone (base ++ names) (List.prefix_append _ _) target) hrun).2 names hne
  rwa [hat, Option.some_or] at hmerged

namespace IsCopied

theorem confined (h : IsCopied disk origin dest disk') (hw : disk.WellFormed)
    (hfree : disk.isDirectory origin = true → disk.HoldsNoLinks origin ∧ disk.HoldsNoLinks dest) :
    Confined [dest] disk disk' := by
  rcases h.run with ⟨hdir, count, hrun⟩ | ⟨-, hrun⟩
  · obtain ⟨place, hr⟩ := resolve_of_isDirectory hdir
    obtain ⟨ho, hd⟩ := hfree hdir
    exact confined_copyDirectory hw hr ho hd hrun
  · exact confined_copyFile hw hrun

theorem standsAt (h : IsCopied disk origin dest disk') (hw : disk.WellFormed) (ht : disk.IsTree)
    (hfree : disk.isDirectory origin = true → disk.HoldsNoLinks origin ∧ disk.HoldsNoLinks dest) :
    StandsAt disk origin dest disk' := by
  rcases h.run with ⟨hdir, count, hrun⟩ | ⟨hfile, hrun⟩
  · obtain ⟨place, hr⟩ := resolve_of_isDirectory hdir
    obtain ⟨ho, hd⟩ := hfree hdir
    exact standsAt_of_copyDirectory hw ht hr ho hd hrun
  · obtain ⟨place, bytes, modified, hr⟩ := resolve_of_isFile hfile
    obtain ⟨copy, hcopy⟩ := resolve_of_copyFile hw hr hrun
    exact .file hr hcopy

end IsCopied

end Copies

/-! ## One resource -/

/-- A resource is reported, or what it names is copied. -/
theorem run_copyOne_eq_ok {copied : Bool} (hw : w.disk.WellFormed)
    (hrun : (copyOne source output name target).run.run w = (.ok copied, w')) :
    (∃ problem, IsOutcome w.disk source output name target (.error problem) ∧ copied = false ∧
      w' = { w with session := w.session.report problem }) ∨
    ∃ dest disk, IsOutcome w.disk source output name target (.ok dest) ∧ copied = true ∧
      w' = { w with disk } ∧ IsCopied w.disk (source.join name) dest disk := by
  unfold copyOne at hrun
  cases hu : unusable? name target with
  | some bad =>
    rw [hu] at hrun
    cases hrun
    exact .inl ⟨_, .of_refused hu, rfl, rfl⟩
  | none =>
    rw [hu] at hrun
    have husable := unusable?_eq_none_iff.1 hu
    obtain ⟨_, _, hget, hrun⟩ := Task.run_bind_eq_ok.1 hrun
    cases hget
    dsimp only at hrun
    by_cases hd : w.disk.isDirectory (source.join name) = true
    · rw [if_pos hd] at hrun
      obtain ⟨count, _, hcopy, hreturn⟩ := Task.run_bind_eq_ok.1 hrun
      cases hreturn
      obtain ⟨disk, hdone, rfl⟩ := SiteTask.run_onDisk_eq_ok.1 hcopy
      exact .inr ⟨_, disk, .of_directory husable hd, rfl, rfl,
        isCopied_of_copyDirectory hw hd hdone⟩
    · rw [if_neg hd] at hrun
      by_cases hf : w.disk.isFile (source.join name) = true
      · rw [if_pos hf] at hrun
        cases hc : target.bind Category.ofName? with
        | some category =>
          rw [hc] at hrun
          obtain ⟨_, _, hcopy, hreturn⟩ := Task.run_bind_eq_ok.1 hrun
          cases hreturn
          obtain ⟨disk, hdone, rfl⟩ := SiteTask.run_onDisk_eq_ok.1 hcopy
          exact .inr ⟨_, disk, .of_file husable hd hf hc, rfl, rfl, isCopied_of_copyFile hf hdone⟩
        | none =>
          rw [hc] at hrun
          cases hrun
          exact .inl ⟨_, .of_unknown husable hd hf hc, rfl, rfl⟩
      · rw [if_neg hf] at hrun
        cases hrun
        exact .inl ⟨_, .of_missing husable hd hf, rfl, rfl⟩

/-! ## All resources -/

/-- Of each resource in its turn, what becomes of it: one that is reported leaves the disk as it is,
and what one names that is copied is copied to its destination, in the sense of `Copied`. -/
inductive Accounts (Copied : Disk → Path → Path → Disk → Prop) (source output : Path) :
    Resources → List (Except Inconsistency Path) → Disk → Disk → Prop
  | nil {disk : Disk} : Accounts Copied source output [] [] disk disk
  | reported {disk disk' : Disk} {name : String} {target : Option String} {rest : Resources}
      {problem : Inconsistency} {outcomes : List (Except Inconsistency Path)}
      (h : IsOutcome disk source output name target (.error problem))
      (tail : Accounts Copied source output rest outcomes disk disk') :
      Accounts Copied source output ((name, target) :: rest) (.error problem :: outcomes) disk disk'
  | copied {disk mid disk' : Disk} {name : String} {target : Option String} {rest : Resources}
      {dest : Path} {outcomes : List (Except Inconsistency Path)}
      (h : IsOutcome disk source output name target (.ok dest))
      (copy : Copied disk (source.join name) dest mid)
      (tail : Accounts Copied source output rest outcomes mid disk') :
      Accounts Copied source output ((name, target) :: rest) (.ok dest :: outcomes) disk disk'

/-- What is reported, in order. -/
def reported (outcomes : List (Except Inconsistency Path)) : List Inconsistency :=
  outcomes.filterMap fun
    | .error problem => some problem
    | .ok _ => none

/-- Where resources are copied to, in order. -/
def destinations (outcomes : List (Except Inconsistency Path)) : List Path :=
  outcomes.filterMap Except.toOption

@[simp]
theorem reported_error (problem : Inconsistency) (outcomes : List (Except Inconsistency Path)) :
    reported (.error problem :: outcomes) = problem :: reported outcomes := rfl

@[simp]
theorem reported_ok (dest : Path) (outcomes : List (Except Inconsistency Path)) :
    reported (.ok dest :: outcomes) = reported outcomes := rfl

@[simp]
theorem destinations_error (problem : Inconsistency) (outcomes : List (Except Inconsistency Path)) :
    destinations (.error problem :: outcomes) = destinations outcomes := rfl

@[simp]
theorem destinations_ok (dest : Path) (outcomes : List (Except Inconsistency Path)) :
    destinations (.ok dest :: outcomes) = dest :: destinations outcomes := rfl

/-- No links are where usable resources are read and where directories are copied to. -/
def AreLinkFree (disk : Disk) (source output : Path) (resources : Resources) : Prop :=
  ∀ name target, (name, target) ∈ resources → AreUsable name target →
    disk.HoldsNoLinks (source.join name) ∧ disk.HoldsNoLinks (output.join (target.getD name))

theorem AreLinkFree.mono (h : AreLinkFree disk source output resources)
    (hd : KeepsLinks disk disk') :
    AreLinkFree disk' source output resources :=
  fun name target hm hu => (h name target hm hu).imp (·.mono hd) (·.mono hd)

/-- Where there are no links in the source and in the output, there are none where texts lead that
do not climb; those that do lead elsewhere. -/
theorem areLinkFree (hsource : disk.HoldsNoLinks source) (houtput : disk.HoldsNoLinks output)
    (hclimb : ∀ text ∈ resources.texts, Url.isContained text = true → Path.stays ⟨text⟩ = false →
      disk.HoldsNoLinks (source.join text) ∧ disk.HoldsNoLinks (output.join text)) :
    AreLinkFree disk source output resources := by
  intro name target hm hu
  have hjoin {text : String} (ht : text ∈ name :: target.toList) :
      disk.HoldsNoLinks (source.join text) ∧ disk.HoldsNoLinks (output.join text) := by
    have hcontained := (hu text ht).2
    have hrel := Path.isRelative_of_isContained hcontained
    cases hs : Path.stays ⟨text⟩ with
    | true => exact ⟨hsource.join hrel hs, houtput.join hrel hs⟩
    | false => exact hclimb text (List.mem_flatMap.2 ⟨_, hm, ht⟩) hcontained hs
  refine ⟨(hjoin List.mem_cons_self).1, (hjoin ?_).2⟩
  cases target <;> simp

theorem AreLinkFree.tail (h : AreLinkFree disk source output ((name, target) :: resources)) :
    AreLinkFree disk source output resources :=
  fun n t hm => h n t (List.mem_cons_of_mem _ hm)

/-- A directory that is copied has no links, and neither has its destination. -/
theorem AreLinkFree.holdsNoLinks (h : AreLinkFree disk source output ((name, target) :: resources))
    (hdest : IsOutcome disk source output name target (.ok dest))
    (hdir : disk.isDirectory (source.join name) = true) :
    disk.HoldsNoLinks (source.join name) ∧ disk.HoldsNoLinks dest := by
  obtain ⟨husable, ⟨-, rfl⟩ | ⟨hfile, -⟩⟩ := (hdest.copied dest).1 rfl
  · exact h name target List.mem_cons_self husable
  · cases (isFile_of_isDirectory hdir).symm.trans hfile

section Accounts

variable {outcomes : List (Except Inconsistency Path)}

/-- Where there are no links, the disk changes only at the destinations of what is copied. -/
theorem Accounts.confined (h : Accounts IsCopied source output resources outcomes disk disk')
    (hw : disk.WellFormed) (hfree : AreLinkFree disk source output resources) :
    Confined (destinations outcomes) disk disk' := by
  induction h with
  | nil => exact .refl hw.keyed
  | reported h tail ih => exact ih hw hfree.tail
  | copied h copy tail ih =>
    have hfirst := copy.confined hw (hfree.holdsNoLinks h)
    exact hfirst.trans (ih (wellFormed_of_calls copy.calls hw) (hfree.tail.mono hfirst.keepsLinks))

/-- Where there are no links, what is copied stands at its destination when its turn is over. -/
theorem Accounts.standsAt (h : Accounts IsCopied source output resources outcomes disk disk')
    (hw : disk.WellFormed) (hd : disk.IsRooted) (hfree : AreLinkFree disk source output resources) :
    Accounts StandsAt source output resources outcomes disk disk' := by
  induction h with
  | nil => exact .nil
  | reported h tail ih => exact .reported h (ih hw hd hfree.tail)
  | copied h copy tail ih =>
    have hfirst := copy.confined hw (hfree.holdsNoLinks h)
    exact .copied h (copy.standsAt hw hd.tree (hfree.holdsNoLinks h))
      (ih (wellFormed_of_calls copy.calls hw) (isRooted_of_calls copy.calls hd)
        (hfree.tail.mono hfirst.keepsLinks))

end Accounts

theorem run_copyAll_eq_ok (hw : w.disk.WellFormed)
    (hrun : (copyAll source output resources).run.run w = (.ok n, w')) :
    ∃ outcomes, Accounts IsCopied source output resources outcomes w.disk w'.disk ∧
      w'.session = { w.session with reports := w.session.reports ++ reported outcomes } ∧
      n = (destinations outcomes).length ∧ n + (reported outcomes).length = resources.length := by
  induction resources generalizing w n with
  | nil =>
    cases hrun
    exact ⟨[], .nil, by simp [reported], rfl, rfl⟩
  | cons resource rest ih =>
    obtain ⟨name, target⟩ := resource
    obtain ⟨copied, mid, hone, hrun⟩ := Task.run_bind_eq_ok.1 hrun
    obtain ⟨count, last, hrest, hreturn⟩ := Task.run_bind_eq_ok.1 hrun
    cases hreturn
    rcases run_copyOne_eq_ok hw hone with
      ⟨problem, hproblem, rfl, rfl⟩ | ⟨dest, disk, hdest, rfl, rfl, hcopy⟩
    · obtain ⟨outcomes, haccounts, hsession, hcount, hlength⟩ := ih (by exact hw) hrest
      refine ⟨.error problem :: outcomes, .reported hproblem haccounts, ?_, ?_, ?_⟩
      · simp [hsession, Session.report]
      · simpa using hcount
      · simp only [reported_error, List.length_cons, Bool.toNat_false]
        omega
    · obtain ⟨outcomes, haccounts, hsession, hcount, hlength⟩ :=
        ih (by exact wellFormed_of_calls hcopy.calls hw) hrest
      refine ⟨.ok dest :: outcomes, .copied hdest hcopy haccounts, ?_, ?_, ?_⟩
      · simpa using hsession
      · simp only [destinations_ok, List.length_cons, Bool.toNat_true]
        omega
      · simp only [reported_ok, List.length_cons, Bool.toNat_true]
        omega

/-- Each resource is copied or reported, once and in order, and no other: it is reported for its
name or target if one of them is empty or not contained, whatever is on the disk; else its directory
is copied, or its file if its target names a category. Copying calls on the destination only, and
one that is reported leaves the disk as it is. Without links in the source and in the output, nor
where the texts lead that climb although they count as contained, what is copied then stands at its
destination, and the disk changes only at the destinations of the resources that were copied, and
where directories were missing above them. -/
theorem accounts_of_copyAll (hw : w.disk.WellFormed)
    (hrun : (copyAll source output resources).run.run w = (.ok n, w')) :
    ∃ outcomes, Accounts IsCopied source output resources outcomes w.disk w'.disk ∧
      w'.session = { w.session with reports := w.session.reports ++ reported outcomes } ∧
      n = (destinations outcomes).length ∧ n + (reported outcomes).length = resources.length ∧
      (w.disk.HoldsNoLinks source → w.disk.HoldsNoLinks output →
        (∀ text ∈ resources.texts, Url.isContained text = true → Path.stays ⟨text⟩ = false →
          w.disk.HoldsNoLinks (source.join text) ∧ w.disk.HoldsNoLinks (output.join text)) →
        (w.disk.IsRooted → Accounts StandsAt source output resources outcomes w.disk w'.disk) ∧
        ∀ place, w'.disk.at? place ≠ w.disk.at? place →
          ∃ dest ∈ destinations outcomes, Touches w.disk w'.disk dest place) := by
  obtain ⟨outcomes, haccounts, hsession, hcount, hlength⟩ := run_copyAll_eq_ok hw hrun
  refine ⟨outcomes, haccounts, hsession, hcount, hlength, fun hsource houtput hclimb => ?_⟩
  have hfree := areLinkFree hsource houtput hclimb
  exact ⟨fun hd => haccounts.standsAt hw hd hfree,
    fun place hne => (haccounts.confined hw hfree).touches hne⟩

/-- A disk with a source directory, which holds a directory and two files, and an output
directory. -/
def mixedDisk : Disk where
  entries :=
    [(["s"], .directory), (["s", "d"], .directory), (["s", "d", "f"], .file "f".toUTF8 1),
      (["s", "l.png"], .file "l".toUTF8 2), (["s", "n.txt"], .file "n".toUTF8 3),
      (["out"], .directory)]

/-- Resources of which two are copied, one to where its new name climbs back into the output. -/
def mixedResources : Resources :=
  [("../up", none), ("d", some "a/../e"), ("gone", none), ("l.png", some "img"),
    ("n.txt", some "doc")]

theorem accounts_of_copyAll_mixed : ∃ w' outcomes,
    (copyAll ⟨"/s"⟩ ⟨"/out"⟩ mixedResources).run.run { disk := mixedDisk } = (.ok 2, w') ∧
      Accounts IsCopied ⟨"/s"⟩ ⟨"/out"⟩ mixedResources outcomes mixedDisk w'.disk ∧
      Accounts StandsAt ⟨"/s"⟩ ⟨"/out"⟩ mixedResources outcomes mixedDisk w'.disk ∧
      reported outcomes = [.invalidResourcePath "../up", .missingResource ⟨"/s/gone"⟩,
        .unknownCategory ⟨"/s/n.txt"⟩ (some "doc")] ∧
      ∃ dest ∈ destinations outcomes, Touches mixedDisk w'.disk dest ["out", "e", "f"] := by
  have hcomputed : let run := (copyAll ⟨"/s"⟩ ⟨"/out"⟩ mixedResources).run.run { disk := mixedDisk }
      run.1.toOption = some 2 ∧ run.2.session.reports = [.invalidResourcePath "../up",
        .missingResource ⟨"/s/gone"⟩, .unknownCategory ⟨"/s/n.txt"⟩ (some "doc")] ∧
      (run.2.disk.at? ["out", "e", "f"]).isSome = true := by
    decide +kernel
  rcases hrun : (copyAll ⟨"/s"⟩ ⟨"/out"⟩ mixedResources).run.run { disk := mixedDisk } with
    ⟨outcome, w'⟩
  rw [hrun] at hcomputed
  obtain ⟨hcount, hreports, hmade⟩ := hcomputed
  obtain rfl := Except.toOption_eq_some_iff.1 hcount
  have hstay : Stay mixedResources.texts := by decide
  have hholds {p : Path} {place : Location}
      (hr : mixedDisk.resolve true p = .ok (.held place .directory)) :
      mixedDisk.HoldsNoLinks p :=
    holdsNoLinks_of_reaches (reaches_of_resolve hr) fun l _ goal =>
    not_link_of_isLinkFree (by decide) l goal
  obtain ⟨outcomes, haccounts, hsession, -, -, hplain⟩ :=
    accounts_of_copyAll (.of_entries (by decide) (by decide) (by decide)) hrun
  obtain ⟨hstands, htouches⟩ := hplain (hholds rfl) (hholds rfl) fun text ht hc hs => by
    rw [hstay text ht hc] at hs
    cases hs
  refine ⟨w', outcomes, rfl, haccounts, hstands ⟨by decide, rfl⟩, ?_, htouches _ fun he => ?_⟩
  · rw [hsession] at hreports
    exact hreports
  · rw [he] at hmade
    exact absurd hmade (by decide)

end Resources

end StaticSite
