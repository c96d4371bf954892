import StaticSite.Proofs.Disk.Content
import StaticSite.Proofs.Disk.Placing

/-!
# Copies of directories

Copying the entries below a directory one after another, each behind the directory that holds it,
puts each of them at its names below the destination and changes nothing else
(`at?_of_copyEntries`). So a directory is merged into what the destination holds
(`copyDirectory_merges`), as long as no link is there where the directory has a file or a directory:
such a link is not replaced but followed (`copyDirectory_writes_through_link`).
-/

namespace StaticSite.Disk

variable {d d' disk disk' steady : Disk} {base origin place : Location} {root p source dest : Path}
  {init names : List String} {s : String} {entry : Entry}

/-! ## Copying one entry -/

/-- What stays while entries are copied: the source and the destination lie apart, and `steady`,
which has no links inside the destination, keeps the ways to them. -/
structure IsSteady (steady : Disk) (source dest : Path) (origin base : Location) (d : Disk) :
    Prop where
  cwd : d.cwd = steady.cwd
  persists : Persists steady d
  noLinks {l : Location} {target : String} : IsInside base l → steady.at? l ≠ some (.link target)
  source : Reaches steady source origin
  dest : Reaches steady dest base
  apart : ¬ base <+: origin
  apart' : ¬ origin <+: base

namespace IsSteady

variable (h : IsSteady steady source dest origin base d)

include h

theorem reaches_source : Reaches d source origin := h.source.mono h.cwd h.persists

theorem reaches_dest : Reaches d dest base := h.dest.mono h.cwd h.persists

theorem placed (hne : names ≠ []) (hp : Placed (base ++ names) entry d d') :
    IsSteady steady source dest origin base d' :=
  { h with
    cwd := hp.cwd.trans h.cwd
    persists := hp.persists h.persists fun _ => h.noLinks (isInside_append base hne) }

/-- Copying one entry puts it where its names say. -/
theorem placed_of_copyEntry {n : Nat} (hd : IsReady d origin base init s entry)
    (hrun : (copyEntry source dest (init ++ [s], entry)).run.run d = (.ok n, d')) :
    Placed (base ++ (init ++ [s])) entry d d' := by
  have hp : Extends dest (dest.join ("/".intercalate (init ++ [s]))) (init ++ [s]) :=
    extends_join dest hd.names (by simp)
  cases entry with
  | link target =>
    obtain ⟨⟨⟩, made, hmade, hn⟩ := StaticSite.Task.run_bind_eq_ok.1 hrun
    cases hn
    exact copyLink_places hp h.persists h.cwd h.dest
      (fun _ => h.noLinks (isInside_append base (by simp)))
      hd.chain hmade
  | directory =>
    obtain ⟨⟨⟩, made, hmade, hn⟩ := StaticSite.Task.run_bind_eq_ok.1 hrun
    cases hn
    exact ensureDirectory_places hp h.reaches_dest hd hmade
  | file bytes modified =>
    obtain ⟨⟨⟩, made, hmade, hn⟩ := StaticSite.Task.run_bind_eq_ok.1 hrun
    cases hn
    have hne : base ≠ origin := fun he => h.apart (he ▸ List.prefix_rfl)
    exact copyFile_places hp (extends_pathBelow source hd.names) h.reaches_dest h.reaches_source hd
      ⟨_, _, rfl⟩ hne hmade

end IsSteady

/-! ## Copying all entries -/

/-- Entries that can be copied one after another: each is in the source, behind its directory, and
where it goes there is no link, unless it is a link. -/
structure Pending (d : Disk) (origin base : Location) (entries : List (Location × Entry)) :
    Prop where
  sorted : entries.Pairwise fun a b => precedes a.1 b.1 = true ∧ a.1 ≠ b.1
  names {names : List String} {entry : Entry} :
    (names, entry) ∈ entries → names ≠ [] ∧ ∀ n ∈ names, Path.IsName n
  there {names : List String} {entry : Entry} :
    (names, entry) ∈ entries → d.at? (origin ++ names) = some entry
  chain {init : List String} {s : String} {entry : Entry} :
    (init ++ [s], entry) ∈ entries → IsChain d origin init
  behind {init : List String} {s : String} {entry : Entry} :
    (init ++ [s], entry) ∈ entries → IsChain d base init ∨ (init, .directory) ∈ entries
  noLink {names : List String} {entry : Entry} : (names, entry) ∈ entries →
    (∀ target, entry ≠ .link target) → ∀ target, d.at? (base ++ names) ≠ some (.link target)

namespace Pending

variable {entries rest : List (Location × Entry)}

theorem not_mem_behind (h : Pending d origin base ((init ++ [s], entry) :: rest)) {other : Entry} :
    (init, other) ∉ (init ++ [s], entry) :: rest := by
  have hne : init ≠ init ++ [s] := by simp
  intro hm
  rcases List.mem_cons.1 hm with he | hm
  · exact hne (Prod.mk.inj he).1
  · obtain ⟨hp, -⟩ := (List.pairwise_cons.1 h.sorted).1 _ hm
    exact hne (precedes_antisymm (precedes_of_above (List.prefix_append _ _)) hp)

theorem isReady (h : Pending d origin base ((init ++ [s], entry) :: rest)) :
    IsReady d origin base init s entry where
  names := (h.names List.mem_cons_self).2
  there := h.there List.mem_cons_self
  chain := (h.behind List.mem_cons_self).resolve_right h.not_mem_behind
  chain' := h.chain List.mem_cons_self
  noLink := h.noLink List.mem_cons_self

theorem step (h : Pending d origin base ((init ++ [s], entry) :: rest)) (ha : ¬ base <+: origin)
    (ha' : ¬ origin <+: base) (hp : Placed (base ++ (init ++ [s])) entry d d') :
    Pending d' origin base rest := by
  have hsource (names : List String) : d'.at? (origin ++ names) = d.at? (origin ++ names) := by
    rw [hp.at?_eq, if_neg]
    intro he
    exact not_prefix_append ha ha' names (he ▸ List.prefix_append _ _)
  have tail {e : Location × Entry} (he : e ∈ rest) : e ∈ (init ++ [s], entry) :: rest :=
    List.mem_cons_of_mem _ he
  refine ⟨(List.pairwise_cons.1 h.sorted).2, fun hm => h.names (tail hm),
    fun hm => ?_, fun hm => ?_, fun hm => ?_, fun hm hlink target => ?_⟩
  · rw [hsource]
    exact h.there (tail hm)
  · exact (h.chain (tail hm)).mono fun way _ hd => (hsource way).trans hd
  · rcases h.behind (tail hm) with hc | hb
    · exact .inl (hc.mono fun _ _ => hp.keeps)
    · rcases List.mem_cons.1 hb with he | hb
      · cases he
        have hlast := hp.at?_eq (base ++ (init ++ [s]))
        rw [if_pos rfl] at hlast
        exact .inl (isChain_concat.2 ⟨h.isReady.chain.mono fun _ _ => hp.keeps, hlast⟩)
      · exact .inr hb
  · rw [hp.at?_eq, if_neg]
    · exact h.noLink (tail hm) hlink target
    · intro he
      exact ((List.pairwise_cons.1 h.sorted).1 _ hm).2 (List.append_cancel_left he).symm

end Pending

/-- Copying entries puts each of them where its names say, and changes nothing else. -/
theorem at?_of_copyEntries {entries : List (Location × Entry)} {n : Nat}
    (hs : IsSteady steady source dest origin base d) (h : Pending d origin base entries)
    (hrun : (copyEntries source dest entries).run.run d = (.ok n, d')) :
    (∀ e ∈ entries, d'.at? (base ++ e.1) = some e.2) ∧
      ∀ l, (∀ e ∈ entries, l ≠ base ++ e.1) → d'.at? l = d.at? l := by
  induction entries generalizing d n with
  | nil =>
    cases hrun
    exact ⟨by simp, fun _ _ => rfl⟩
  | cons e rest ih =>
    obtain ⟨names, entry⟩ := e
    obtain ⟨init, s, rfl⟩ := names.eq_nil_or_concat'.resolve_left (h.names List.mem_cons_self).1
    obtain ⟨copied, made, hmade, hrun⟩ := StaticSite.Task.run_bind_eq_ok.1 hrun
    obtain ⟨others, last, hlast, hn⟩ := StaticSite.Task.run_bind_eq_ok.1 hrun
    cases hn
    have hp := hs.placed_of_copyEntry h.isReady hmade
    obtain ⟨hthere, hsame⟩ := ih (hs.placed (by simp) hp) (h.step hs.apart hs.apart' hp) hlast
    refine ⟨fun e he => ?_, fun l hl => ?_⟩
    · rcases List.mem_cons.1 he with rfl | he
      · rw [hsame, hp.at?_eq, if_pos rfl]
        intro e he heq
        exact ((List.pairwise_cons.1 h.sorted).1 e he).2 (List.append_cancel_left heq)
      · exact hthere e he
    · rw [hsame l fun e he => hl e (List.mem_cons_of_mem _ he), hp.at?_eq,
        if_neg (hl _ List.mem_cons_self)]

/-! ## Trees -/

instance (found : Option Entry) : Decidable (found = some .directory) :=
  match found with
  | some .directory => .isTrue rfl
  | none | some (.file ..) | some (.link _) => .isFalse (by simp)

/-- Each entry lies in a directory. -/
def IsTree (disk : Disk) : Prop :=
  ∀ e ∈ disk.entries, disk.at? e.1.dropLast = some .directory

instance (disk : Disk) : Decidable disk.IsTree :=
  inferInstanceAs (Decidable (∀ e ∈ disk.entries, disk.at? e.1.dropLast = some .directory))

theorem IsTree.directory (h : d.IsTree) (hat : d.at? (place ++ [s]) = some entry) :
    d.at? place = some .directory := by
  have := h _ (mem_of_at? hat (by simp))
  rwa [List.dropLast_concat] at this

/-- Directories lead to each entry of a tree. -/
theorem IsTree.isChain (h : d.IsTree) (hat : d.at? (base ++ (init ++ [s])) = some entry) :
    IsChain d base init := by
  induction init using List.reverseRecOn generalizing s entry with
  | nil => exact fun way hne hp => absurd (List.prefix_nil.1 hp) hne
  | append_singleton init t ih =>
    rw [← List.append_assoc] at hat
    have hlast := h.directory hat
    exact isChain_concat.2 ⟨ih hlast, hlast⟩

/-! ## Copying a directory -/

/-- Whether an entry is a link inside a location. -/
def isLinkInside (base : Location) : Location × Entry → Bool
  | (place, .link _) => base.isPrefixOf place && place != base
  | _ => false

theorem isLinkInside_iff :
    isLinkInside base (place, entry) = true ↔ (∃ target, entry = .link target) ∧
    IsInside base place := by
  cases entry <;> simp [isLinkInside, IsInside]

/-- A disk without the links inside a location. -/
def withoutLinks (disk : Disk) (base : Location) : Disk :=
  { disk with entries := disk.entries.filter (!isLinkInside base ·) }

theorem at?_withoutLinks (hw : d.WellFormed) : (d.withoutLinks base).at? place = some entry ↔
    d.at? place = some entry ∧ ¬ ((∃ target, entry = .link target) ∧ IsInside base place) := by
  by_cases hp : place = []
  · subst hp
    rw [at?_root, at?_root]
    constructor
    · rintro ⟨⟩
      exact ⟨rfl, by simp⟩
    · exact And.left
  · rw [← isLinkInside_iff, Bool.not_eq_true]
    constructor
    · intro h
      obtain ⟨hmem, hk⟩ := List.mem_filter.1 (mem_of_at? h hp)
      exact ⟨hw.at?_eq hmem, by simpa using hk⟩
    · rintro ⟨h, hk⟩
      have hmem : (place, entry) ∈ (d.withoutLinks base).entries :=
        List.mem_filter.2 ⟨mem_of_at? h hp, by simpa using hk⟩
      rw [at?, if_neg hp]
      exact lookup_of_nodup (nodup_filter hw.nodup _) hmem

/-- The disk after making a directory with those above it. -/
def ensured (disk : Disk) (p : Path) : Disk :=
  ((ensureDirectory p).run.run disk).2

/-- A directory and where it is copied to lie apart: neither is in the other one, and the ways to
them pass no links inside the destination. -/
structure IsApart (disk : Disk) (source dest : Path) (origin base : Location) : Prop where
  isDirectory : disk.resolve false source = .ok (.held origin .directory)
  source : Reaches (disk.withoutLinks base) source origin
  dest : Reaches ((disk.ensured (dest.join "")).withoutLinks base) dest base
  outside : ¬ base <+: origin
  outside' : ¬ origin <+: base

theorem IsApart.isSteady (h : IsApart disk source dest origin base) (hw : disk.WellFormed) :
    IsSteady ((disk.ensured (dest.join "")).withoutLinks base) source dest origin base
      (disk.ensured (dest.join "")) := by
  have hgrown := ensureDirectory_grows hw (dest.join "")
  have hmade : (disk.ensured (dest.join "")).WellFormed := hgrown.wellFormed
  refine ⟨rfl, fun l => ?_, fun hin ht => ?_, h.source.mono hgrown.cwd fun l => ?_, h.dest,
    h.outside, h.outside'⟩
  · exact ⟨fun hd => ((at?_withoutLinks hmade).1 hd).1,
      fun t ht => ((at?_withoutLinks hmade).1 ht).1⟩
  · exact ((at?_withoutLinks hmade).1 ht).2 ⟨⟨_, rfl⟩, hin⟩
  · constructor
    · intro hd
      obtain ⟨hat, hk⟩ := (at?_withoutLinks hw).1 hd
      exact (at?_withoutLinks hmade).2 ⟨(hgrown.persists l).1 hat, hk⟩
    · intro t ht
      obtain ⟨hat, hk⟩ := (at?_withoutLinks hw).1 ht
      exact (at?_withoutLinks hmade).2 ⟨(hgrown.persists l).2 t hat, hk⟩

/-- What is listed in a tree can be copied, where no old links are but in the place of links. -/
theorem IsTree.pending (ht : disk.IsTree) (hw : disk.WellFormed)
    (hl : ∀ names entry, names ≠ [] → disk.at? (origin ++ names) = some entry →
      (∀ target, entry ≠ .link target) → ∀ target, disk.at? (base ++ names) ≠ some (.link target))
      (p : Path) :
    Pending (disk.ensured p) origin base (disk.below origin) := by
  have hgrown := ensureDirectory_grows hw p
  have kept {l : Location} {e : Entry} (hat : disk.at? l = some e) :
      (disk.ensured p).at? l = some e := by
    rcases hgrown.made l with hsame | ⟨hnone, -⟩
    · exact hsame.trans hat
    · rw [hnone] at hat
      cases hat
  refine ⟨pairwise_below hw origin, fun hm => ?_,
    fun hm => ?_, fun hm => ?_, fun {init s _} hm => ?_, fun hm hlink target ht => ?_⟩
  · exact ⟨((mem_below_iff hw).1 hm).1, fun n hn =>
      (hw.names (mem_below hm)).2 n (List.mem_append_right _ hn)⟩
  · exact kept ((mem_below_iff hw).1 hm).2
  · exact (ht.isChain ((mem_below_iff hw).1 hm).2).mono fun _ _ => kept
  · by_cases hi : init = []
    · exact .inl fun way hne hp => absurd (List.prefix_nil.1 (hi ▸ hp)) hne
    · have hat := ((mem_below_iff hw).1 hm).2
      rw [← List.append_assoc] at hat
      exact .inr ((mem_below_iff hw).2 ⟨hi, ht.directory hat⟩)
  · obtain ⟨hne, hat⟩ := (mem_below_iff hw).1 hm
    rcases hgrown.made (base ++ _) with hsame | ⟨-, hd, -⟩
    · exact hl _ _ hne hat hlink target (hsame.symm.trans ht)
    · cases hd.symm.trans ht

/-- A directory is merged into what is below the destination, and beyond it no more is changed than
that missing directories on the way to it are made. -/
theorem copyDirectory_merges {count : Nat} (hw : disk.WellFormed) (ht : disk.IsTree)
    (h : IsApart disk source dest origin base)
    (hl : ∀ names entry, names ≠ [] → disk.at? (origin ++ names) = some entry →
      (∀ target, entry ≠ .link target) → ∀ target, disk.at? (base ++ names) ≠ some (.link target))
    (hrun : (copyDirectory source dest).run.run disk = (.ok count, disk')) :
    (∀ place, ¬ IsInside base place → disk'.at? place = disk.at? place ∨
      disk.at? place = none ∧ disk'.at? place = some .directory ∧
        ∃ q ∈ (dest.join "").withAncestors, Reaches (disk.ensured (dest.join "")) q place) ∧
      ∀ names, names ≠ [] → disk'.at? (base ++ names) =
        (disk.at? (origin ++ names)).or ((disk.ensured (dest.join "")).at? (base ++ names)) := by
  have hlist : disk.listed source = .ok (([], .directory) :: disk.below origin) := by
    rw [listed, h.isDirectory]
    rfl
  rw [copyDirectory, Simulation.run_get_bind, hlist] at hrun
  obtain ⟨copied, made, hmade, hrest⟩ :=
    StaticSite.Task.run_bind_eq_ok.1 (StaticSite.Task.run_adapt_eq_ok.1 hrun)
  obtain ⟨others, last, hlast, hn⟩ := StaticSite.Task.run_bind_eq_ok.1 hrest
  cases hn
  obtain ⟨⟨⟩, ensured, hensured, hn⟩ := StaticSite.Task.run_bind_eq_ok.1 hmade
  cases hn
  obtain rfl : disk.ensured (dest.join "") = made := congrArg Prod.snd hensured
  obtain ⟨hthere, hsame⟩ := at?_of_copyEntries (h.isSteady hw) (ht.pending hw hl _) hlast
  refine ⟨fun place hp => ?_, fun names hne => ?_⟩
  · rw [hsame place fun e he heq => hp (heq ▸ isInside_append base ((mem_below_iff hw).1 he).1)]
    exact (ensureDirectory_grows hw (dest.join "")).made place
  · cases hat : disk.at? (origin ++ names) with
    | some entry => exact hthere _ ((mem_below_iff hw).2 ⟨hne, hat⟩)
    | none =>
      refine hsame _ fun e he heq => ?_
      have := ((mem_below_iff hw).1 he).2
      rw [← List.append_cancel_left heq, hat] at this
      cases this

/-- A disk whose `out` has, from an earlier copy, an `a` of other content and a link where `src` has
one. -/
def mergedDisk : Disk where
  entries :=
    [(["src"], .directory), (["src", "a"], .file "new".toUTF8 2), (["src", "b"], .directory),
      (["src", "b", "l"], .link "../a"), (["out"], .directory),
      (["out", "a"], .file "old".toUTF8 1),
      (["out", "b"], .directory), (["out", "b", "l"], .link "x"),
      (["out", "c"], .file "kept".toUTF8 1)]

theorem run_mergedDisk :
    ∃ disk', (copyDirectory ⟨"src"⟩ ⟨"out"⟩).run.run mergedDisk = (.ok 2, disk') := by
  have hrun : ((copyDirectory ⟨"src"⟩ ⟨"out"⟩).run.run mergedDisk).1.toOption = some 2 := by
    decide +kernel
  generalize (copyDirectory ⟨"src"⟩ ⟨"out"⟩).run.run mergedDisk = run at hrun ⊢
  obtain ⟨outcome, disk'⟩ := run
  obtain rfl : outcome = .ok 2 := Except.toOption_eq_some_iff.1 hrun
  exact ⟨disk', rfl⟩

theorem copyDirectory_merges_earlier : ∃ disk',
    (mergedDisk.WellFormed ∧ mergedDisk.IsTree ∧
      IsApart mergedDisk ⟨"src"⟩ ⟨"out"⟩ ["src"] ["out"] ∧
      (copyDirectory ⟨"src"⟩ ⟨"out"⟩).run.run mergedDisk = (.ok 2, disk')) ∧
    (∀ place, ¬ IsInside ["out"] place → disk'.at? place = mergedDisk.at? place ∨
      mergedDisk.at? place = none ∧ disk'.at? place = some .directory ∧
        ∃ q ∈ (Path.join ⟨"out"⟩ "").withAncestors,
          Reaches (mergedDisk.ensured (Path.join ⟨"out"⟩ "")) q place) ∧
      ∀ names, names ≠ [] → disk'.at? (["out"] ++ names) = (mergedDisk.at? (["src"] ++ names)).or
        ((mergedDisk.ensured (Path.join ⟨"out"⟩ "")).at? (["out"] ++ names)) := by
  have hw : mergedDisk.WellFormed := .of_entries (by decide) (by decide) (by decide)
  have ht : mergedDisk.IsTree := by decide
  have ha : IsApart mergedDisk ⟨"src"⟩ ⟨"out"⟩ ["src"] ["out"] :=
    ⟨rfl, reaches_iff.2 rfl, reaches_iff.2 rfl, by decide, by decide⟩
  obtain ⟨disk', hrun⟩ := run_mergedDisk
  refine ⟨disk', ⟨hw, ht, ha, hrun⟩, ?_⟩
  refine copyDirectory_merges hw ht ha (fun names entry hne hat hlink target ht => ?_) hrun
  have hm := mem_of_at? ht (by simp)
  obtain ⟨rfl, rfl⟩ : names = ["b", "l"] ∧ target = "x" := by simpa [mergedDisk] using hm
  cases hat
  exact hlink _ rfl

/-- A disk whose `out` has a link, kept by an earlier copy, where `src` has a file. -/
def linkedDisk : Disk where
  entries :=
    [(["src"], .directory), (["src", "a"], .file "new".toUTF8 2), (["out"], .directory),
      (["out", "a"], .link "../kept"), (["kept"], .file "old".toUTF8 1)]

theorem run_linkedDisk :
    ∃ disk', (copyDirectory ⟨"src"⟩ ⟨"out"⟩).run.run linkedDisk = (.ok 1, disk') ∧
      ((disk'.at? ["out", "a"]).any fun entry => isLinkInside ["out"] (["out", "a"], entry)) =
        true := by
  have hrun : ((copyDirectory ⟨"src"⟩ ⟨"out"⟩).run.run linkedDisk).1.toOption = some 1 ∧
      ((((copyDirectory ⟨"src"⟩ ⟨"out"⟩).run.run linkedDisk).2.at? ["out", "a"]).any fun entry =>
        isLinkInside ["out"] (["out", "a"], entry)) = true := by decide +kernel
  generalize (copyDirectory ⟨"src"⟩ ⟨"out"⟩).run.run linkedDisk = run at hrun ⊢
  obtain ⟨outcome, disk'⟩ := run
  obtain rfl : outcome = .ok 1 := Except.toOption_eq_some_iff.1 hrun.1
  exact ⟨disk', rfl, hrun.2⟩

/-- A file is written through an old link: the link stays, and what it leads to changes. -/
theorem copyDirectory_writes_through_link :
    ¬ ∀ (disk : Disk) (source dest : Path) (origin base : Location)
    (count : Nat) (disk' : Disk), disk.WellFormed → disk.IsTree →
    IsApart disk source dest origin base →
      (copyDirectory source dest).run.run disk = (.ok count, disk') →
      (∀ place, ¬ IsInside base place → disk'.at? place = disk.at? place ∨
        disk.at? place = none ∧ disk'.at? place = some .directory) ∧
      ∀ names entry, names ≠ [] → disk.at? (origin ++ names) = some entry →
        disk'.at? (base ++ names) = some entry := by
  intro claim
  have hw : linkedDisk.WellFormed := .of_entries (by decide) (by decide) (by decide)
  have ht : linkedDisk.IsTree := by decide
  have ha : IsApart linkedDisk ⟨"src"⟩ ⟨"out"⟩ ["src"] ["out"] :=
    ⟨rfl, reaches_iff.2 rfl, reaches_iff.2 rfl, by decide, by decide⟩
  obtain ⟨disk', hrun, hlink⟩ := run_linkedDisk
  have hat := (claim _ _ _ _ _ _ _ hw ht ha hrun).2 ["a"] _ (by decide) rfl
  rw [List.singleton_append] at hat
  rw [hat] at hlink
  cases hlink

end StaticSite.Disk
