import StaticSite.Proofs.Disk.Chain
import StaticSite.Proofs.Disk.Repeats

/-!
# Entries that are put where a chain of directories leads

A path goes on by names behind a root, and all names but the last lead through directories. Then the
path names the location of its names (`Extends.nameOf_of_isChain`), and copying an entry to it puts
the entry there and changes nothing else (`Placed`): a file where no link is, a directory where
nothing else is, and a link in the place of a file or a link.

A file that is written behind directories that were made for it stands where its names say
(`Extends.store`). It can be read as long as it stands there (`IsStored.readText`), which it does
while directories are made and other files are written.
-/

namespace StaticSite.Disk

variable {d d' steady : Disk} {base origin place : Location} {root p source dest : Path}
  {init : List String} {s : String} {entry : Entry}

/-! ## Calls on a name at the end of a chain -/

/-- Making the directory above a name at the end of a chain does nothing. -/
theorem Extends.eq_of_ensureAbove (h : Extends root p (init ++ [s])) (hr : Reaches d root base)
    (hc : IsChain d base init)
    (hrun : (ensureDirectory (Path.ofComponents p.components.dropLast)).run.run d = (.ok (), d')) :
    d' = d := by
  have hp : ∀ n ∈ init, IsProper n := by
    by_cases hne : init = []
    · simp [hne]
    · exact (isClear_of_ensureDirectory (h.above hne) hne hr hc.isClear.isLinkless
        (by rw [hrun])).2.1
  exact eq_of_ensureDirectory (hr.onward h.steps_above.2 h.steps_above.1 hc hp) hrun

theorem Extends.nameOf_of_isChain {slash : Bool} (h : Extends root p (init ++ [s]))
    (hr : Reaches d root base) (hc : IsChain d base init)
    (hn : d.nameOf p = .ok (some place, slash)) :
    place = base ++ (init ++ [s]) ∧ ∀ n ∈ init ++ [s], IsProper n := by
  have hs := h.names s (by simp)
  have hdots : ¬ (s = "." ∨ s = "..") := fun hd => hd.elim hs.2.1 hs.2.2.1
  obtain ⟨m, -, hname, hwalk⟩ := h.walks (noFault_of_nameOf hn) hr
  rw [hname] at hn
  rcases walk_chain (fun n hn => h.names n (List.mem_append_left _ hn)) hc.isClear.isLinkless with
    ⟨-, hp, hw⟩ | ⟨cause, hw, -⟩
  · rw [hw, walkFrom_idle (by decide), walkFrom_nil] at hwalk
    rw [lastName_of_walk hwalk, if_neg hdots] at hn
    split at hn
    · cases hn
    · rename_i hlen
      cases hn
      refine ⟨List.append_assoc .., fun n hn => ?_⟩
      rcases List.mem_append.1 hn with hn | hn
      · exact hp n hn
      · obtain rfl := List.mem_singleton.1 hn
        exact ⟨hs.isStep.1, hs.2.2.1, by omega⟩
  · rw [lastName, hwalk, hw _ (by simp)] at hn
    cases hn

/-- A path along a chain leads to what is at its last name, unless that is a link. -/
theorem Extends.resolve_of_isChain (h : Extends root p (init ++ [s])) (hf : faultOf p = none)
    (hr : Reaches d root base) (hc : IsChain d base init) (hp : ∀ n ∈ init ++ [s], IsProper n)
    (hl : ∀ target, d.at? (base ++ (init ++ [s])) ≠ some (.link target)) :
    d.resolve true p = .ok ((d.at? (base ++ (init ++ [s]))).elim (.free (base ++ (init ++ [s])))
      (.held (base ++ (init ++ [s])))) := by
  obtain ⟨m, hresolve, -, -⟩ := h.walks hf hr
  rw [hresolve, (leads_of_isChain hc fun n hn => hp n (List.mem_append_left _ hn)).walk,
    walkFrom_proper (hp s (by simp)), List.append_assoc]
  rcases hat : d.at? (base ++ (init ++ [s])) with _ | _ | _ | target
  · rfl
  · exact walkFrom_nil
  · rfl
  · exact absurd hat (hl target)

theorem Extends.writable_of_isChain (h : Extends root p (init ++ [s])) (hr : Reaches d root base)
    (hc : IsChain d base init) (hl : ∀ target, d.at? (base ++ (init ++ [s])) ≠ some (.link target))
    (hw : d.writable p = .ok place) :
    place = base ++ (init ++ [s]) ∧ d.at? place ≠ some .directory ∧
    ∀ n ∈ init ++ [s], IsProper n := by
  obtain ⟨⟨named, slash⟩, hn, hw⟩ := Except.bind_eq_ok_iff.1 hw
  match named, slash, hw with
  | some named, false, hw =>
    obtain ⟨-, hp⟩ := h.nameOf_of_isChain hr hc hn
    obtain ⟨found, hfound, hw⟩ := Except.bind_eq_ok_iff.1 hw
    rw [h.resolve_of_isChain (noFault_of_nameOf hn) hr hc hp hl] at hfound
    rcases hat : d.at? (base ++ (init ++ [s])) with _ | _ | _ | target
    · rw [hat] at hfound
      cases hfound
      cases hw
      exact ⟨rfl, by simp [hat], hp⟩
    · rw [hat] at hfound
      cases hfound
      cases hw
    · rw [hat] at hfound
      cases hfound
      cases hw
      exact ⟨rfl, by simp [hat], hp⟩
    · exact absurd hat (hl target)

/-! ## Copying one entry -/

/-- A disk on which an entry was put at a location, and no directory went. -/
structure Placed (place : Location) (entry : Entry) (d d' : Disk) : Prop where
  cwd : d'.cwd = d.cwd
  at?_eq (l : Location) : d'.at? l = if l = place then some entry else d.at? l
  kept : d.at? place = some .directory → entry = .directory

theorem placed_put (h : place ≠ []) (hd : d.at? place ≠ some .directory) :
    Placed place entry d (d.put place entry) where
  cwd := rfl
  at?_eq l := by
    split
    · rename_i hl
      rw [hl, at?_put d h]
    · rename_i hl
      exact at?_put_of_ne d hl _
  kept he := absurd he hd

/-- What is needed to copy one entry: its names go on from the source and from the destination
along chains of directories, it is in the source, and where it goes there is no link, unless it is
a link. -/
structure IsReady (d : Disk) (origin base : Location) (init : List String) (s : String)
    (entry : Entry) :
    Prop where
  names : ∀ n ∈ init ++ [s], Path.IsName n
  there : d.at? (origin ++ (init ++ [s])) = some entry
  chain : IsChain d base init
  chain' : IsChain d origin init
  noLink : (∀ target, entry ≠ .link target) → ∀ target,
    d.at? (base ++ (init ++ [s])) ≠ some (.link target)

theorem copyBytes_places (hd : Extends dest p (init ++ [s]))
    (hs : Extends source root (init ++ [s]))
    (hr : Reaches d dest base) (hr' : Reaches d source origin)
    (h : IsReady d origin base init s entry)
    (he : ∃ bytes modified, entry = .file bytes modified) (hne : base ≠ origin)
    (hc : d.copyBytes root p = .ok d') : Placed (base ++ (init ++ [s])) entry d d' := by
  obtain ⟨bytes, modified, rfl⟩ := he
  obtain ⟨start, b, m, place, hfrom, hw, rfl⟩ := copyBytes_eq_ok_iff.1 hc
  obtain ⟨rfl, hfree, hp⟩ := hd.writable_of_isChain hr h.chain (h.noLink (by simp)) hw
  rw [hs.resolve_of_isChain (noFault_of_resolve hfrom) hr' h.chain' hp (by simp [h.there]),
    h.there] at hfrom
  cases hfrom
  rw [if_neg fun he => hne (List.append_cancel_right he)]
  exact placed_put (by simp) hfree

theorem Extends.put_of_makeLink {target : String} (h : Extends root p (init ++ [s]))
    (hr : Reaches d root base) (hc : IsChain d base init) (hm : d.makeLink p target = .ok d') :
    d.at? (base ++ (init ++ [s])) = none ∧ d' = d.put (base ++ (init ++ [s])) (.link target) := by
  obtain ⟨named, hn, hfree, rfl⟩ := makeLink_eq_ok hm
  obtain ⟨rfl, -⟩ := h.nameOf_of_isChain hr hc hn
  exact ⟨hfree, rfl⟩

theorem Extends.remove_of_removeFile (h : Extends root p (init ++ [s])) (hr : Reaches d root base)
    (hc : IsChain d base init) (hm : d.removeFile p = .ok d') :
    d.at? (base ++ (init ++ [s])) ≠ some .directory ∧ d' = d.remove (base ++ (init ++ [s])) := by
  obtain ⟨named, hn, hne, rfl⟩ := removeFile_eq_ok hm
  obtain ⟨rfl, -⟩ := h.nameOf_of_isChain hr hc hn
  exact ⟨hne, rfl⟩

theorem run_copyLink_eq_ok {target : String} {parent : Path} (hp : p.parent? = some parent)
    (h : (copyLink target p).run.run d = (.ok (), d')) :
    ∃ cleared made, (cleared = d ∨ d.removeFile p = .ok cleared) ∧
      (ensureDirectory parent).run.run cleared = (.ok (), made) ∧
      made.makeLink p target = .ok d' := by
  have rest {cleared : Disk} (h : (do ensureDirectory parent; Task.call id (·.makeLink p target) :
      Disk.Task IoError Unit).run.run cleared = (.ok (), d')) :
      ∃ made, (ensureDirectory parent).run.run cleared = (.ok (), made) ∧
        made.makeLink p target = .ok d' := by
    obtain ⟨⟨⟩, made, hmade, h⟩ := StaticSite.Task.run_bind_eq_ok.1 h
    exact ⟨made, hmade, Task.run_call_eq_ok.1 h⟩
  rw [copyLink, Simulation.run_get_bind] at h
  simp only [hp] at h
  split at h
  · obtain ⟨⟨⟩, cleared, hcleared, h⟩ := StaticSite.Task.run_bind_eq_ok.1 h
    obtain ⟨made, hmade⟩ := rest h
    exact ⟨cleared, made, .inr (Task.run_call_eq_ok.1 hcleared), hmade⟩
  · obtain ⟨made, hmade⟩ := rest h
    exact ⟨d, made, .inl rfl, hmade⟩

/-- A disk that changed only at one place, where no directory went, still has what another one has
that has no link there. -/
theorem Persists.change (h : Persists steady d)
    (hl : ∀ target, steady.at? place ≠ some (.link target))
    (hsame : ∀ l, l ≠ place → d'.at? l = d.at? l)
    (hkept : d.at? place = some .directory → d'.at? place = some .directory) :
    Persists steady d' := by
  intro l
  by_cases hp : l = place
  · subst hp
    exact ⟨fun hd => hkept ((h l).1 hd), fun target ht => absurd ht (hl target)⟩
  · rw [hsame l hp]
    exact h l

theorem Placed.persists (h : Placed place entry d d') (hs : Persists steady d)
    (hl : ∀ target, steady.at? place ≠ some (.link target)) : Persists steady d' := by
  refine hs.change hl (fun l hp => by rw [h.at?_eq, if_neg hp]) fun hd => ?_
  rw [h.at?_eq, if_pos rfl, h.kept hd]

theorem IsChain.mono (h : IsChain d base init)
    (hsame : ∀ way, way <+: init → d.at? (base ++ way) = some .directory →
      d'.at? (base ++ way) = some .directory) : IsChain d' base init :=
  fun way hne hp => hsame way hp (h way hne hp)

theorem Placed.keeps (h : Placed place entry d d') {l : Location} (hd : d.at? l = some .directory) :
    d'.at? l = some .directory := by
  rw [h.at?_eq]
  split
  · rename_i hl
    rw [h.kept (hl ▸ hd)]
  · exact hd

theorem append_ne_of_above {way : Location} (h : way <+: init) :
    base ++ way ≠ base ++ (init ++ [s]) := by
  intro he
  have := h.length_le
  rw [List.append_cancel_left he, List.length_append] at this
  exact absurd this (by simp)

theorem copyLink_places {target : String} (hp : Extends dest p (init ++ [s]))
    (hs : Persists steady d) (hcwd : d.cwd = steady.cwd) (hr : Reaches steady dest base)
    (hl : ∀ target, steady.at? (base ++ (init ++ [s])) ≠ some (.link target))
    (hc : IsChain d base init) (hrun : (copyLink target p).run.run d = (.ok (), d')) :
    Placed (base ++ (init ++ [s])) (.link target) d d' := by
  obtain ⟨cleared, made, hcleared, hmade, hlink⟩ := run_copyLink_eq_ok hp.parent? hrun
  have hne : base ++ (init ++ [s]) ≠ [] := by simp
  obtain ⟨hcwd', hsame, hfree⟩ : cleared.cwd = d.cwd ∧
      (∀ l, l ≠ base ++ (init ++ [s]) → cleared.at? l = d.at? l) ∧
      (d.at? (base ++ (init ++ [s])) = some .directory →
        cleared.at? (base ++ (init ++ [s])) = some .directory) := by
    rcases hcleared with rfl | hremoved
    · exact ⟨rfl, fun _ _ => rfl, id⟩
    · obtain ⟨hd, rfl⟩ := hp.remove_of_removeFile (hr.mono hcwd hs) hc hremoved
      exact ⟨rfl, fun l hl => at?_remove_of_ne d hl, fun he => absurd he hd⟩
  have hr' := hr.mono (hcwd'.trans hcwd) (hs.change hl hsame hfree)
  have hc' : IsChain cleared base init :=
    hc.mono fun way hw hd => (hsame _ (append_ne_of_above hw)).trans hd
  obtain rfl := hp.eq_of_ensureAbove hr' hc' hmade
  obtain ⟨hnone, rfl⟩ := hp.put_of_makeLink hr' hc' hlink
  refine ⟨hcwd', fun l => ?_, fun hd => ?_⟩
  · split
    · rename_i hat
      rw [hat, at?_put _ hne]
    · rename_i hat
      rw [at?_put_of_ne _ hat, hsame l hat]
  · rw [hfree hd] at hnone
    cases hnone

theorem copyFile_places (hp : Extends dest p (init ++ [s]))
    (hp' : Extends source root (init ++ [s]))
    (hr : Reaches d dest base) (hr' : Reaches d source origin)
    (h : IsReady d origin base init s entry)
    (he : ∃ bytes modified, entry = .file bytes modified) (hne : base ≠ origin)
    (hrun : (copyFile root p).run.run d = (.ok (), d')) :
    Placed (base ++ (init ++ [s])) entry d d' := by
  rw [copyFile] at hrun
  simp only [hp.parent?] at hrun
  obtain ⟨⟨⟩, made, hmade, hcopy⟩ := StaticSite.Task.run_bind_eq_ok.1 hrun
  obtain rfl := hp.eq_of_ensureAbove hr h.chain hmade
  exact copyBytes_places hp hp' hr hr' h he hne (Task.run_call_eq_ok.1 hcopy)

theorem ensureDirectory_places (hp : Extends dest p (init ++ [s])) (hr : Reaches d dest base)
    (h : IsReady d origin base init s .directory)
    (hrun : (ensureDirectory p).run.run d = (.ok (), d')) :
    Placed (base ++ (init ++ [s])) .directory d d' := by
  have hl : IsLinkless d base (init ++ [s]) := by
    intro way hne hw
    rcases List.prefix_concat_iff.1 hw with rfl | hw
    · exact h.noLink (by simp)
    · exact h.chain.isClear.isLinkless way hne hw
  obtain ⟨hf, hproper, hc⟩ := isClear_of_ensureDirectory hp (by simp) hr hl (by rw [hrun])
  rw [ensureDirectory_of_isClear hp (by simp) hf hr hproper hc] at hrun
  cases hrun
  refine ⟨(cwd_raise d base _).1, fun l => ?_, fun _ => rfl⟩
  rw [at?_raise hc]
  by_cases hat : l = base ++ (init ++ [s])
  · rw [if_pos hat, hat, if_pos (isOn_iff.2 ⟨_, by simp, List.prefix_rfl, rfl⟩)]
  · rw [if_neg hat]
    split
    · rename_i hon
      obtain ⟨way, hne, hw, rfl⟩ := isOn_iff.1 hon
      rcases List.prefix_concat_iff.1 hw with rfl | hw
      · exact absurd rfl hat
      · exact (h.chain way hne hw).symm
    · rfl

/-! ## Files that are written and stay -/

section Stored

variable {made : Disk} {names : List String} {text : String} {bytes : ByteArray}

/-- A file stands behind a chain of directories. -/
structure IsStored (d : Disk) (base : Location) (names : List String) (bytes : ByteArray) :
    Prop where
  chain : IsChain d base names.dropLast
  proper : ∀ n ∈ names, IsProper n
  file : ∃ modified, d.at? (base ++ names) = some (.file bytes modified)

namespace IsStored

theorem mono (h : IsStored d base names bytes) (hp : Persists d d')
    (hsame : d'.at? (base ++ names) = d.at? (base ++ names)) : IsStored d' base names bytes where
  chain := h.chain.mono fun way _ hd => (hp (base ++ way)).1 hd
  proper := h.proper
  file := hsame ▸ h.file

theorem readText (h : IsStored d base names text.toUTF8) (he : Extends root p names)
    (hne : names ≠ [])
    (hf : faultOf p = none) (hr : Reaches d root base) : d.readText p = .ok text := by
  obtain ⟨init, s, rfl⟩ := List.eq_nil_or_concat' names |>.resolve_left hne
  obtain ⟨modified, hat⟩ := h.file
  have hchain : IsChain d base init := by
    simpa using h.chain
  have hresolve := he.resolve_of_isChain hf hr hchain h.proper (by simp [hat])
  have hentry : d.entry p = .ok (.file text.toUTF8 modified) := by
    rw [entry, hresolve, hat]
    rfl
  have hutf8 : String.fromUTF8? text.toUTF8 = some text :=
    dif_pos text.isValidUTF8
  rw [Disk.readText, hentry]
  dsimp only [Bind.bind, Except.bind]
  rw [hutf8]
  rfl

end IsStored

/-- What is written at the end of a chain of directories, where no link is. -/
theorem Extends.put_of_writeText (he : Extends root p (init ++ [s])) (hr : Reaches d root base)
    (hc : IsChain d base init) (hl : ∀ target, d.at? (base ++ (init ++ [s])) ≠ some (.link target))
    (hw : d.writeText p text = .ok d') :
    faultOf p = none ∧ (∀ n ∈ init ++ [s], IsProper n) ∧
      d' = d.put (base ++ (init ++ [s])) (.file text.toUTF8 d.now) := by
  obtain ⟨place, hwritable, rfl⟩ := writeBytes_eq_ok_iff.1 hw
  obtain ⟨_, hname, -⟩ := Except.bind_eq_ok_iff.1 hwritable
  obtain ⟨rfl, -, hp⟩ := he.writable_of_isChain hr hc hl hwritable
  exact ⟨noFault_of_nameOf hname, hp, rfl⟩

/-- A file is written into a directory that was made for it; what was elsewhere is still there. -/
theorem Extends.store (he : Extends root p (init ++ [s])) (hne : init ≠ [])
    (hr : Reaches d root base) (hl : d.HasNoLinks base)
    (hmade : (ensureDirectory (Path.ofComponents p.components.dropLast)).run.run d = (.ok (), made))
    (hw : made.writeText p text = .ok d') :
    faultOf p = none ∧ IsStored d' base (init ++ [s]) text.toUTF8 ∧
      ∀ l, l ≠ base ++ (init ++ [s]) → d.at? l ≠ none → d'.at? l = d.at? l := by
  obtain ⟨hf, hp, hc⟩ := isClear_of_ensureDirectory (he.above hne) hne hr (hl.isLinkless init)
    (by rw [hmade])
  obtain rfl : made = d.raise base init := by
    rw [ensureDirectory_of_isClear (he.above hne) hne hf hr hp hc] at hmade
    cases hmade
    rfl
  have hr' := hr.mono (cwd_raise d base init).1 (persists_raise hc)
  obtain ⟨hf', hproper, rfl⟩ := he.put_of_writeText hr' (isChain_raise hc)
    ((hl.isLinkless (init ++ [s])).raise hc _ (by simp) List.prefix_rfl) hw
  refine ⟨hf', ⟨?_, hproper, _, at?_put _ (by simp) _⟩, fun l hne hat => ?_⟩
  · rw [List.dropLast_concat]
    exact (isChain_raise hc).mono fun way hw hd =>
      (at?_put_of_ne _ (append_ne_of_above hw) _).trans hd
  · rw [at?_put_of_ne _ hne, at?_raise hc]
    split
    · rename_i hon
      obtain ⟨way, hway, hw, rfl⟩ := isOn_iff.1 hon
      exact ((hc way hway hw).resolve_left hat).symm
    · rfl

end Stored

end StaticSite.Disk
