import StaticSite.Proofs.Disk.Open

/-!
# Copies of entries that fit

An entry that is copied to the end of a chain of directories fits what is there if it can replace
it: a directory another directory, a file another file, a link a file or a link (`Entry.fits`). Then
no call fails and the copy succeeds (`IsSteady.copyEntry_succeeds`), and so does copying all entries
below a directory one after another (`copyEntries_succeeds`), which counts the files and links.
-/

namespace StaticSite

/-- Whether something can be copied to where something else is. -/
def Entry.fits : Entry → Entry → Bool
  | .directory, .directory | .file .., .file .. | .link _, .file .. | .link _, .link _ => true
  | _, _ => false

/-- Files and links count, directories do not. -/
def Entry.isLeaf : Entry → Bool
  | .directory => false
  | .file .. | .link _ => true

namespace Disk

variable {d d' steady : Disk} {base origin : Location} {root p source dest : Path}
  {init : List String} {s : String} {entry : Entry}

/-! ## Paths that the system takes -/

/-- The system takes a path that goes on by names, when it takes the root and the names. -/
theorem Extends.noFault (h : Extends root p (init ++ [s])) (hroot : '\x00' ∉ root.text.toList)
    (hn : ∀ n ∈ init ++ [s], '\x00' ∉ n.toList) : faultOf p = none := by
  refine faultOf_of_steps h.steps (by simp) fun hnul => ?_
  rcases Path.mem_segments_of_mem_text hnul with hc | ⟨x, hx, hc⟩
  · exact absurd hc (by decide)
  · obtain ⟨front, hsegments, hfront⟩ := h.front
    rw [hsegments] at hx
    rcases List.mem_append.1 hx with hx | hx
    · by_cases hidle : Path.isIdle x = true
      · have : x = "" ∨ x = "." := by simpa [Path.isIdle] using hidle
        rcases this with rfl | rfl <;> revert hc <;> decide
      · have hstep : x ∈ root.steps := hfront ▸ List.mem_filter.2 ⟨hx, by simpa using hidle⟩
        exact hroot (Path.mem_text_of_mem_segments (List.mem_filter.1 hstep).1 hc)
    · exact hn x hx hc

/-! ## Calls on a name at the end of a chain -/

section Calls

variable (h : Extends root p (init ++ [s])) (hf : faultOf p = none) (hr : Reaches d root base)
  (hc : IsChain d base init) (hp : ∀ n ∈ init ++ [s], IsProper n)

include h hf hr hc hp

theorem Extends.nameOf_eq : d.nameOf p = .ok (some (base ++ (init ++ [s])), false) := by
  obtain ⟨m, -, hname, hwalk⟩ := h.walks hf hr
  have hs := h.names s (by simp)
  have hslash : (p.text.toList.getLast? == some '/') = false := beq_eq_false_iff_ne.2 fun he => by
    obtain ⟨front, hsegments, -⟩ := h.front
    have := Path.getLast?_segments_of_endsWithSlash he
    rw [hsegments, ← List.append_assoc, List.getLast?_concat] at this
    exact hs.1 (Option.some.inj this)
  rw [(leads_of_isChain hc fun n hn => hp n (List.mem_append_left _ hn)).walk,
    walkFrom_idle (by decide), walkFrom_nil] at hwalk
  rw [hname, lastName_of_walk hwalk, if_neg (fun hd => hd.elim hs.2.1 hs.2.2.1),
    if_neg (Nat.not_lt.2 (hp s (by simp)).2.2), List.append_assoc, hslash]

/-- What a path along a chain names, a link at its end included. -/
theorem Extends.linkEntry_eq : d.linkEntry p =
    match d.at? (base ++ (init ++ [s])) with
    | some entry => .ok entry
    | none => .error .missing := by
  obtain ⟨front, hsegments, hfront⟩ := h.front
  obtain ⟨m, hm⟩ := hr
  rw [← startOf_eq h.isAbsolute] at hm
  have hwalk : d.resolve false p = walkFrom d false m (base ++ init) [s] := by
    rw [resolve_of_noFault hf, hsegments, (hm.congr hfront.symm).walk_onto (by simp),
      (leads_of_isChain hc fun n hn => hp n (List.mem_append_left _ hn)).walk_onto (by simp)]
  rw [linkEntry, hwalk, walkFrom_proper (hp s (by simp)), List.append_assoc]
  rcases d.at? (base ++ (init ++ [s])) with _ | _ | _ | target
  · rfl
  · dsimp only
    rw [walkFrom_nil]
    rfl
  · rfl
  · rfl

theorem Extends.makeLink_of_free {target : String} (hfree : d.at? (base ++ (init ++ [s])) = none) :
    d.makeLink p target = .ok (d.put (base ++ (init ++ [s])) (.link target)) := by
  unfold makeLink
  rw [h.nameOf_eq hf hr hc hp]
  dsimp only [Bind.bind, Except.bind]
  rw [hfree]
  rfl

theorem Extends.removeFile_of_isLeaf (hat : d.at? (base ++ (init ++ [s])) = some entry)
    (hleaf : entry.isLeaf = true) : d.removeFile p = .ok (d.remove (base ++ (init ++ [s]))) := by
  unfold removeFile
  rw [h.nameOf_eq hf hr hc hp]
  dsimp only [Bind.bind, Except.bind]
  rw [hat]
  cases entry with
  | directory => cases hleaf
  | file | link => rfl

theorem Extends.writable_eq (hfree : ∀ old, d.at? (base ++ (init ++ [s])) = some old →
    ∃ bytes modified, old = .file bytes modified) : d.writable p = .ok (base ++ (init ++ [s])) := by
  have hlink : ∀ target, d.at? (base ++ (init ++ [s])) ≠ some (.link target) := fun target ht => by
    obtain ⟨_, _, he⟩ := hfree _ ht
    cases he
  unfold writable
  rw [h.nameOf_eq hf hr hc hp, h.resolve_of_isChain hf hr hc hp hlink]
  dsimp only [Bind.bind, Except.bind]
  cases hat : d.at? (base ++ (init ++ [s])) with
  | none => rfl
  | some old =>
    obtain ⟨_, _, rfl⟩ := hfree old hat
    rfl

/-- Making the directory above a name at the end of a chain succeeds. -/
theorem Extends.ensureAbove :
    (ensureDirectory (Path.ofComponents p.components.dropLast)).run.run d = (.ok (), d) :=
  ensureDirectory_of_reaches (hr.onward h.steps_above.2 h.steps_above.1 hc fun n hn =>
    hp n (List.mem_append_left _ hn)) (Path.noNul_above (nul_of_noFault hf))

end Calls

/-! ## Copying one entry -/

theorem copyLink_succeeds {target : String} (h : Extends dest p (init ++ [s]))
    (hf : faultOf p = none)
    (hs : Persists steady d) (hcwd : d.cwd = steady.cwd) (hr : Reaches steady dest base)
    (hl : ∀ target, steady.at? (base ++ (init ++ [s])) ≠ some (.link target))
    (hc : IsChain d base init) (hp : ∀ n ∈ init ++ [s], IsProper n)
    (hleaf : ∀ old, d.at? (base ++ (init ++ [s])) = some old → old.isLeaf = true) :
    ∃ d', (copyLink target p).run.run d = (.ok (), d') := by
  have hmake {cleared : Disk} (hr' : Reaches cleared dest base) (hc' : IsChain cleared base init)
      (hfree : cleared.at? (base ++ (init ++ [s])) = none) :
      (do
        ensureDirectory (Path.ofComponents p.components.dropLast)
        Task.call id (·.makeLink p target) : Disk.Task IoError Unit).run.run cleared =
      (.ok (), cleared.put (base ++ (init ++ [s])) (.link target)) := by
    rw [StaticSite.Task.run_bind, h.ensureAbove hf hr' hc' hp]
    exact Task.run_call_eq_ok.2 (h.makeLink_of_free hf hr' hc' hp hfree)
  have hr' := hr.mono hcwd hs
  rw [copyLink, Simulation.run_get_bind, h.linkEntry_eq hf hr' hc hp]
  simp only [h.parent?]
  cases hat : d.at? (base ++ (init ++ [s])) with
  | none => exact ⟨_, hmake hr' hc hat⟩
  | some old =>
    have hremove : (Task.call id (·.removeFile p) : Disk.Task IoError Unit).run.run d =
        (.ok (), d.remove (base ++ (init ++ [s]))) :=
      Task.run_call_eq_ok.2 (h.removeFile_of_isLeaf hf hr' hc hp hat (hleaf old hat))
    have hsame (l : Location) (hne : l ≠ base ++ (init ++ [s])) :
        (d.remove (base ++ (init ++ [s]))).at? l = d.at? l := at?_remove_of_ne d hne
    have hreaches : Reaches (d.remove (base ++ (init ++ [s]))) dest base :=
      hr.mono hcwd (hs.change hl hsame fun hd => by
        rw [hat] at hd
        cases hd
        cases hleaf _ hat)
    have hchain : IsChain (d.remove (base ++ (init ++ [s]))) base init :=
      hc.mono fun way hw hd => (hsame _ (append_ne_of_above hw)).trans hd
    refine ⟨_, Eq.trans ?_ (hmake hreaches hchain (at?_remove d (by simp)))⟩
    dsimp only
    rw [if_pos (by rfl), StaticSite.Task.run_bind, hremove]

theorem copyFile_succeeds (h : Extends dest p (init ++ [s]))
    (h' : Extends source root (init ++ [s]))
    (hf : faultOf p = none) (hf' : faultOf root = none) (hr : Reaches d dest base)
    (hr' : Reaches d source origin) (hd : IsReady d origin base init s entry)
    (hp : ∀ n ∈ init ++ [s], IsProper n) (he : ∃ bytes modified, entry = .file bytes modified)
    (hfree : ∀ old, d.at? (base ++ (init ++ [s])) = some old →
      ∃ bytes modified, old = .file bytes modified) :
    ∃ d', (copyFile root p).run.run d = (.ok (), d') := by
  obtain ⟨bytes, modified, rfl⟩ := he
  have hfrom := h'.resolve_of_isChain hf' hr' hd.chain' hp (by simp [hd.there])
  rw [hd.there] at hfrom
  obtain ⟨d', hcopy⟩ : ∃ d', d.copyBytes root p = .ok d' :=
    ⟨_, copyBytes_eq_ok_iff.2 ⟨_, _, _, _, hfrom, h.writable_eq hf hr hd.chain hp hfree, rfl⟩⟩
  refine ⟨d', ?_⟩
  rw [copyFile]
  simp only [h.parent?]
  rw [StaticSite.Task.run_bind, h.ensureAbove hf hr hd.chain hp]
  exact Task.run_call_eq_ok.2 hcopy

/-- Names that the system takes. -/
structure AreTaken (names : List String) : Prop where
  short : ∀ n ∈ names, n.utf8ByteSize ≤ nameLimit
  noNul : ∀ n ∈ names, '\x00' ∉ n.toList

instance (names : List String) : Decidable (AreTaken names) :=
  decidable_of_iff (∀ n ∈ names, n.utf8ByteSize ≤ nameLimit ∧ '\x00' ∉ n.toList)
    ⟨fun h => ⟨fun n hn => (h n hn).1, fun n hn => (h n hn).2⟩,
      fun h n hn => ⟨h.short n hn, h.noNul n hn⟩⟩

theorem AreTaken.proper {names : List String} (h : AreTaken names)
    (hn : ∀ n ∈ names, Path.IsName n) :
    ∀ n ∈ names, IsProper n :=
  fun n hm => ⟨(hn n hm).isStep.1, (hn n hm).2.2.1, h.short n hm⟩

namespace IsSteady

/-- Copying an entry that fits what is at its place succeeds. -/
theorem copyEntry_succeeds (h : IsSteady steady source dest origin base d)
    (hsource : '\x00' ∉ source.text.toList) (hdest : '\x00' ∉ dest.text.toList)
    (hd : IsReady d origin base init s entry) (ht : AreTaken (init ++ [s]))
    (hfit : ∀ old, d.at? (base ++ (init ++ [s])) = some old → entry.fits old = true) :
    ∃ d', (copyEntry source dest (init ++ [s], entry)).run.run d =
      (.ok (if entry.isLeaf then 1 else 0), d') := by
  have hp : Extends dest (dest.join ("/".intercalate (init ++ [s]))) (init ++ [s]) :=
    extends_join dest hd.names (by simp)
  have hf := hp.noFault hdest ht.noNul
  have hproper := ht.proper hd.names
  -- the number that is returned behind the copy
  have counted {x : Disk.Task IoError Unit} {k : Nat} (hx : ∃ d', x.run.run d = (.ok (), d')) :
      ∃ d', (do x; return k : Disk.Task IoError Nat).run.run d = (.ok k, d') := by
    obtain ⟨d', hx⟩ := hx
    exact ⟨d', StaticSite.Task.run_bind_eq_ok.2 ⟨(), d', hx, rfl⟩⟩
  cases entry with
  | link target =>
    refine counted (copyLink_succeeds hp hf h.persists h.cwd h.dest
      (fun _ => h.noLinks (isInside_append base (by simp))) hd.chain hproper fun old hat => ?_)
    have := hfit old hat
    cases old with
    | directory => cases this
    | file | link => rfl
  | directory =>
    refine counted ⟨_, ensureDirectory_of_isClear hp (by simp) hf h.reaches_dest hproper ?_⟩
    refine isClear_concat.2 ⟨hd.chain.isClear, ?_⟩
    rw [List.append_assoc]
    cases hat : d.at? (base ++ (init ++ [s])) with
    | none => exact .inl rfl
    | some old =>
      cases old with
      | directory => exact .inr rfl
      | file | link => cases hfit _ hat
  | file bytes modified =>
    have hp' := extends_pathBelow source hd.names
    refine counted
      (copyFile_succeeds hp hp' hf (hp'.noFault hsource ht.noNul) h.reaches_dest h.reaches_source
      hd hproper ⟨_, _, rfl⟩ fun old hat => ?_)
    cases old with
    | file bytes modified => exact ⟨bytes, modified, rfl⟩
    | directory | link => cases hfit _ hat

end IsSteady

/-! ## Copying all entries -/

/-- Copying entries that fit what is at their places succeeds and counts the files and links. -/
theorem copyEntries_succeeds {entries : List (Location × Entry)}
    (hs : IsSteady steady source dest origin base d)
    (hsource : '\x00' ∉ source.text.toList) (hdest : '\x00' ∉ dest.text.toList)
    (h : Pending d origin base entries) (ht : ∀ e ∈ entries, AreTaken e.1)
    (hfit : ∀ e ∈ entries, ∀ old, d.at? (base ++ e.1) = some old → e.2.fits old = true) :
    ∃ d', (copyEntries source dest entries).run.run d = (.ok (entries.countP (·.2.isLeaf)), d') ∧
      d'.cwd = d.cwd := by
  induction entries generalizing d with
  | nil => exact ⟨d, rfl, rfl⟩
  | cons e rest ih =>
    obtain ⟨names, entry⟩ := e
    obtain ⟨init, s, rfl⟩ := names.eq_nil_or_concat'.resolve_left (h.names List.mem_cons_self).1
    obtain ⟨made, hmade⟩ := hs.copyEntry_succeeds hsource hdest h.isReady (ht _ List.mem_cons_self)
      (hfit _ List.mem_cons_self)
    have hp := hs.placed_of_copyEntry h.isReady hmade
    obtain ⟨last, hlast, hcwd⟩ := ih (hs.placed (by simp) hp) (h.step hs.apart hs.apart' hp)
      (fun e he => ht e (List.mem_cons_of_mem _ he)) fun e he old hat => by
        refine hfit e (List.mem_cons_of_mem _ he) old ?_
        rwa [hp.at?_eq, if_neg] at hat
        exact fun heq => ((List.pairwise_cons.1 h.sorted).1 e he).2
          (List.append_cancel_left heq).symm
    refine ⟨last, StaticSite.Task.run_bind_eq_ok.2 ⟨_, made, hmade,
      StaticSite.Task.run_bind_eq_ok.2 ⟨_, last, hlast, ?_⟩⟩, hcwd.trans hp.cwd⟩
    rw [List.countP_cons, Nat.add_comm]
    rfl

end Disk

end StaticSite
