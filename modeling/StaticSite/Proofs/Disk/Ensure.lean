import StaticSite.Proofs.Disk.Simulation
import StaticSite.Proofs.Disk.Source

/-!
# Making directories

Making a directory with those above it changes only places that were free: they are directories
afterwards, and one of the paths leads to each of them (`ensureDirectory_grows`). When it succeeds,
its path leads to a directory (`reaches_of_ensureDirectory`).
-/

namespace StaticSite.Disk

variable {disk disk' before : Disk} {follow : Bool} {n : Nat} {here place : Location} {p : Path}
  {segments : List String}

/-! ## Where walks end -/

theorem Walks.directory_of_idle {found : Place} (h : Walks disk follow n here segments found)
    (hidle : ∀ s ∈ segments.getLast?, Path.isIdle s = true) :
    ∃ place, found = .held place .directory := by
  have behind {s : String} {rest : List String}
      (h : ∀ t ∈ (s :: rest).getLast?, Path.isIdle t = true) :
      ∀ t ∈ rest.getLast?, Path.isIdle t = true := fun t ht => h t (by
    rw [List.getLast?_cons, Option.mem_def.1 ht]
    rfl)
  have proper {s : String} (hs : IsProper s) (h : ∀ t ∈ [s].getLast?, Path.isIdle t = true) :
      False := by
    cases hs.1.symm.trans (h s rfl)
  induction h with
  | done => exact ⟨_, rfl⟩
  | idle h tail ih => exact ih (behind hidle)
  | up tail ih => exact ih (behind hidle)
  | enter h found tail ih => exact ih (behind hidle)
  | free h found => exact (proper h hidle).elim
  | file h found => exact (proper h hidle).elim
  | link h found stays => exact (proper h hidle).elim
  | @jump n here s target rest place h found goes tail ih =>
    cases rest with
    | nil => exact (proper h hidle).elim
    | cons t rest =>
      rw [List.getLast?_append_of_ne_nil _ (List.cons_ne_nil t rest)] at ih
      exact ih (behind hidle)

/-- A walk that ends with a dot ends at a directory. -/
theorem directory_of_dot {found : Place}
    (h : walkFrom disk follow n here (segments ++ ["."]) = .ok found) :
    ∃ place, found = .held place .directory := by
  refine (walks_of_walkFrom h).directory_of_idle fun s hs => ?_
  rw [List.getLast?_concat] at hs
  cases hs
  decide

theorem bareSegments_subset (p : Path) : bareSegments p ⊆ p.segments := by
  intro s hs
  exact List.mem_reverse.1 ((List.dropWhile_sublist _).subset (List.mem_reverse.1 hs))

theorem isName_of_isProper {s : String} (h : IsProper s) (hs : '/' ∉ s.toList) : Path.IsName s :=
  ⟨(Path.isIdle_eq_false_iff.1 h.1).1, (Path.isIdle_eq_false_iff.1 h.1).2, h.2.1, hs⟩

/-- A walk over names ends at a chain of names. -/
theorem isName_of_walkFrom {found : Place} (hh : ∀ n ∈ here, Path.IsName n)
    (hs : ∀ s ∈ segments, '/' ∉ s.toList) (h : walkFrom disk follow n here segments = .ok found) :
    ∀ n ∈ found.location, Path.IsName n := by
  have next {here : Location} {s : String} {rest : List String} (hh : ∀ n ∈ here, Path.IsName n)
      (hp : IsProper s) (hs : ∀ t ∈ s :: rest, '/' ∉ t.toList) :
      ∀ n ∈ here ++ [s], Path.IsName n := by
    intro n hn
    rcases List.mem_append.1 hn with hn | hn
    · exact hh n hn
    · exact List.mem_singleton.1 hn ▸ isName_of_isProper hp (hs s List.mem_cons_self)
  replace h := walks_of_walkFrom h
  induction h with
  | done => exact hh
  | idle h tail ih => exact ih hh (List.forall_mem_cons.1 hs).2
  | up tail ih =>
    exact ih (fun n hn => hh n (List.dropLast_subset _ hn)) (List.forall_mem_cons.1 hs).2
  | enter h found tail ih => exact ih (next hh h hs) (List.forall_mem_cons.1 hs).2
  | free h found => exact next hh h hs
  | file h found => exact next hh h hs
  | link h found stays => exact next hh h hs
  | jump h found goes tail ih =>
    refine ih (fun n hn => ?_) (fun t ht => ?_)
    · unfold startOf at hn
      split at hn
      · cases hn
      · exact hh n hn
    · rcases List.mem_append.1 ht with ht | ht
      · exact Path.noSlash_of_mem_segments ht
      · exact (List.forall_mem_cons.1 hs).2 t ht

theorem isName_of_mem_startOf (hc : ∀ n ∈ disk.cwd, Path.IsName n) {s : String}
    (hs : s ∈ startOf disk.cwd p) : Path.IsName s := by
  unfold startOf at hs
  split at hs
  · cases hs
  · exact hc s hs

/-! ## Making one directory -/

theorem persists_put (h : disk.at? place = none) (entry : Entry) :
    Persists disk (disk.put place entry) := by
  intro l
  by_cases hl : l = place
  · subst hl
    simp [h]
  · rw [at?_put_of_ne disk hl]
    exact ⟨id, fun _ => id⟩

/-- The directory of a path that names a location, and its last name. -/
theorem nameOf_eq_ok {slash : Bool} (h : disk.nameOf p = .ok (some place, slash)) :
    ∃ here last m, place = here ++ [last] ∧ IsProper last ∧ '/' ∉ last.toList ∧
      Leads disk linkLimit (startOf disk.cwd p) (bareSegments p).dropLast m here ∧
      p.steps = (bareSegments p).dropLast.filter (!Path.isIdle ·) ++ [last] := by
  cases hf : faultOf p with
  | some cause =>
    rw [nameOf_of_fault hf] at h
    cases h
  | none =>
    rw [nameOf_of_noFault hf] at h
    cases hb : (bareSegments p).getLast? with
    | none =>
      rw [hb] at h
      cases h
    | some last =>
      rw [hb] at h
      obtain ⟨found, hw, hn⟩ := Except.bind_eq_ok_iff.1 h
      obtain ⟨here, rfl⟩ := directory_of_dot hw
      dsimp only at hn
      split at hn
      · cases hn
      · rename_i hdots
        split at hn
        · cases hn
        · rename_i hlen
          cases hn
          have hidle : Path.isIdle last = false := by
            rw [← Bool.not_eq_true]
            exact fun hi => hdots (.inl (getLast_eq_dot hb hi))
          obtain ⟨m, hm⟩ := leads_of_walkFrom hw
          have hsteps := steps_of_getLast hb
          rw [hidle, if_neg (by decide)] at hsteps
          refine ⟨here, last, m, rfl, ⟨hidle, fun hu => hdots (.inr hu), by omega⟩, ?_, ?_, hsteps⟩
          · exact (Path.isStep_of_mem_steps (p := p) (by rw [hsteps]; simp)).2
          · exact hm.congr (by simp [Path.isIdle])

/-- What a path names is a chain of names. -/
theorem isName_of_nameOf {slash : Bool} (hc : ∀ n ∈ disk.cwd, Path.IsName n)
    (h : disk.nameOf p = .ok (some place, slash)) : ∀ n ∈ place, Path.IsName n := by
  obtain ⟨here, last, m, rfl, hl, hs, hm, -⟩ := nameOf_eq_ok h
  intro n hn
  rcases List.mem_append.1 hn with hn | hn
  · refine isName_of_walkFrom (fun n hn => isName_of_mem_startOf hc hn)
      (fun s hs => ?_) hm.walk_eq n hn
    exact Path.noSlash_of_mem_segments (p := p) (bareSegments_subset p (List.dropLast_subset _ hs))
  · exact List.mem_singleton.1 hn ▸ isName_of_isProper hl hs

/-- A directory that was made stands where nothing was, and its path leads to it. -/
theorem reaches_of_makeDirectory (h : disk.makeDirectory p = .ok disk') :
    ∃ place, place ≠ [] ∧ disk.at? place = none ∧ disk' = disk.put place .directory ∧
      Reaches disk' p place ∧ (disk.WellFormed → ∀ n ∈ place, Path.IsName n) := by
  obtain ⟨place, slash, hn, hfree, rfl⟩ := makeDirectory_eq_ok h
  obtain ⟨here, last, m, rfl, hl, -, hm, hsteps⟩ := nameOf_eq_ok hn
  have hne : here ++ [last] ≠ [] := by simp
  refine ⟨here ++ [last], hne, hfree, rfl, ?_, fun hw => isName_of_nameOf hw.cwd hn⟩
  have hend : Leads (disk.put (here ++ [last]) .directory) m here [last] m (here ++ [last]) :=
    .enter hl (at?_put disk hne _) .done
  refine ⟨m, ((hm.mono (persists_put hfree _)).append hend).congr ?_⟩
  rw [List.filter_append, List.filter_cons_of_pos (by simp [hl.1]), List.filter_nil, ← hsteps]
  rfl

/-! ## Making all of some directories -/

open Simulation

theorem settle_preserves {P : Disk → Prop}
    (h : ∀ d d', P d → d.makeDirectory p = .ok d' → P d') (hd : P disk) : P (settle p disk).2 := by
  unfold settle
  split
  · rename_i hm
    exact h _ _ hd hm
  · split
    · exact hd
    · exact hd

/-- What making each of some directories preserves. -/
theorem ensureAll_preserves {P : Disk → Prop} : ∀ {paths : List Path},
    (∀ p ∈ paths, ∀ d d', P d → d.makeDirectory p = .ok d' → P d') →
      ∀ {disk : Disk}, P disk → P ((ensureAll paths).run.run disk).2
  | [], _, _, hd => hd
  | p :: above, h, disk, hd => by
    have hp := h p List.mem_cons_self
    by_cases hm : disk.makeDirectory p = .error .missing
    · have ih := ensureAll_preserves (fun q hq => h q (List.mem_cons_of_mem p hq)) hd
      rw [run_ensureAll_of_missing above hm]
      generalize (ensureAll above).run.run disk = run at ih ⊢
      obtain ⟨cause | ⟨⟩, d⟩ := run
      · exact ih
      · exact settle_preserves hp ih
    · rw [run_ensureAll_of_ne above hm]
      exact settle_preserves hp hd

/-- A disk on which, since `before`, only directories were made where nothing was, each by one of
some paths. -/
structure Grown (paths : List Path) (before disk : Disk) : Prop where
  cwd : disk.cwd = before.cwd
  now : disk.now = before.now
  wellFormed : disk.WellFormed
  persists : Persists before disk
  made (place : Location) : disk.at? place = before.at? place ∨
    before.at? place = none ∧ disk.at? place = some .directory ∧ ∃ q ∈ paths, Reaches disk q place

theorem Grown.refl (paths : List Path) (h : disk.WellFormed) : Grown paths disk disk :=
  ⟨rfl, rfl, h, fun _ => ⟨id, fun _ => id⟩, fun _ => .inl rfl⟩

theorem WellFormed.put (h : disk.WellFormed) (hne : place ≠ []) (hn : ∀ n ∈ place, Path.IsName n)
    (entry : Entry) : (disk.put place entry).WellFormed := by
  refine ⟨h.cwd, ?_, fun {l e} he => ?_⟩
  · exact nodup_put h.nodup place entry
  · rcases List.mem_cons.1 he with he | he
    · cases he
      exact ⟨hne, hn⟩
    · exact h.names (List.mem_filter.1 he).1

theorem Grown.makeDirectory {paths : List Path} (h : Grown paths before disk) (hp : p ∈ paths)
    (hm : disk.makeDirectory p = .ok disk') : Grown paths before disk' := by
  obtain ⟨place, hne, hfree, rfl, hr, hn⟩ := reaches_of_makeDirectory hm
  have hstep := persists_put hfree .directory
  refine ⟨h.cwd, h.now, h.wellFormed.put hne (hn h.wellFormed) _, fun l => ?_, fun l => ?_⟩
  · exact ⟨fun hl => (hstep l).1 ((h.persists l).1 hl),
      fun t hl => (hstep l).2 t ((h.persists l).2 t hl)⟩
  · by_cases hl : l = place
    · subst hl
      refine .inr ⟨?_, at?_put disk hne _, p, hp, hr⟩
      rcases h.made l with hs | ⟨hs, -, -⟩
      · exact hs ▸ hfree
      · exact hs
    · rw [at?_put_of_ne disk hl]
      rcases h.made l with hs | ⟨hs, hd, q, hq, hqr⟩
      · exact .inl hs
      · exact .inr ⟨hs, hd, q, hq, hqr.mono rfl hstep⟩

theorem ensureDirectory_grows (h : disk.WellFormed) (p : Path) :
    Grown p.withAncestors disk ((ensureDirectory p).run.run disk).2 :=
  ensureAll_preserves (P := Grown p.withAncestors disk)
    (fun _ hq _ _ hd hm => hd.makeDirectory hq hm)
    (.refl _ h)

theorem resolve_of_isDirectory (h : disk.isDirectory p = true) :
    ∃ place, disk.resolve true p = .ok (.held place .directory) := by
  unfold isDirectory at h
  split at h
  · rename_i he
    obtain ⟨found, hr, he⟩ := Except.bind_eq_ok_iff.1 he
    cases found with
    | free => cases he
    | held place entry =>
      cases he
      exact ⟨place, hr⟩
  · cases h

theorem noFault_of_nameOf {found : Option Location × Bool} (h : disk.nameOf p = .ok found) :
    faultOf p = none := by
  cases hf : faultOf p with
  | none => rfl
  | some cause =>
    rw [nameOf_of_fault hf] at h
    cases h

theorem isDirectory_of_settle (h : settle p disk = (.ok (), disk')) :
    disk'.isDirectory p = true := by
  unfold settle at h
  split at h
  · rename_i hm
    cases h
    obtain ⟨_, _, hn, -⟩ := makeDirectory_eq_ok hm
    obtain ⟨place, -, -, -, hr, -⟩ := reaches_of_makeDirectory hm
    exact isDirectory_above hr ⟨List.prefix_rfl, rfl⟩ (noFault_of_nameOf hn)
  · split at h
    · rename_i hd
      cases h
      exact hd
    · cases h

theorem reaches_of_components_nil (h : p.components = []) : Reaches disk p disk.cwd := by
  rw [Path.components_eq, List.append_eq_nil_iff] at h
  have ha : p.isAbsolute = false := by
    rw [← Bool.not_eq_true, ← Path.lead_eq_slash_iff, h.1]
    simp
  refine ⟨linkLimit, ?_⟩
  rw [startOf, ha, if_neg (by simp)]
  exact .idles fun s hs => by simpa using List.filter_eq_nil_iff.1 h.2 s hs

theorem isDirectory_of_ensureDirectory (h : (ensureDirectory p).run.run disk = (.ok (), disk'))
    (hc : p.components ≠ []) : disk'.isDirectory p = true := by
  rw [ensureDirectory, Path.withAncestors_eq hc] at h
  by_cases hm : disk.makeDirectory p = .error .missing
  · rw [run_ensureAll_of_missing _ hm] at h
    split at h
    · exact isDirectory_of_settle h
    · cases h
  · rw [run_ensureAll_of_ne _ hm] at h
    exact isDirectory_of_settle h

theorem reaches_of_ensureDirectory (h : (ensureDirectory p).run.run disk = (.ok (), disk')) :
    ∃ base, Reaches disk' p base := by
  by_cases hc : p.components = []
  · exact ⟨_, reaches_of_components_nil hc⟩
  · obtain ⟨place, hr⟩ := resolve_of_isDirectory (isDirectory_of_ensureDirectory h hc)
    exact ⟨place, reaches_of_resolve hr⟩

/-- A directory that is there is not made again. -/
theorem ensureDirectory_of_isDirectory (h : disk.isDirectory p = true) :
    (ensureDirectory p).run.run disk = (.ok (), disk) := by
  obtain ⟨place, hr⟩ := resolve_of_isDirectory h
  by_cases hc : p.components = []
  · rw [ensureDirectory, Path.withAncestors, if_pos hc]
    rfl
  · have hm := makeDirectory_above (reaches_of_resolve hr) (p := p) ⟨List.prefix_rfl, rfl⟩
    rw [noFault_of_resolve hr] at hm
    rw [ensureDirectory, Path.withAncestors_eq hc, run_ensureAll_of_ne _ (by simp [hm]), settle, hm]
    exact if_pos h

end StaticSite.Disk
