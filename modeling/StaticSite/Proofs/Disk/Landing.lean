import StaticSite.Proofs.Disk.Names

/-!
# Where names lead

`Path.landing` says where segments lead from a location if all of them name directories: idle ones
lead nowhere and `..` climbs. `Path.descend` keeps the names that are left below the start and fails
if a segment climbs above it; when it does not, the segments lead below every location they start
from (`landing_of_descend`), and when it does, there is a location that they leave
(`exists_not_prefix_landing`). `Path.stays` asks this of a path; the depth counter of URLs asks the
same when it splits at slashes only (`isSome_descend_map`).
-/

namespace StaticSite.Path

/-- Where segments lead from a location if all of them name directories. -/
def landing (here : Location) : List String → Location
  | [] => here
  | s :: rest =>
    if isIdle s then landing here rest
    else if s = ".." then landing here.dropLast rest
    else landing (here ++ [s]) rest

/-- The names that segments leave behind others, unless one of them climbs above the start. -/
def descend (kept : List String) : List String → Option (List String)
  | [] => some kept
  | s :: rest =>
    if isIdle s then descend kept rest
    else if s = ".." then
      if kept = [] then none else descend kept.dropLast rest
    else descend (kept ++ [s]) rest

/-- Whether no segment of a relative path climbs above its start. -/
def stays (p : Path) : Bool :=
  (descend [] p.segments).isSome

variable {here : Location} {kept left segments : List String}

theorem landing_append (here : Location) (first second : List String) :
    landing here (first ++ second) = landing (landing here first) second := by
  induction first generalizing here with
  | nil => rfl
  | cons s rest ih =>
    rw [List.cons_append, landing, landing]
    split
    · exact ih here
    · split
      · exact ih here.dropLast
      · exact ih (here ++ [s])

theorem landing_filter (here : Location) (segments : List String) :
    landing here (segments.filter (!isIdle ·)) = landing here segments := by
  induction segments generalizing here with
  | nil => rfl
  | cons s rest ih =>
    by_cases hs : isIdle s = true
    · rw [List.filter_cons_of_neg (by simpa using hs), ih, landing, if_pos hs]
    · rw [List.filter_cons_of_pos (by simpa using hs), landing, landing, if_neg hs, if_neg hs, ih,
        ih]

theorem landing_eq_append (here : Location) (hup : ".." ∉ segments) :
    landing here segments = here ++ segments.filter (!isIdle ·) := by
  induction segments generalizing here with
  | nil => rw [landing, List.filter_nil, List.append_nil]
  | cons s rest ih =>
    have hs : s ≠ ".." := fun he => hup (he ▸ List.mem_cons_self)
    have hrest : ".." ∉ rest := fun hm => hup (List.mem_cons_of_mem s hm)
    by_cases hi : isIdle s = true
    · rw [landing, if_pos hi, ih here hrest, List.filter_cons_of_neg (by simp [hi])]
    · rw [landing, if_neg hi, if_neg hs, ih (here ++ [s]) hrest,
        List.filter_cons_of_pos (by simpa using hi), List.append_assoc]
      rfl

theorem landing_of_noClimb (here : Location) {names : List String} (h : ∀ n ∈ names, IsStep n)
    (hup : ".." ∉ names) : landing here names = here ++ names := by
  rw [landing_eq_append here hup, List.filter_eq_self.2 fun n hn => by simp [(h n hn).1]]

theorem mem_of_mem_landing {n : String} (h : n ∈ landing here segments) :
    n ∈ here ∨ n ∈ segments := by
  induction segments generalizing here with
  | nil => exact .inl h
  | cons s rest ih =>
    rw [landing] at h
    split at h
    · exact (ih h).imp_right (List.mem_cons_of_mem s)
    · split at h
      · exact (ih h).imp (fun hm => List.dropLast_subset _ hm) (List.mem_cons_of_mem s)
      · rcases ih h with hm | hm
        · rcases List.mem_append.1 hm with hm | hm
          · exact .inl hm
          · exact .inr (List.mem_singleton.1 hm ▸ List.mem_cons_self)
        · exact .inr (List.mem_cons_of_mem s hm)

theorem descend_append (kept first second : List String) :
    descend kept (first ++ second) = (descend kept first).bind (descend · second) := by
  induction first generalizing kept with
  | nil => rfl
  | cons s rest ih =>
    rw [List.cons_append, descend, descend]
    split
    · exact ih kept
    · split
      · split
        · rfl
        · exact ih kept.dropLast
      · exact ih (kept ++ [s])

theorem descend_filter (kept segments : List String) :
    descend kept (segments.filter (!isIdle ·)) = descend kept segments := by
  induction segments generalizing kept with
  | nil => rfl
  | cons s rest ih =>
    by_cases hs : isIdle s = true
    · rw [List.filter_cons_of_neg (by simpa using hs), ih, descend, if_pos hs]
    · rw [List.filter_cons_of_pos (by simpa using hs), descend, descend, if_neg hs, if_neg hs, ih,
        ih]

theorem stays_iff_steps (p : Path) : p.stays = (descend [] p.steps).isSome := by
  rw [stays, steps, descend_filter]

/-- Segments that do not climb lead below where they start. -/
theorem landing_of_descend (here : Location) (h : descend kept segments = some left) :
    landing (here ++ kept) segments = here ++ left := by
  induction segments generalizing kept with
  | nil =>
    cases h
    rfl
  | cons s rest ih =>
    rw [descend] at h
    rw [landing]
    split at h
    · rename_i hs
      rw [if_pos hs]
      exact ih h
    · rename_i hs
      rw [if_neg hs]
      split at h
      · rename_i hup
        rw [if_pos hup]
        split at h
        · cases h
        · rename_i hk
          rw [List.dropLast_append_of_ne_nil hk]
          exact ih h
      · rename_i hup
        rw [if_neg hup, List.append_assoc]
        exact ih h

/-- What lies deeper does not matter to segments that do not climb. -/
theorem descend_below (above : List String) (h : descend kept segments = some left) :
    descend (above ++ kept) segments = some (above ++ left) := by
  induction segments generalizing kept with
  | nil =>
    cases h
    rfl
  | cons s rest ih =>
    rw [descend] at h ⊢
    split at h
    · rename_i hs
      rw [if_pos hs]
      exact ih h
    · rename_i hs
      rw [if_neg hs]
      split at h
      · rename_i hup
        rw [if_pos hup]
        split at h
        · cases h
        · rename_i hk
          rw [if_neg (by simp [hk]), List.dropLast_append_of_ne_nil hk]
          exact ih h
      · rename_i hup
        rw [if_neg hup, List.append_assoc]
        exact ih h

theorem descend_of_noClimb (kept : List String) {names : List String} (h : ∀ n ∈ names, IsStep n)
    (hup : ".." ∉ names) : descend kept names = some (kept ++ names) := by
  induction names generalizing kept with
  | nil => rw [descend, List.append_nil]
  | cons n rest ih =>
    have hn : n ≠ ".." := fun he => hup (he ▸ List.mem_cons_self)
    rw [descend, if_neg (by simp [(h n List.mem_cons_self).1]), if_neg hn,
      ih (kept ++ [n]) (fun m hm => h m (List.mem_cons_of_mem n hm))
        fun hm => hup (List.mem_cons_of_mem n hm), List.append_assoc]
    rfl

/-! ## Leaving a location -/

theorem length_le_join {s : String} {texts : List String} (h : s ∈ texts) :
    s.length ≤ (String.join texts).length := by
  induction texts with
  | nil => cases h
  | cons t rest ih =>
    rw [String.join_cons, String.length_append]
    rcases List.mem_cons.1 h with rfl | h
    · omega
    · have := ih h
      omega

/-- A name that is none of some texts. -/
def freshName (texts : List String) : String :=
  "x" ++ String.join texts

theorem freshName_notMem (texts : List String) : freshName texts ∉ texts := by
  intro h
  have := length_le_join h
  rw [freshName, String.length_append] at this
  have hx : "x".length = 1 := rfl
  omega

theorem not_prefix_of_descend_none {n : String} (hn : n ∉ segments)
    (h : descend kept segments = none) : ¬ [n] <+: landing ([n] ++ kept) segments := by
  induction segments generalizing kept with
  | nil => cases h
  | cons s rest ih =>
    have hrest : n ∉ rest := fun hm => hn (List.mem_cons_of_mem s hm)
    rw [descend] at h
    rw [landing]
    split at h
    · rename_i hs
      rw [if_pos hs]
      exact ih hrest h
    · rename_i hs
      rw [if_neg hs]
      split at h
      · rename_i hup
        rw [if_pos hup]
        split at h
        · rename_i hk
          subst hk
          intro hp
          rcases mem_of_mem_landing (hp.subset List.mem_cons_self) with hm | hm
          · simp at hm
          · exact hrest hm
        · rename_i hk
          rw [List.dropLast_append_of_ne_nil hk]
          exact ih hrest h
      · rename_i hup
        rw [if_neg hup, List.append_assoc]
        exact ih hrest h

/-- A relative path leads below every location exactly if no segment of it climbs above its
start. -/
theorem stays_iff_landing (p : Path) :
    p.stays = true ↔ ∀ here, here <+: landing here p.segments := by
  constructor
  · intro h here
    obtain ⟨left, hl⟩ := Option.isSome_iff_exists.1 h
    have := landing_of_descend here hl
    rw [List.append_nil] at this
    exact ⟨left, this.symm⟩
  · intro h
    cases hd : descend [] p.segments with
    | some left => simp [stays, hd]
    | none => exact absurd (h _) (not_prefix_of_descend_none (freshName_notMem p.segments) hd)

/-- The location that a path names if all names on the way are directories. -/
def landsAt (cwd : Location) (p : Path) : Location :=
  landing (Disk.startOf cwd p) p.segments

theorem landsAt_of_components_append {p q : Path} {names : List String} (hp : p.components ≠ [])
    (h : q.components = p.components ++ names) (hup : ".." ∉ names) (cwd : Location) :
    q.landsAt cwd = p.landsAt cwd ++ names := by
  obtain ⟨hl, hs⟩ := lead_steps_of_components_append hp h
  have hstart : Disk.startOf cwd q = Disk.startOf cwd p := by
    unfold Disk.startOf
    rw [Bool.eq_iff_iff.2 (by rw [← lead_eq_slash_iff, ← lead_eq_slash_iff, hl] :
      q.isAbsolute = true ↔ p.isAbsolute = true)]
  have hsteps : ∀ n ∈ names, IsStep n := fun n hn =>
    isStep_of_mem_steps (p := q) (hs ▸ List.mem_append_right _ hn)
  rw [landsAt, landsAt, hstart, ← landing_filter, ← landing_filter _ p.segments]
  show landing _ q.steps = landing _ p.steps ++ names
  rw [hs, landing_append, landing_of_noClimb _ hsteps hup]

/-- A text goes on staying when its last segment gets an extension. -/
theorem stays_append {s t : String} (h : stays ⟨s⟩ = true) (ht : '/' ∉ t.toList)
    (hl : 2 < t.length) :
    stays ⟨s ++ t⟩ = true := by
  obtain ⟨init, last, hs, hst⟩ := segments_append s ht
  have hproper : isIdle (last ++ t) = false ∧ last ++ t ≠ ".." := by
    have hlong : 2 < (last ++ t).length := by
      rw [String.length_append]
      omega
    rw [isIdle_eq_false_iff]
    refine ⟨⟨?_, ?_⟩, ?_⟩ <;>
      · intro he
        rw [he] at hlong
        exact absurd hlong (by decide)
  unfold stays at h ⊢
  rw [hs, descend_append] at h
  obtain ⟨left, hleft⟩ := Option.isSome_iff_exists.1 h
  obtain ⟨kept, hk, -⟩ := Option.bind_eq_some_iff.1 hleft
  rw [hst, descend_append, hk, Option.bind_some, descend, if_neg (Bool.not_eq_true _ ▸ hproper.1),
    if_neg hproper.2]
  rfl

/-! ## The depth counter -/

theorem ofList_eq_iff {s : List Char} {t : String} : String.ofList s = t ↔ s = t.toList := by
  rw [← String.toList_inj, String.toList_ofList]

theorem isIdle_ofList {s : List Char} : isIdle (String.ofList s) = true ↔ s = [] ∨ s = ['.'] := by
  simp [isIdle, ofList_eq_iff]

theorem isSome_descend_map (kept : List String) (segments : List (List Char)) :
    (descend kept (segments.map String.ofList)).isSome =
      (Url.depthAfter kept.length segments).isSome := by
  induction segments generalizing kept with
  | nil => rfl
  | cons s rest ih =>
    have hup : String.ofList s = ".." ↔ s = ['.', '.'] := ofList_eq_iff
    rw [List.map_cons, descend, Url.depthAfter.eq_def]
    by_cases hs : s = [] ∨ s = ['.']
    · simp only [isIdle_ofList.2 hs, hs, if_true]
      exact ih kept
    · rw [if_neg (mt isIdle_ofList.1 hs)]
      simp only [hs, if_false]
      by_cases hu : s = ['.', '.']
      · rw [if_pos (hup.2 hu)]
        simp only [hu, if_true]
        cases hk : kept.length with
        | zero => simp [List.length_eq_zero_iff.1 hk]
        | succ d =>
          have hne : kept ≠ [] := fun he => by simp [he] at hk
          rw [if_neg hne, ih, List.length_dropLast, hk]
          rfl
      · rw [if_neg (mt hup.1 hu)]
        simp only [hu, if_false]
        rw [ih, List.length_append]
        rfl

/-- The depth counter of URLs, when only slashes separate segments. -/
theorem stays_eq (p : Path) : p.stays = (Url.depthAfter 0 (Url.segments p.text.toList)).isSome :=
  isSome_descend_map [] _

theorem isRelative_of_isContained {s : String} (h : Url.isContained s = true) : IsRelative s := by
  simp only [Url.isContained, Bool.and_eq_true, decide_eq_true_eq] at h
  exact h.1

theorem splitAtChars_congr {p q : Char → Bool} {s : List Char} (h : ∀ c ∈ s, p c = q c) :
    Url.splitAtChars p s = Url.splitAtChars q s := by
  induction s with
  | nil => rfl
  | cons c s ih =>
    rw [Url.splitAtChars, Url.splitAtChars, h c List.mem_cons_self,
      ih fun x hx => h x (List.mem_cons_of_mem c hx)]

/-- Without backslashes the two ways of splitting are the same. -/
theorem splitAtChars_of_noBackslash {s : String} (hb : '\\' ∉ s.toList) :
    Url.splitAtChars Url.isSeparator s.toList = Url.segments s.toList :=
  splitAtChars_congr fun c hc => by
    have : c ≠ '\\' := fun he => hb (he ▸ hc)
    simp [Url.isSlash, Url.isSeparator, this]

theorem stays_of_isContained {s : String} (h : Url.isContained s = true) (hb : '\\' ∉ s.toList) :
    stays ⟨s⟩ = true := by
  simp only [Url.isContained, Bool.and_eq_true] at h
  rw [stays_eq, ← splitAtChars_of_noBackslash hb]
  exact h.2

/-- A text whose segments are names is contained. -/
theorem isContained_of_segments {s : String} (h : ∀ n ∈ Path.segments ⟨s⟩, IsName n)
    (hb : '\\' ∉ s.toList) :
    Url.isContained s = true := by
  have hstays : stays ⟨s⟩ = true := by
    rw [stays, descend_of_noClimb [] (fun n hn => (h n hn).isStep) fun hup =>
      (h ".." hup).2.2.1 rfl]
    rfl
  rw [stays_eq] at hstays
  rw [Url.isContained, splitAtChars_of_noBackslash hb, hstays, Bool.and_true, decide_eq_true_eq]
  exact isRelative_of_segments h

end StaticSite.Path
