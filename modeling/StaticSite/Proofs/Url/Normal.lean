import StaticSite.Proofs.Disk.Landing

/-!
# Normal forms of URLs

The segments of a URL leave some names when they are resolved: those of the location to which they
lead from the root (`Url.kept`). Its normal form consists of these names, a slash in front if the
URL has one there, and a slash behind them if the URL has one there (`normalize_eq`). So it is a
text of its own segments (`normalize_isNormal`), and what is joined behind a URL may as well be
joined behind its normal form (`join_associates`).
-/

namespace StaticSite.Url

open StaticSite.Path

variable {u v : String}

/-! ## What segments leave -/

/-- The names that the segments of a URL leave: idle ones are dropped, and each `..` takes away the
last name that is left. -/
def kept (u : String) : List String :=
  landing [] (Path.segments ⟨u⟩)

/-- A text with a slash at its end. -/
def EndsWithSlash (u : String) : Prop :=
  u.toList.getLast? = some '/'

instance (u : String) : Decidable (EndsWithSlash u) :=
  inferInstanceAs (Decidable (u.toList.getLast? = some '/'))

theorem landing_map_ofList (stack segments : List (List Char)) :
    landing (stack.reverse.map String.ofList) (segments.map String.ofList) =
      (segments.foldl resolveSegment stack).reverse.map String.ofList := by
  induction segments generalizing stack with
  | nil => rfl
  | cons s rest ih =>
    have hup : String.ofList s = ".." ↔ s = ['.', '.'] := ofList_eq_iff
    rw [List.map_cons, landing, List.foldl_cons, resolveSegment]
    by_cases hs : s = [] ∨ s = ['.']
    · rw [if_pos (isIdle_ofList.2 hs), if_pos hs, ih]
    · rw [if_neg (mt isIdle_ofList.1 hs), if_neg hs]
      by_cases hu : s = ['.', '.']
      · rw [if_pos (hup.2 hu), if_pos hu, ← ih, ← List.dropLast_reverse, List.map_dropLast]
      · rw [if_neg (mt hup.1 hu), if_neg hu, ← ih, List.reverse_cons, List.map_append,
          List.map_singleton]

theorem kept_eq (u : String) : kept u = (resolve (segments u.toList)).map String.ofList :=
  landing_map_ofList [] (segments u.toList)

theorem isName_of_mem_landing {here : Location} {segments : List String}
    (hs : ∀ s ∈ segments, '/' ∉ s.toList)
    {n : String} (h : n ∈ landing here segments) : n ∈ here ∨ IsName n := by
  induction segments generalizing here with
  | nil => exact .inl h
  | cons s rest ih =>
    have hrest : ∀ x ∈ rest, '/' ∉ x.toList := fun x hx => hs x (List.mem_cons_of_mem s hx)
    rw [landing] at h
    split at h
    · exact ih hrest h
    · rename_i hidle
      split at h
      · exact (ih hrest h).imp_left fun hm => List.dropLast_subset _ hm
      · rename_i hup
        rcases ih hrest h with hm | hn
        · rcases List.mem_append.1 hm with hm | hm
          · exact .inl hm
          · obtain ⟨hempty, hdot⟩ := isIdle_eq_false_iff.1 (Bool.eq_false_iff.2 hidle)
            exact .inr (List.mem_singleton.1 hm ▸ ⟨hempty, hdot, hup, hs s List.mem_cons_self⟩)
        · exact .inr hn

theorem isName_of_mem_kept {n : String} (h : n ∈ kept u) : IsName n :=
  (isName_of_mem_landing (fun _ hs => noSlash_of_mem_segments hs) h).resolve_left List.not_mem_nil

theorem landing_of_isName (here : Location) {names : List String} (h : ∀ n ∈ names, IsName n) :
    landing here names = here ++ names :=
  landing_of_noClimb here (fun n hn => (h n hn).isStep) fun hup => (h ".." hup).2.2.1 rfl

/-- What is left behind a slash goes on from what is left before it. -/
theorem kept_append_slash (u v : String) :
    kept (u ++ "/" ++ v) = landing (kept u) (Path.segments ⟨v⟩) := by
  rw [kept, segments_append_slash, landing_append]
  rfl

/-! ## Slashes at the ends of a text -/

theorem isAbsolute_append (hu : u ≠ "") : isAbsolute ⟨u ++ v⟩ = isAbsolute ⟨u⟩ := by
  have hne : u.toList ≠ [] := fun he => hu (String.toList_inj.1 he)
  rw [isAbsolute, isAbsolute, String.toList_append, List.head?_append_of_ne_nil _ hne]

theorem endsWithSlash_append (hv : v ≠ "") : EndsWithSlash (u ++ v) ↔ EndsWithSlash v := by
  have hne : v.toList ≠ [] := fun he => hv (String.toList_inj.1 he)
  rw [EndsWithSlash, EndsWithSlash, String.toList_append, List.getLast?_append_of_ne_nil _ hne]

/-! ## Normal forms -/

/-- The slash in front of a normal form. -/
def front (u : String) : String :=
  if isAbsolute ⟨u⟩ then "/" else ""

/-- The slash at the end of a normal form. -/
def back (u : String) : String :=
  if EndsWithSlash u ∧ kept u ≠ [] then "/" else ""

theorem normalize_eq (u : String) :
    normalize u = front u ++ "/".intercalate (kept u) ++ back u := by
  have hmiddle : (['/'].intercalate (resolve (segments u.toList))) =
      ("/".intercalate (kept u)).toList := by
    rw [String.toList_intercalate, kept_eq, List.map_map]
    simp [Function.comp_def]
  have hkept : resolve (segments u.toList) ≠ [] ↔ kept u ≠ [] := by
    rw [kept_eq, ne_eq, ne_eq, List.map_eq_nil_iff]
  have hfront : (if u.toList.head? = some '/' then ['/'] else []) = (front u).toList := by
    simp only [front, isAbsolute, beq_iff_eq]
    split <;> rfl
  have hback :
      (if u.toList.getLast? = some '/' ∧ resolve (segments u.toList) ≠ [] then ['/'] else []) =
      (back u).toList := by
    by_cases hends : EndsWithSlash u ∧ kept u ≠ []
    · rw [back, if_pos hends, if_pos ⟨hends.1, hkept.2 hends.2⟩]
      rfl
    · rw [back, if_neg hends, if_neg fun he => hends ⟨he.1, hkept.1 he.2⟩]
      rfl
  rw [normalize, normalizeChars, hmiddle, hfront,
    hback, ← String.toList_append, ← String.toList_append, String.ofList_toList]

/-- A normal form is given by its slashes and names. -/
theorem normalize_congr (hfront : isAbsolute ⟨u⟩ = isAbsolute ⟨v⟩) (hkept : kept u = kept v)
    (hback : kept u ≠ [] → (EndsWithSlash u ↔ EndsWithSlash v)) : normalize u = normalize v := by
  have hends : (EndsWithSlash u ∧ kept u ≠ []) ↔ (EndsWithSlash v ∧ kept v ≠ []) :=
    hkept ▸ and_congr_left hback
  rw [normalize_eq, normalize_eq, front, front, back, back, hfront, if_congr hends rfl rfl, hkept]

/-- The normal form of a URL that leaves no names is a slash or nothing. -/
theorem normalize_of_kept_nil (h : kept u = []) : normalize u = front u := by
  rw [normalize_eq, h, back, if_neg fun hends => hends.2 h, String.intercalate_nil,
    String.append_empty, String.append_empty]

theorem segments_kept (h : kept u ≠ []) : Path.segments ⟨"/".intercalate (kept u)⟩ = kept u :=
  segments_intercalate (fun _ hn => (isName_of_mem_kept hn).2.2.2) h

theorem segments_normalize (h : kept u ≠ []) : Path.segments ⟨normalize u⟩ =
    (if isAbsolute ⟨u⟩ then [""] else []) ++ kept u ++ if EndsWithSlash u then [""] else [] := by
  have hfront : Path.segments ⟨front u ++ "/".intercalate (kept u)⟩ =
      (if isAbsolute ⟨u⟩ then [""] else []) ++ kept u := by
    unfold front
    split
    · rw [segments_slash_append, segments_kept h, List.singleton_append]
    · rw [String.empty_append, segments_kept h, List.nil_append]
  rw [normalize_eq, back]
  by_cases hends : EndsWithSlash u
  · rw [if_pos ⟨hends, h⟩, if_pos hends, segments_append_end, hfront]
  · rw [if_neg fun hb => hends hb.1, if_neg hends, String.append_empty, hfront, List.append_nil]

theorem intercalate_kept_ne_empty (h : kept u ≠ []) : "/".intercalate (kept u) ≠ "" := by
  intro he
  have hnames := segments_kept h
  rw [he, segments_of_noSlash (by decide)] at hnames
  exact (isName_of_mem_kept (hnames ▸ List.mem_cons_self)).1 rfl

theorem isAbsolute_normalize (u : String) : isAbsolute ⟨normalize u⟩ = isAbsolute ⟨u⟩ := by
  by_cases h : kept u = []
  · rw [normalize_of_kept_nil h, front]
    split
    · rename_i ha
      exact ha.symm
    · rename_i ha
      rw [Bool.eq_false_iff.2 ha]
      rfl
  · rw [normalize_eq, front]
    split
    · rename_i ha
      rw [String.append_assoc, isAbsolute_append (by decide), ha]
      rfl
    · rename_i ha
      rw [String.empty_append, isAbsolute_append (intercalate_kept_ne_empty h),
        Bool.eq_false_iff.2 ha]
      exact isAbsolute_of_isRelative
        (isRelative_intercalate fun n hn => (isName_of_mem_kept hn).isStep)

theorem kept_normalize (u : String) : kept (normalize u) = kept u := by
  by_cases h : kept u = []
  · rw [normalize_of_kept_nil h, h, front]
    split <;> decide
  · have hidle (b : Prop) [Decidable b] (here : Location) :
        landing here (if b then [""] else []) = here := by
      split <;> rfl
    rw [kept, segments_normalize h, landing_append, landing_append, hidle, hidle,
      landing_of_isName [] fun n hn => isName_of_mem_kept hn, List.nil_append]

theorem not_endsWithSlash_intercalate {names : List String} (h : ∀ n ∈ names, IsName n) :
    ¬ EndsWithSlash ("/".intercalate names) := by
  rcases names.eq_nil_or_concat' with rfl | ⟨init, n, rfl⟩
  · decide
  · have hn := h n (by simp)
    have hend : ¬ EndsWithSlash n := fun he => hn.2.2.2 (List.mem_of_getLast? he)
    by_cases hi : init = []
    · rw [hi, List.nil_append, String.intercalate_singleton]
      exact hend
    · rw [String.intercalate_append_of_ne_nil hi (by simp), String.intercalate_singleton,
        endsWithSlash_append hn.1]
      exact hend

/-- A slash ends a normal form if it ends the URL behind a name that is left, or if it is all that
is left. -/
theorem endsWithSlash_normalize (u : String) : EndsWithSlash (normalize u) ↔
    EndsWithSlash u ∧ kept u ≠ [] ∨ isAbsolute ⟨u⟩ = true ∧ kept u = [] := by
  by_cases h : kept u = []
  · rw [normalize_of_kept_nil h, front]
    by_cases ha : isAbsolute ⟨u⟩ = true
    · rw [if_pos ha]
      exact iff_of_true (by decide) (.inr ⟨ha, h⟩)
    · rw [if_neg ha]
      exact iff_of_false (by decide) fun hor => hor.elim (fun he => he.2 h) fun he => ha he.1
  · have hmiddle := not_endsWithSlash_intercalate fun n hn => isName_of_mem_kept (u := u) hn
    rw [normalize_eq, back]
    by_cases hends : EndsWithSlash u
    · rw [if_pos ⟨hends, h⟩, endsWithSlash_append (by decide)]
      exact iff_of_true (by decide) (.inl ⟨hends, h⟩)
    · rw [if_neg fun hb => hends hb.1, String.append_empty,
        endsWithSlash_append (intercalate_kept_ne_empty h)]
      exact iff_of_false hmiddle fun hor => hor.elim (fun he => hends he.1) fun he => h he.2

theorem normalize_normalize (u : String) : normalize (normalize u) = normalize u := by
  refine normalize_congr (isAbsolute_normalize u) (kept_normalize u) fun h => ?_
  rw [kept_normalize] at h
  rw [endsWithSlash_normalize]
  exact ⟨fun hor => hor.elim And.left fun he => absurd he.2 h, fun he => .inl ⟨he, h⟩⟩

/-- No segment of a URL is `.` or `..`, and between its first and its last segment none is empty. -/
structure IsNormal (u : String) : Prop where
  dots : ∀ s ∈ Path.segments ⟨u⟩, s ≠ "." ∧ s ≠ ".."
  inner : "" ∉ (Path.segments ⟨u⟩).tail.dropLast

theorem isNormal_front (u : String) : IsNormal (front u) := by
  unfold front
  split
  · exact ⟨by decide, by decide⟩
  · exact ⟨by decide, by decide⟩

theorem isNormal_normalize (u : String) : IsNormal (normalize u) := by
  by_cases h : kept u = []
  · rw [normalize_of_kept_nil h]
    exact isNormal_front u
  · have hnames : ∀ n ∈ kept u, n ≠ "" := fun n hn => (isName_of_mem_kept hn).1
    refine ⟨fun s hs => ?_, fun hinner => ?_⟩
    · rw [segments_normalize h, List.mem_append, List.mem_append] at hs
      rcases hs with (hs | hs) | hs
      · split at hs
        · exact List.mem_singleton.1 hs ▸ by decide
        · cases hs
      · exact ⟨(isName_of_mem_kept hs).2.1, (isName_of_mem_kept hs).2.2.1⟩
      · split at hs
        · exact List.mem_singleton.1 hs ▸ by decide
        · cases hs
    · obtain ⟨n, rest, hk⟩ := List.exists_cons_of_ne_nil h
      rw [segments_normalize h] at hinner
      -- the slashes at the ends make the first and the last segment; what is between is left
      have hmem : "" ∈ kept u := by
        by_cases ha : isAbsolute ⟨u⟩ = true <;> by_cases hends : EndsWithSlash u
        · rwa [if_pos ha, if_pos hends, List.append_assoc, List.singleton_append, List.tail_cons,
            List.dropLast_concat] at hinner
        · rw [if_pos ha, if_neg hends, List.append_nil, List.singleton_append,
            List.tail_cons] at hinner
          exact List.dropLast_subset _ hinner
        · rw [if_neg ha, if_pos hends, List.nil_append, hk, List.cons_append, List.tail_cons,
            List.dropLast_concat] at hinner
          exact hk ▸ List.mem_cons_of_mem n hinner
        · rw [if_neg ha, if_neg hends, List.nil_append, List.append_nil] at hinner
          exact List.mem_of_mem_tail (List.dropLast_subset _ hinner)
      exact hnames "" hmem rfl

theorem breadCrumb_eq (u : String) : breadCrumb u = (Path.segments ⟨u⟩).filter (· ≠ "") := by
  rw [breadCrumb, Path.segments, List.filter_map]
  congr 1
  refine List.filter_congr fun s _ => ?_
  simp [ofList_eq_iff]

theorem breadCrumb_normalize (u : String) : breadCrumb (normalize u) = kept u := by
  have hidle (b : Prop) [Decidable b] : (if b then [""] else []).filter (· ≠ "") = [] := by
    split <;> rfl
  rw [breadCrumb_eq]
  by_cases h : kept u = []
  · rw [normalize_of_kept_nil h, h, front]
    split <;> decide
  · rw [segments_normalize h, List.filter_append, List.filter_append, hidle, hidle, List.nil_append,
      List.append_nil]
    exact List.filter_eq_self.2 fun n hn => decide_eq_true (isName_of_mem_kept hn).1

/-- The normal form of a URL is normal, is its own normal form, and keeps the slash in front of the
URL and the names that its segments leave. The slash at the end stays behind a name; where nothing
is left, the slash in front is at the end, too. -/
theorem normalize_isNormal (u : String) :
    normalize (normalize u) = normalize u ∧ breadCrumb (normalize u) = kept u ∧
    IsNormal (normalize u) ∧
      (isAbsolute ⟨normalize u⟩ = true ↔ isAbsolute ⟨u⟩ = true) ∧
      (EndsWithSlash (normalize u) ↔
        EndsWithSlash u ∧ kept u ≠ [] ∨ isAbsolute ⟨u⟩ = true ∧ kept u = []) :=
  ⟨normalize_normalize u, breadCrumb_normalize u,
    isNormal_normalize u, by rw [isAbsolute_normalize], endsWithSlash_normalize u⟩

/-- The slash that is left of `/..` ends the normal form, but not the URL. -/
theorem endsWithSlash_normalize_root_up : ¬ ∀ u : String, EndsWithSlash (normalize u) ↔
    EndsWithSlash u ∧ (kept u ≠ [] ∨ isAbsolute ⟨u⟩ = true) := by
  intro claim
  have hends : EndsWithSlash (normalize "/..") := by decide
  exact absurd ((claim "/..").1 hends).1 (by decide)

/-! ## Joining -/

theorem isAbsolute_append_slash (hu : u ≠ "") (v : String) :
    isAbsolute ⟨u ++ "/" ++ v⟩ = isAbsolute ⟨u⟩ := by
  rw [String.append_assoc, isAbsolute_append hu]

theorem endsWithSlash_append_slash (u v : String) :
    EndsWithSlash (u ++ "/" ++ v) ↔ v = "" ∨ EndsWithSlash v := by
  by_cases hv : v = ""
  · rw [hv, String.append_empty, endsWithSlash_append (by decide)]
    exact iff_of_true (by decide) (.inl rfl)
  · rw [endsWithSlash_append hv, or_iff_right hv]

theorem join_of_ne_empty (hu : u ≠ "") (v : String) : join u v = normalize (u ++ "/" ++ v) := by
  rw [join, if_neg hu]

/-- Behind a URL that leaves nothing, a relative one has its own normal form. -/
theorem normalize_append_slash_of_kept_nil (hu : u ≠ "") (ha : isAbsolute ⟨u⟩ = false)
    (hk : kept u = []) (hv : IsRelative v) : normalize (u ++ "/" ++ v) = normalize v := by
  have hkept : kept (u ++ "/" ++ v) = kept v := by
    rw [kept_append_slash, hk, kept]
  refine normalize_congr ?_ hkept fun hne => ?_
  · rw [isAbsolute_append_slash hu, ha, isAbsolute_of_isRelative hv]
  · have hv : v ≠ "" := by
      rintro rfl
      exact (hkept ▸ hne) (by decide)
    rw [endsWithSlash_append_slash, or_iff_right hv]

theorem join_normalize (u : String) (hv : IsRelative v) : join (normalize u) v = join u v := by
  by_cases hu : u = ""
  · rw [hu]
    congr 1
  rw [join_of_ne_empty hu]
  by_cases hn : normalize u = ""
  · have ha : isAbsolute ⟨u⟩ = false := by
      rw [← isAbsolute_normalize, hn]
      rfl
    have hk : kept u = [] := by
      rw [← kept_normalize, hn]
      decide
    rw [hn, join, if_pos rfl, normalize_append_slash_of_kept_nil hu ha hk hv]
  · rw [join_of_ne_empty hn]
    refine normalize_congr ?_ ?_ fun _ => ?_
    · rw [isAbsolute_append_slash hn, isAbsolute_append_slash hu, isAbsolute_normalize]
    · rw [kept_append_slash, kept_append_slash, kept_normalize]
    · rw [endsWithSlash_append_slash, endsWithSlash_append_slash]

/-- What is joined behind a URL may be joined behind its normal form, and what is joined one after
another may be joined at once. -/
theorem join_associates :
    (∀ u v : String, IsRelative v → join (normalize u) v = join u v) ∧
      ∀ u v w : String, v ≠ "" → IsRelative w → join (join u v) w = join u (v ++ "/" ++ w) := by
  refine ⟨fun u v hv => join_normalize u hv, fun u v w hv hw => ?_⟩
  by_cases hu : u = ""
  · have hjoin (v : String) : join "" v = normalize v := if_pos rfl
    rw [hu, hjoin, join_normalize v hw, join_of_ne_empty hv, hjoin]
  · have hne : u ++ "/" ++ v ≠ "" := fun he => hv (String.append_eq_empty_iff.1 he).2
    rw [join_of_ne_empty hu, join_normalize _ hw, join_of_ne_empty hne, join_of_ne_empty hu]
    simp only [String.append_assoc]

/-- Climbs past the start of the first URL, which collapses. -/
theorem join_associates_climbing :
    (IsRelative "../b" ∧ join (normalize "a/..") "../b" = join "a/.." "../b") ∧
      "../b" ≠ "" ∧ IsRelative "../../c/" ∧
        join (join "a/.." "../b") "../../c/" = join "a/.." ("../b" ++ "/" ++ "../../c/") ∧
        join (join "a/.." "../b") "../../c/" = "c/" :=
  ⟨⟨by decide, join_associates.1 "a/.." "../b" (by decide)⟩, by decide, by decide,
    join_associates.2 "a/.." "../b" "../../c/" (by decide) (by decide), by decide⟩

end StaticSite.Url
