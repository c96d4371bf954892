import Mathlib.Data.List.Basic
import StaticSite.Disk.Resolve

/-!
# The names in a path

`Path.steps` are the segments of a path that lead somewhere. Joining appends them (`steps_join`),
the paths above a path have fewer of them (`isAbove_of_mem_withAncestors`, `isAbove_of_parent`), and
a path is made of its components again (`components_ofComponents`).
-/

namespace StaticSite

/-! ## Splitting at slashes -/

namespace Url

variable {p : Char → Bool}

theorem splitAtChars_ne_nil (s : List Char) : splitAtChars p s ≠ [] := by
  cases s with
  | nil => simp [splitAtChars]
  | cons c s =>
    unfold splitAtChars
    split
    · simp
    · split <;> simp

theorem splitAtChars_cons_of_not {c : Char} (h : p c = false) (s : List Char) :
    ∃ piece rest, splitAtChars p s = piece :: rest ∧
      splitAtChars p (c :: s) = (c :: piece) :: rest := by
  obtain ⟨piece, rest, hs⟩ := List.exists_cons_of_ne_nil (splitAtChars_ne_nil (p := p) s)
  refine ⟨piece, rest, hs, ?_⟩
  rw [splitAtChars, h, hs]
  rfl

theorem splitAtChars_append {sep : Char} (h : p sep = true) (a b : List Char) :
    splitAtChars p (a ++ sep :: b) = splitAtChars p a ++ splitAtChars p b := by
  induction a with
  | nil => simp [splitAtChars, h]
  | cons c a ih =>
    by_cases hc : p c = true
    · simp [splitAtChars, hc, ih]
    · rw [Bool.not_eq_true] at hc
      obtain ⟨piece, rest, ha, hca⟩ := splitAtChars_cons_of_not hc a
      have hab : splitAtChars p (a ++ sep :: b) = piece :: (rest ++ splitAtChars p b) := by
        rw [ih, ha, List.cons_append]
      rw [hca, List.cons_append, splitAtChars, hc, hab]
      rfl

theorem splitAtChars_of_none {s : List Char} (h : ∀ c ∈ s, p c = false) :
    splitAtChars p s = [s] := by
  induction s with
  | nil => rfl
  | cons c s ih =>
    obtain ⟨piece, rest, hs, hcs⟩ := splitAtChars_cons_of_not (h c List.mem_cons_self) s
    rw [ih fun x hx => h x (List.mem_cons_of_mem c hx)] at hs
    obtain ⟨rfl, rfl⟩ := List.cons.inj hs
    exact hcs

theorem splitAtChars_append_of_none (s : List Char) {t : List Char} (h : ∀ c ∈ t, p c = false) :
    ∃ init last, splitAtChars p s = init ++ [last] ∧
      splitAtChars p (s ++ t) = init ++ [last ++ t] := by
  induction s with
  | nil => exact ⟨[], [], rfl, splitAtChars_of_none h⟩
  | cons c s ih =>
    obtain ⟨init, last, hs, hst⟩ := ih
    rw [List.cons_append, splitAtChars, splitAtChars]
    by_cases hc : p c = true
    · exact ⟨[] :: init, last, by rw [if_pos hc, hs]; rfl, by rw [if_pos hc, hst]; rfl⟩
    · rw [if_neg hc, if_neg hc, hs, hst]
      cases init with
      | nil => exact ⟨[], c :: last, rfl, rfl⟩
      | cons first more => exact ⟨(c :: first) :: more, last, rfl, rfl⟩

theorem not_of_mem_splitAtChars {s piece : List Char} (h : piece ∈ splitAtChars p s) :
    ∀ c ∈ piece, p c = false := by
  induction s generalizing piece with
  | nil =>
    obtain rfl := List.mem_singleton.1 h
    simp
  | cons x s ih =>
    by_cases hx : p x = true
    · rw [splitAtChars, if_pos hx] at h
      rcases List.mem_cons.1 h with rfl | h
      · simp
      · exact ih h
    · rw [Bool.not_eq_true] at hx
      obtain ⟨first, rest, hs, hxs⟩ := splitAtChars_cons_of_not hx s
      rw [hxs] at h
      rw [hs] at ih
      rcases List.mem_cons.1 h with rfl | h
      · intro c hc
        rcases List.mem_cons.1 hc with rfl | hc
        · exact hx
        · exact ih List.mem_cons_self c hc
      · exact ih (List.mem_cons_of_mem first h)

theorem mem_of_mem_splitAtChars {s piece : List Char} (h : piece ∈ splitAtChars p s) {c : Char}
    (hc : c ∈ piece) : c ∈ s := by
  induction s generalizing piece with
  | nil =>
    obtain rfl := List.mem_singleton.1 h
    exact hc
  | cons x s ih =>
    by_cases hx : p x = true
    · rw [splitAtChars, if_pos hx] at h
      rcases List.mem_cons.1 h with rfl | h
      · cases hc
      · exact List.mem_cons_of_mem x (ih h hc)
    · rw [Bool.not_eq_true] at hx
      obtain ⟨first, rest, hs, hxs⟩ := splitAtChars_cons_of_not hx s
      rw [hxs] at h
      rw [hs] at ih
      rcases List.mem_cons.1 h with rfl | h
      · rcases List.mem_cons.1 hc with rfl | hc
        · exact List.mem_cons_self
        · exact List.mem_cons_of_mem x (ih List.mem_cons_self hc)
      · exact List.mem_cons_of_mem x (ih (List.mem_cons_of_mem first h) hc)

theorem exists_mem_splitAtChars {s : List Char} {c : Char} (h : c ∈ s) :
    p c = true ∨ ∃ piece ∈ splitAtChars p s, c ∈ piece := by
  induction s with
  | nil => cases h
  | cons x s ih =>
    by_cases hx : p x = true
    · rw [splitAtChars, if_pos hx]
      rcases List.mem_cons.1 h with rfl | h
      · exact .inl hx
      · exact (ih h).imp_right fun ⟨piece, hp, hc⟩ => ⟨piece, List.mem_cons_of_mem _ hp, hc⟩
    · obtain ⟨first, rest, hs, hxs⟩ := splitAtChars_cons_of_not (by simpa using hx) s
      rw [hs] at ih
      rw [hxs]
      rcases List.mem_cons.1 h with rfl | h
      · exact .inr ⟨_, List.mem_cons_self, List.mem_cons_self⟩
      · refine (ih h).imp_right fun ⟨piece, hp, hc⟩ => ?_
        rcases List.mem_cons.1 hp with rfl | hp
        · exact ⟨_, List.mem_cons_self, List.mem_cons_of_mem x hc⟩
        · exact ⟨piece, List.mem_cons_of_mem _ hp, hc⟩

/-- Nothing is lost where a text is split at one character. -/
theorem eq_of_splitAtChars_eq {sep : Char} (hp : ∀ c, p c = true → c = sep) {s t : List Char}
    (h : splitAtChars p s = splitAtChars p t) : s = t := by
  induction s generalizing t with
  | nil =>
    cases t with
    | nil => rfl
    | cons y t =>
      by_cases hy : p y = true
      · rw [splitAtChars, splitAtChars, if_pos hy] at h
        exact absurd (List.cons.inj h).2.symm (splitAtChars_ne_nil t)
      · obtain ⟨piece, rest, -, hyt⟩ := splitAtChars_cons_of_not (by simpa using hy) t
        rw [hyt] at h
        cases h
  | cons x s ih =>
    by_cases hx : p x = true
    · rw [splitAtChars, if_pos hx] at h
      cases t with
      | nil => exact absurd (List.cons.inj h).2 (splitAtChars_ne_nil s)
      | cons y t =>
        by_cases hy : p y = true
        · rw [splitAtChars, if_pos hy] at h
          rw [hp x hx, hp y hy, ih (List.cons.inj h).2]
        · obtain ⟨piece, rest, -, hyt⟩ := splitAtChars_cons_of_not (by simpa using hy) t
          rw [hyt] at h
          cases h
    · obtain ⟨piece, rest, hs, hxs⟩ := splitAtChars_cons_of_not (by simpa using hx) s
      rw [hxs] at h
      cases t with
      | nil => cases h
      | cons y t =>
        by_cases hy : p y = true
        · rw [splitAtChars, if_pos hy] at h
          cases h
        · obtain ⟨piece', rest', ht, hyt⟩ := splitAtChars_cons_of_not (by simpa using hy) t
          rw [hyt] at h
          cases h
          rw [ih (hs.trans ht.symm)]

end Url

namespace Path

/-- A text that can be the name of an entry. -/
def IsName (s : String) : Prop :=
  s ≠ "" ∧ s ≠ "." ∧ s ≠ ".." ∧ '/' ∉ s.toList

instance (s : String) : Decidable (IsName s) :=
  inferInstanceAs (Decidable (s ≠ "" ∧ s ≠ "." ∧ s ≠ ".." ∧ '/' ∉ s.toList))

theorem segments_append_slash (a b : String) :
    segments ⟨a ++ "/" ++ b⟩ = segments ⟨a⟩ ++ segments ⟨b⟩ := by
  have h : (a ++ "/" ++ b).toList = a.toList ++ '/' :: b.toList := by simp
  unfold segments Url.segments
  rw [h, Url.splitAtChars_append rfl, List.map_append]

theorem segments_of_noSlash {s : String} (h : '/' ∉ s.toList) : segments ⟨s⟩ = [s] := by
  have hs : Url.splitAtChars Url.isSlash s.toList = [s.toList] :=
    Url.splitAtChars_of_none fun c hc => by
      simpa [Url.isSlash] using fun he : c = '/' => h (he ▸ hc)
  simp [segments, Url.segments, hs]

theorem segments_slash_append (s : String) : segments ⟨"/" ++ s⟩ = "" :: segments ⟨s⟩ := by
  have := segments_append_slash "" s
  rwa [String.empty_append, segments_of_noSlash (s := "") (by decide)] at this

theorem segments_append_end (s : String) : segments ⟨s ++ "/"⟩ = segments ⟨s⟩ ++ [""] := by
  have := segments_append_slash s ""
  rwa [String.append_empty, segments_of_noSlash (s := "") (by decide)] at this

theorem eq_of_segments_eq {s t : String} (h : segments ⟨s⟩ = segments ⟨t⟩) : s = t := by
  have hinjective : Function.Injective String.ofList := fun a b he => by
    simpa using congrArg String.toList he
  have hslash : ∀ c, Url.isSlash c = true → c = '/' := fun c hc => by simpa [Url.isSlash] using hc
  exact String.toList_inj.1
    (Url.eq_of_splitAtChars_eq hslash (List.map_injective_iff.2 hinjective h))

/-- A text without slashes goes behind the last segment. -/
theorem segments_append (s : String) {t : String} (ht : '/' ∉ t.toList) :
    ∃ init last, segments ⟨s⟩ = init ++ [last] ∧ segments ⟨s ++ t⟩ = init ++ [last ++ t] := by
  obtain ⟨init, last, hs, hst⟩ := Url.splitAtChars_append_of_none (p := Url.isSlash) s.toList
    (t := t.toList) fun c hc => by simpa [Url.isSlash] using fun he : c = '/' => ht (he ▸ hc)
  refine ⟨init.map String.ofList, String.ofList last, ?_, ?_⟩
  · rw [segments, Url.segments, hs, List.map_append, List.map_singleton]
  · rw [segments, Url.segments, String.toList_append, hst, List.map_append, List.map_singleton,
      String.ofList_append, String.ofList_toList]

theorem noSlash_of_mem_segments {p : Path} {s : String} (h : s ∈ p.segments) : '/' ∉ s.toList := by
  obtain ⟨piece, hp, rfl⟩ := List.mem_map.1 h
  intro hs
  rw [String.toList_ofList] at hs
  simpa [Url.isSlash] using Url.not_of_mem_splitAtChars hp '/' hs

theorem mem_text_of_mem_segments {p : Path} {s : String} (h : s ∈ p.segments) {c : Char}
    (hc : c ∈ s.toList) : c ∈ p.text.toList := by
  obtain ⟨piece, hp, rfl⟩ := List.mem_map.1 h
  rw [String.toList_ofList] at hc
  exact Url.mem_of_mem_splitAtChars hp hc

/-- The characters of a path are slashes and those of its segments. -/
theorem mem_segments_of_mem_text {p : Path} {c : Char} (h : c ∈ p.text.toList) :
    c = '/' ∨ ∃ s ∈ p.segments, c ∈ s.toList := by
  refine (Url.exists_mem_splitAtChars (p := Url.isSlash) h).imp (fun hc => ?_)
    fun ⟨piece, hp, hc⟩ => ?_
  · simpa [Url.isSlash] using hc
  · exact ⟨String.ofList piece, List.mem_map.2 ⟨piece, hp, rfl⟩, by rwa [String.toList_ofList]⟩

theorem segments_intercalate {names : List String} (h : ∀ n ∈ names, '/' ∉ n.toList)
    (hne : names ≠ []) : segments ⟨"/".intercalate names⟩ = names := by
  induction names with
  | nil => exact absurd rfl hne
  | cons n rest ih =>
    have hn := h n List.mem_cons_self
    cases rest with
    | nil =>
      rw [String.intercalate_singleton]
      exact segments_of_noSlash hn
    | cons m more =>
      have hrest := ih (fun x hx => h x (List.mem_cons_of_mem n hx)) (by simp)
      rw [String.intercalate_cons_cons, segments_append_slash, hrest, segments_of_noSlash hn]
      rfl

/-! ## Joining -/

/-- The segments that lead somewhere. -/
def steps (p : Path) : List String :=
  p.segments.filter (!isIdle ·)

theorem isIdle_eq_false_iff {s : String} : isIdle s = false ↔ s ≠ "" ∧ s ≠ "." := by
  simp [isIdle]

theorem isIdle_of_mem_steps {p : Path} {s : String} (h : s ∈ p.steps) : isIdle s = false := by
  simpa using (List.mem_filter.1 h).2

/-- A text that is no path from the root. -/
def IsRelative (s : String) : Prop :=
  s.toList.head? ≠ some '/'

instance (s : String) : Decidable (IsRelative s) :=
  inferInstanceAs (Decidable (s.toList.head? ≠ some '/'))

theorem IsRelative.append {s t : String} (hs : IsRelative s) (ht : IsRelative t) :
    IsRelative (s ++ t) := by
  unfold IsRelative at *
  rw [String.toList_append]
  cases h : s.toList with
  | nil => exact ht
  | cons c rest => simpa [h] using hs

theorem isRelative_of_segments {t : String} (h : ∀ n ∈ segments ⟨t⟩, IsName n) : IsRelative t := by
  intro hhead
  obtain ⟨rest, ht⟩ := List.head?_eq_some_iff.1 hhead
  have hempty : "" ∈ segments ⟨t⟩ := by
    simp [segments, Url.segments, ht, Url.splitAtChars, Url.isSlash]
  exact (h "" hempty).1 rfl

theorem isAbsolute_of_isRelative {s : String} (h : IsRelative s) : isAbsolute ⟨s⟩ = false := by
  simpa [isAbsolute, IsRelative] using h

theorem exists_of_endsWithSlash {s : String} (h : s.toList.getLast? = some '/') :
    ∃ a : String, s = a ++ "/" := by
  obtain ⟨init, hs⟩ := List.getLast?_eq_some_iff.1 h
  exact ⟨String.ofList init, String.toList_inj.1 (by simp [hs])⟩

theorem getLast?_segments_of_endsWithSlash {p : Path} (h : p.text.toList.getLast? = some '/') :
    p.segments.getLast? = some "" := by
  obtain ⟨a, ha⟩ := exists_of_endsWithSlash h
  obtain ⟨text⟩ := p
  obtain rfl : text = a ++ "/" := ha
  rw [segments_append_end, List.getLast?_concat]

/-- How a relative text is put behind a path. -/
theorem join_cases (p : Path) {t : String} (ht : IsRelative t) :
    (p.text = "" ∧ p.join t = ⟨t⟩) ∨
      (∃ a, p.text = a ++ "/" ∧ p.join t = ⟨a ++ "/" ++ t⟩) ∨
      (p.text ≠ "" ∧ p.join t = ⟨p.text ++ "/" ++ t⟩) := by
  unfold join
  split
  · rename_i h
    exact absurd h ht
  · rename_i h _
    exact .inl ⟨String.toList_inj.1 (List.getLast?_eq_none_iff.1 h), rfl⟩
  · rename_i h _
    obtain ⟨a, ha⟩ := exists_of_endsWithSlash h
    exact .inr (.inl ⟨a, ha, by rw [ha]⟩)
  · rename_i h _
    refine .inr (.inr ⟨fun he => ?_, rfl⟩)
    rw [he] at h
    cases h

theorem steps_join (p : Path) {t : String} (ht : IsRelative t) :
    (p.join t).steps = p.steps ++ steps ⟨t⟩ := by
  have empty : segments ⟨""⟩ = [""] := segments_of_noSlash (by simp)
  unfold steps
  rcases join_cases p ht with ⟨hp, hj⟩ | ⟨a, hp, hj⟩ | ⟨hp, hj⟩
  · obtain ⟨text⟩ := p
    obtain rfl : text = "" := hp
    rw [hj, empty]
    rfl
  · have h : p.segments = segments ⟨a⟩ ++ [""] := by
      rw [← empty, ← segments_append_slash, String.append_empty, ← hp]
    rw [hj, segments_append_slash, h, List.filter_append, List.filter_append, List.append_assoc]
    rfl
  · rw [hj, segments_append_slash, List.filter_append]

theorem isAbsolute_join (p : Path) {t : String} (ht : IsRelative t) :
    (p.join t).isAbsolute = p.isAbsolute := by
  rcases join_cases p ht with ⟨hp, hj⟩ | ⟨a, hp, hj⟩ | ⟨hp, hj⟩
  · obtain ⟨text⟩ := p
    obtain rfl : text = "" := hp
    rw [hj]
    exact isAbsolute_of_isRelative ht
  · obtain ⟨text⟩ := p
    obtain rfl : text = a ++ "/" := hp
    rw [hj]
    cases h : a.toList <;> simp [isAbsolute, h]
  · rw [hj]
    cases h : p.text.toList with
    | nil => exact absurd (String.toList_inj.1 h) hp
    | cons c rest => simp [isAbsolute, h]

/-- A text behind which a name can be put. -/
def opened (text : String) : String :=
  if text = "" ∨ text.toList.getLast? = some '/' then text else text ++ "/"

theorem opened_of_ends {text : String} (h : text = "" ∨ text.toList.getLast? = some '/') :
    opened text = text :=
  if_pos h

theorem join_eq (p : Path) {t : String} (ht : IsRelative t) : p.join t = ⟨opened p.text ++ t⟩ := by
  unfold join opened
  split
  · rename_i h
    exact absurd h ht
  · rename_i h _
    have hp : p.text = "" := String.toList_inj.1 (List.getLast?_eq_none_iff.1 h)
    rw [if_pos (.inl hp), hp, String.empty_append]
  · rename_i h _
    rw [if_pos (.inr h)]
  · rename_i hne h _
    rw [if_neg]
    rintro (hp | hp)
    · simp [hp] at h
    · exact hne (Option.some.inj (h.symm.trans hp))

theorem join_empty (p : Path) : p.join "" = ⟨opened p.text⟩ := by
  rw [join_eq p (by decide), String.append_empty]

theorem join_of_absolute (base : Path) {p : Path} (h : p.text.toList.head? = some '/') :
    base.join p.text = p := by
  unfold join
  rw [h]
  rfl

theorem opened_append (a : String) {b : String} (hb : b ≠ "") :
    opened (a ++ b) = a ++ opened b := by
  have hlast : (a ++ b).toList.getLast? = b.toList.getLast? := by
    rw [String.toList_append, List.getLast?_append_of_ne_nil _ fun he =>
      hb (String.toList_inj.1 he)]
  have hab : a ++ b ≠ "" := fun he => hb (String.append_eq_empty_iff.1 he).2
  unfold opened
  simp only [hlast, hab, hb, false_or]
  split
  · rfl
  · rw [String.append_assoc]

theorem opened_opened (a : String) : opened (opened a) = opened a := by
  by_cases h : a = "" ∨ a.toList.getLast? = some '/'
  · rw [opened_of_ends h, opened_of_ends h]
  · have hopened : opened a = a ++ "/" := if_neg h
    rw [hopened, opened_append a (by decide), opened_of_ends (by decide)]

theorem head?_opened {a : String} (ha : a ≠ "") : (opened a).toList.head? = a.toList.head? := by
  unfold opened
  split
  · rfl
  · rw [String.toList_append, List.head?_append_of_ne_nil _ fun he => ha (String.toList_inj.1 he)]

/-- What is joined behind a path goes on behind every path that this one is joined to. -/
theorem join_join (base p : Path) {n : String} (hn : IsRelative n) :
    base.join (p.join n).text = (base.join p.text).join n := by
  rw [join_eq p hn]
  by_cases he : p.text = ""
  · rw [he, opened_of_ends (.inl rfl), String.empty_append, join_eq base hn,
      join_eq base (by simp [IsRelative]), join_eq _ hn, String.append_empty, opened_opened]
  · have hhead : (opened p.text ++ n).toList.head? = p.text.toList.head? := by
      rw [← head?_opened he, String.toList_append, List.head?_append_of_ne_nil]
      exact fun hnil => he (by simpa [head?_opened he] using congrArg List.head? hnil)
    by_cases hp : IsRelative p.text
    · rw [join_eq base (by rwa [IsRelative, hhead]), join_eq base hp, join_eq _ hn,
        opened_append _ he, String.append_assoc]
    · have habs : p.text.toList.head? = some '/' := not_not.1 hp
      rw [join_of_absolute base habs, join_of_absolute base (p := ⟨_⟩) (hhead.trans habs),
        join_eq p hn]

/-- A segment that leads somewhere. -/
def IsStep (s : String) : Prop :=
  isIdle s = false ∧ '/' ∉ s.toList

theorem isStep_of_mem_steps {p : Path} {s : String} (h : s ∈ p.steps) : IsStep s :=
  ⟨isIdle_of_mem_steps h, noSlash_of_mem_segments (List.mem_filter.1 h).1⟩

theorem IsName.isStep {s : String} (h : IsName s) : IsStep s :=
  ⟨isIdle_eq_false_iff.2 ⟨h.1, h.2.1⟩, h.2.2.2⟩

theorem IsStep.isRelative {s : String} (h : IsStep s) : IsRelative s := by
  intro hs
  obtain ⟨rest, hr⟩ := List.head?_eq_some_iff.1 hs
  exact h.2 (by rw [hr]; exact List.mem_cons_self)

theorem IsStep.steps {s : String} (h : IsStep s) : Path.steps ⟨s⟩ = [s] := by
  simp [Path.steps, segments_of_noSlash h.2, h.1]

theorem steps_intercalate {names : List String} (h : ∀ n ∈ names, IsStep n) :
    steps ⟨"/".intercalate names⟩ = names := by
  by_cases hne : names = []
  · subst hne
    decide
  · rw [steps, segments_intercalate (fun n hn => (h n hn).2) hne]
    exact List.filter_eq_self.2 fun n hn => by simpa using (h n hn).1

theorem isRelative_intercalate {names : List String} (h : ∀ n ∈ names, IsStep n) :
    IsRelative ("/".intercalate names) := by
  cases names with
  | nil => simp [IsRelative]
  | cons n rest =>
    have hn := h n List.mem_cons_self
    cases rest with
    | nil =>
      rw [String.intercalate_singleton]
      exact hn.isRelative
    | cons m more =>
      cases hc : n.toList with
      | nil => exact absurd (String.toList_inj.1 hc) (isIdle_eq_false_iff.1 hn.1).1
      | cons c cs =>
        have := hn.isRelative
        rw [String.intercalate_cons_cons, IsRelative]
        simpa [IsRelative, hc] using this

/-! ## Components -/

/-- What stands before the steps of a path among its components. -/
def lead (p : Path) : List String :=
  if p.isAbsolute then ["/"] else if p.segments.head? = some "." then ["."] else []

theorem components_eq (p : Path) : p.components = p.lead ++ p.steps := by
  unfold components lead
  split
  · rfl
  · split <;> rfl

/-- The components of a path: an optional start and steps. -/
def IsLead (lead : List String) : Prop :=
  lead = ["/"] ∨ lead = ["."] ∨ lead = []

theorem isLead_lead (p : Path) : IsLead p.lead := by
  unfold lead
  split
  · exact .inl rfl
  · split
    · exact .inr (.inl rfl)
    · exact .inr (.inr rfl)

theorem lead_eq_slash_iff (p : Path) : p.lead = ["/"] ↔ p.isAbsolute = true := by
  unfold lead
  split
  · simp_all
  · split <;> simp_all

theorem ofComponents_slash (names : List String) :
    ofComponents ("/" :: names) = ⟨"" ++ "/" ++ "/".intercalate names⟩ := by
  rw [String.empty_append]
  rfl

theorem ofComponents_of_head {names : List String} (h : names.head? ≠ some "/") :
    ofComponents names = ⟨"/".intercalate names⟩ := by
  unfold ofComponents
  split
  · simp at h
  · rfl

theorem head?_of_isStep {names : List String} (h : ∀ n ∈ names, IsStep n) :
    names.head? ≠ some "/" := by
  intro hh
  exact (h "/" (List.mem_of_mem_head? hh)).2 (by decide)

theorem ofComponents_steps {lead names : List String} (hl : IsLead lead)
    (h : ∀ n ∈ names, IsStep n) :
    (ofComponents (lead ++ names)).steps = names ∧
      (ofComponents (lead ++ names)).isAbsolute = decide (lead = ["/"]) := by
  rcases hl with rfl | rfl | rfl
  · rw [List.singleton_append, ofComponents_slash]
    refine ⟨?_, by simp [isAbsolute]⟩
    rw [steps, segments_append_slash, List.filter_append]
    exact steps_intercalate h
  · rw [List.singleton_append, ofComponents_of_head (by simp)]
    cases names with
    | nil => decide
    | cons n rest =>
      rw [String.intercalate_cons_cons]
      refine ⟨?_, by simp [isAbsolute]⟩
      rw [steps, segments_append_slash, List.filter_append]
      exact steps_intercalate h
  · rw [List.nil_append, ofComponents_of_head (head?_of_isStep h)]
    exact ⟨steps_intercalate h, isAbsolute_of_isRelative (isRelative_intercalate h)⟩

theorem mem_of_mem_ofComponents {names : List String} {c : Char}
    (h : c ∈ (ofComponents names).text.toList) : c = '/' ∨ ∃ n ∈ names, c ∈ n.toList := by
  have key {names : List String} (h : c ∈ ("/".intercalate names).toList) :
      c = '/' ∨ ∃ n ∈ names, c ∈ n.toList := by
    induction names with
    | nil => cases h
    | cons n rest ih =>
      cases rest with
      | nil => exact .inr ⟨n, List.mem_cons_self, by rwa [String.intercalate_singleton] at h⟩
      | cons m more =>
        rw [String.intercalate_cons_cons, String.toList_append, String.toList_append,
          List.mem_append, List.mem_append] at h
        rcases h with (h | h) | h
        · exact .inr ⟨n, List.mem_cons_self, h⟩
        · exact .inl (List.mem_singleton.1 h)
        · exact (ih h).imp_right fun ⟨k, hk, hc⟩ => ⟨k, List.mem_cons_of_mem n hk, hc⟩
  unfold ofComponents at h
  split at h
  · rw [String.toList_append, List.mem_append] at h
    rcases h with h | h
    · exact .inl (List.mem_singleton.1 h)
    · exact (key h).imp_right fun ⟨k, hk, hc⟩ => ⟨k, List.mem_cons_of_mem _ hk, hc⟩
  · exact key h

/-- The segments of the path with some components: idle ones and the names among the components. -/
theorem segments_ofComponents {lead names : List String} (hl : IsLead lead)
    (h : ∀ n ∈ names, IsStep n) (hne : names ≠ []) :
    ∃ front, (ofComponents (lead ++ names)).segments = front ++ names ∧
      ∀ s ∈ front, isIdle s = true := by
  have hsplit : segments ⟨"/".intercalate names⟩ = names :=
    segments_intercalate (fun n hn => (h n hn).2) hne
  rcases hl with rfl | rfl | rfl
  · refine ⟨[""], ?_, by decide⟩
    rw [List.singleton_append, ofComponents_slash, segments_append_slash, hsplit]
    rfl
  · refine ⟨["."], ?_, by decide⟩
    rw [List.singleton_append, ofComponents_of_head (by simp)]
    cases names with
    | nil => exact absurd rfl hne
    | cons n rest =>
      rw [String.intercalate_cons_cons, segments_append_slash, hsplit]
      rfl
  · refine ⟨[], ?_, by simp⟩
    rw [List.nil_append, ofComponents_of_head (head?_of_isStep h), hsplit]

/-- The characters of the path above a path are those of the path, slashes and dots. -/
theorem mem_text_above {p : Path} {c : Char}
    (h : c ∈ (ofComponents p.components.dropLast).text.toList) :
    c = '/' ∨ c = '.' ∨ c ∈ p.text.toList := by
  rcases mem_of_mem_ofComponents h with hc | ⟨s, hs, hc⟩
  · exact .inl hc
  · have hs := List.dropLast_subset _ hs
    rw [components_eq, List.mem_append] at hs
    rcases hs with hs | hs
    · rcases p.isLead_lead with hl | hl | hl <;> rw [hl] at hs <;> simp at hs <;> simp_all
    · exact .inr (.inr (mem_text_of_mem_segments (List.mem_filter.1 hs).1 hc))

theorem noNul_above {p : Path} (h : '\x00' ∉ p.text.toList) :
    '\x00' ∉ (ofComponents p.components.dropLast).text.toList := fun hc => by
  rcases mem_text_above hc with hc | hc | hc
  · cases hc
  · cases hc
  · exact h hc

theorem isStep_of_prefixed {names : List String} {p : Path} (h : names <+: p.steps) :
    ∀ n ∈ names, IsStep n :=
  fun _ hn => isStep_of_mem_steps (h.subset hn)

theorem mem_initials {names init : List String} :
    init ∈ initials names ↔ init ≠ [] ∧ init <+: names := by
  induction names generalizing init with
  | nil => simp [initials]
  | cons n rest ih =>
    simp only [initials, List.mem_append, List.mem_map, List.mem_singleton, List.prefix_cons_iff,
      ih]
    constructor
    · rintro (⟨x, ⟨-, hx⟩, rfl⟩ | rfl)
      · exact ⟨by simp, .inr ⟨x, rfl, hx⟩⟩
      · exact ⟨by simp, .inr ⟨[], rfl, List.nil_prefix⟩⟩
    · rintro ⟨hne, rfl | ⟨x, rfl, hx⟩⟩
      · exact absurd rfl hne
      · by_cases hx0 : x = []
        · exact .inr (by rw [hx0])
        · exact .inl ⟨x, ⟨hx0, hx⟩, rfl⟩

/-- A path above another one, or the same. -/
def IsAbove (q p : Path) : Prop :=
  q.steps <+: p.steps ∧ q.isAbsolute = p.isAbsolute

theorem eq_lead_append {p : Path} {init : List String} (hne : init ≠ [])
    (h : init <+: p.components) :
    ∃ names, init = p.lead ++ names ∧ names <+: p.steps := by
  rw [components_eq] at h
  rcases p.isLead_lead with hl | hl | hl
  · rw [hl] at h ⊢
    obtain rfl | ⟨names, rfl, hn⟩ := List.prefix_cons_iff.1 h
    · exact absurd rfl hne
    · exact ⟨names, rfl, hn⟩
  · rw [hl] at h ⊢
    obtain rfl | ⟨names, rfl, hn⟩ := List.prefix_cons_iff.1 h
    · exact absurd rfl hne
    · exact ⟨names, rfl, hn⟩
  · rw [hl] at h ⊢
    exact ⟨init, rfl, h⟩

theorem isAbove_ofComponents {p : Path} {init : List String} (hne : init ≠ [])
    (h : init <+: p.components) : IsAbove (ofComponents init) p := by
  obtain ⟨names, rfl, hn⟩ := eq_lead_append hne h
  obtain ⟨hs, ha⟩ := ofComponents_steps p.isLead_lead (isStep_of_prefixed hn)
  refine ⟨by rwa [hs], ?_⟩
  rw [ha, Bool.eq_iff_iff, decide_eq_true_iff, lead_eq_slash_iff]

theorem IsAbove.refl (p : Path) : IsAbove p p :=
  ⟨List.prefix_rfl, rfl⟩

theorem IsAbove.trans {p q r : Path} (hpq : IsAbove p q) (hqr : IsAbove q r) : IsAbove p r :=
  ⟨hpq.1.trans hqr.1, hpq.2.trans hqr.2⟩

theorem isAbove_of_mem_withAncestors {p q : Path} (h : q ∈ p.withAncestors) : IsAbove q p := by
  unfold withAncestors at h
  split at h
  · cases h
  · rcases List.mem_cons.1 h with rfl | h
    · exact .refl q
    · obtain ⟨init, hi, rfl⟩ := List.mem_map.1 h
      obtain ⟨hne, hi⟩ := mem_initials.1 hi
      exact isAbove_ofComponents hne (hi.trans (List.dropLast_prefix _))

theorem ofComponents_nil : ofComponents [] = ⟨""⟩ := rfl

theorem isAbove_of_parent {p q : Path} (h : p.parent? = some q) : IsAbove q p := by
  unfold parent? at h
  split at h
  · cases h
  · cases h
  · rename_i hroot
    cases h
    by_cases hne : p.components.dropLast = []
    · rw [hne, ofComponents_nil]
      refine ⟨List.nil_prefix, ?_⟩
      rw [show isAbsolute ⟨""⟩ = false from rfl, eq_comm, ← Bool.not_eq_true]
      intro ha
      rw [components_eq, (lead_eq_slash_iff p).2 ha, List.singleton_append] at hne hroot
      cases hs : p.steps with
      | nil => exact hroot (by rw [hs])
      | cons s rest => simp [hs] at hne
    · exact isAbove_ofComponents hne (List.dropLast_prefix _)

/-! ### The chain of the paths above a path -/

theorem lead_ofComponents {lead names : List String} (hl : IsLead lead)
    (h : ∀ n ∈ names, IsStep n) :
    (ofComponents (lead ++ names)).lead = lead := by
  have ha := (ofComponents_steps hl h).2
  unfold Path.lead
  rw [ha]
  rcases hl with rfl | rfl | rfl
  · rfl
  · rw [if_neg (by decide), List.singleton_append, ofComponents_of_head (by simp), if_pos]
    cases names with
    | nil => decide
    | cons n rest =>
      rw [String.intercalate_cons_cons, segments_append_slash]
      rfl
  · rw [if_neg (by decide), List.nil_append, ofComponents_of_head (head?_of_isStep h), if_neg]
    cases names with
    | nil => decide
    | cons n rest =>
      rw [segments_intercalate (fun m hm => (h m hm).2) (by simp), List.head?_cons]
      exact fun he => (isIdle_eq_false_iff.1 (h n List.mem_cons_self).1).2 (Option.some.inj he)

theorem components_ofComponents {p : Path} {init : List String} (h : init <+: p.components) :
    (ofComponents init).components = init := by
  by_cases hne : init = []
  · rw [hne]
    rfl
  · obtain ⟨names, rfl, hn⟩ := eq_lead_append hne h
    have hs := isStep_of_prefixed hn
    rw [components_eq, lead_ofComponents p.isLead_lead hs, (ofComponents_steps p.isLead_lead hs).1]

theorem initials_eq {names : List String} (h : names ≠ []) :
    initials names = names :: initials names.dropLast := by
  induction names with
  | nil => exact absurd rfl h
  | cons n rest ih =>
    cases rest with
    | nil => rfl
    | cons m more =>
      rw [initials, ih (by simp), List.dropLast_cons_cons, initials]
      rfl

/-- The paths above a path are those above the one its components but the last name. -/
theorem withAncestors_eq {p : Path} (h : p.components ≠ []) :
    p.withAncestors = p :: (ofComponents p.components.dropLast).withAncestors := by
  have hc : (ofComponents p.components.dropLast).components = p.components.dropLast :=
    components_ofComponents (List.dropLast_prefix _)
  unfold withAncestors
  rw [if_neg h, hc]
  by_cases hne : p.components.dropLast = []
  · rw [if_pos hne, hne]
    rfl
  · rw [if_neg hne, initials_eq hne]
    rfl

theorem lead_steps_of_components_append {p q : Path} {names : List String} (hp : p.components ≠ [])
    (h : q.components = p.components ++ names) : q.lead = p.lead ∧ q.steps = p.steps ++ names := by
  have notStep {s : String} (hs : s = "/" ∨ s = ".")
      (rest : List String) : q.steps ≠ s :: rest := by
    intro he
    have hstep := isStep_of_mem_steps (he ▸ List.mem_cons_self : s ∈ q.steps)
    rcases hs with rfl | rfl
    · exact hstep.2 (by decide)
    · exact absurd hstep.1 (by decide)
  have notLead {s : String} (hs : s ∈ p.steps) : s ≠ "/" ∧ s ≠ "." := by
    have hstep := isStep_of_mem_steps hs
    constructor
    · rintro rfl
      exact hstep.2 (by decide)
    · rintro rfl
      exact absurd hstep.1 (by decide)
  rw [components_eq] at hp
  rw [components_eq, components_eq] at h
  rcases p.isLead_lead with hl | hl | hl <;> rcases q.isLead_lead with hq | hq | hq <;>
    rw [hl, hq] at h
  · exact ⟨by rw [hl, hq], (List.cons.inj h).2⟩
  · simp at h
  · exact absurd h (notStep (.inl rfl) _)
  · simp at h
  · exact ⟨by rw [hl, hq], (List.cons.inj h).2⟩
  · exact absurd h (notStep (.inr rfl) _)
  · cases hs : p.steps with
    | nil => simp [hl, hs] at hp
    | cons s rest =>
      rw [hs] at h
      exact absurd (List.cons.inj h).1.symm (notLead (hs ▸ List.mem_cons_self)).1
  · cases hs : p.steps with
    | nil => simp [hl, hs] at hp
    | cons s rest =>
      rw [hs] at h
      exact absurd (List.cons.inj h).1.symm (notLead (hs ▸ List.mem_cons_self)).2
  · exact ⟨by rw [hl, hq], h⟩

end Path

end StaticSite
