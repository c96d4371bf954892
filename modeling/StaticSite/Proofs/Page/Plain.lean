import Mathlib
import StaticSite.Proofs.Page.Places

/-!
# Pages without images and formulas

In HTML the text of a script or a style is not markup. It reaches to the end tag of its element, so
that the element holds one text at most and no other element (`IsPlain`). So in pages without images
and formulas scripts and styles stand alone and have whole texts (`code_of_html`).
-/

namespace StaticSite.Page

/-! ## Raw text reaches to the end tag -/

theorem splitRaw_rest (name s : List Char) :
    (splitRaw name s).2 = [] ∨ ∃ r, (splitRaw name s).2 = '<' :: '/' :: r ∧
    beginsWithName name r = true := by
  induction s with
  | nil => exact .inl rfl
  | cons c r ih =>
    unfold splitRaw
    split
    · rename_i h
      obtain ⟨rfl, hslash, hname⟩ := h
      cases r with
      | nil => simp at hslash
      | cons d r =>
        obtain rfl : d = '/' := by simpa using hslash
        exact .inr ⟨r, rfl, hname⟩
    · exact ih

theorem splitScript_rest (context : ScriptContext) (s : List Char) :
    (splitScript context s).2 = [] ∨
      ∃ r, (splitScript context s).2 = '<' :: '/' :: r ∧ beginsWithName scriptName r = true := by
  induction s generalizing context with
  | nil => exact .inl rfl
  | cons c r ih =>
    unfold splitScript
    split
    · rename_i h
      obtain ⟨rfl, -, hslash, hname⟩ := h
      cases r with
      | nil => simp at hslash
      | cons d r =>
        obtain rfl : d = '/' := by simpa using hslash
        exact .inr ⟨r, rfl, hname⟩
    · exact ih _

theorem isAlpha_of_toLower {c : Char} (h : c.toLower.isLower = true) : c.isAlpha = true := by
  unfold Char.toLower at h
  split at h
  · rename_i hupper
    have hupper : c.isUpper = true := decide_eq_true hupper
    simp [Char.isAlpha, hupper]
  · simp [Char.isAlpha, h]

theorem endsName_of_isAlpha {c : Char} (h : c.isAlpha = true) : endsName c = false := by
  cases hc : endsName c with
  | false => rfl
  | true =>
    simp only [endsName, isSpace, Bool.or_eq_true, beq_iff_eq] at hc
    rcases hc with ((((((rfl | rfl) | rfl) | rfl) | rfl) | rfl) | rfl) <;>
      exact absurd h (by decide)

/-- Where an end tag of a name in lower case may begin, such a tag is read, unless it is not
closed. -/
theorem opening_of_beginsWithName {name r : List Char} (hne : name ≠ [])
    (hname : ∀ c ∈ name, c.isLower = true) (h : beginsWithName name r = true)
    (language : Language) :
    opening language ('/' :: r) = .unfinished ∨
      ∃ rest, opening language ('/' :: r) = .close (String.ofList name) rest := by
  simp only [beginsWithName, Bool.and_eq_true, beq_iff_eq, Option.any_eq_true] at h
  obtain ⟨hlower, e, he, hends⟩ := h
  have hword : ∀ x ∈ r.take name.length, x.isAlpha = true := fun x hx =>
    isAlpha_of_toLower (hname _ (hlower ▸ List.mem_map_of_mem hx))
  obtain ⟨behind, hbehind⟩ := List.head?_eq_some_iff.1 he
  have hr : r = r.take name.length ++ e :: behind := by
    rw [← hbehind, List.take_append_drop]
  have htake : r.takeWhile (!endsName ·) = r.take name.length := by
    conv_lhs => rw [hr]
    exact takeWhile_part (fun x hx => by simp [endsName_of_isAlpha (hword x hx)]) (by simp [hends])
  have hlowered : lowerName (r.takeWhile (!endsName ·)) = String.ofList name := by
    rw [htake, lowerName, hlower]
  obtain ⟨c, more, rfl⟩ : ∃ c more, r = c :: more := by
    cases r with
    | nil => simp at he
    | cons c more => exact ⟨c, more, rfl⟩
  have hletter : isLetter c = true := by
    obtain ⟨n, hn⟩ : ∃ n, name.length = n + 1 := Nat.exists_eq_succ_of_ne_zero (by simpa using hne)
    exact hword c (by simp [hn])
  cases htag : splitTag (c :: more) with
  | none => exact .inl (by simp [opening, hletter, htag])
  | some found =>
    obtain ⟨tag, rest⟩ := found
    have htagName : tag.name = String.ofList name := by
      unfold splitTag at htag
      obtain ⟨⟨attributes, selfClosing, after⟩, -, hpair⟩ := Option.bind_eq_some_iff.1 htag
      cases hpair
      exact hlowered
    exact .inr ⟨rest, by simp [opening, hletter, htag, htagName]⟩

/-! ## Scripts and styles that hold only their text -/

/-- Pieces that close an element of a name before anything else. -/
inductive Ends (name : String) : List Piece → Prop
  | nil : Ends name []
  | other (source : List Char) : Ends name [.other source]
  | endTag (source : List Char) (rest : List Piece) : Ends name (.endTag source name :: rest)

/-- Pieces in which a script or a style holds one text at most and nothing else. -/
inductive IsPlain : List Piece → Prop
  | nil : IsPlain []
  | cons {piece : Piece} {rest : List Piece} (h : piece.startsCode = false) (hr : IsPlain rest) :
      IsPlain (piece :: rest)
  | unclosed {source text : List Char} {tag : Tag} {rest : List Piece}
      (hr : rest = [] ∨ ∃ s, rest = [.other s]) :
      IsPlain (.startTag source tag true :: Page.withText text rest)
  | closed {source text endSource : List Char} {tag : Tag} {rest : List Piece} (hr : IsPlain rest) :
      IsPlain (.startTag source tag true :: Page.withText text (.endTag endSource tag.name :: rest))

theorem IsPlain.code {source text : List Char} {tag : Tag} {rest : List Piece}
    (he : Ends tag.name rest)
    (hr : IsPlain rest) : IsPlain (.startTag source tag true :: Page.withText text rest) := by
  cases he with
  | nil => exact .unclosed (.inl rfl)
  | other s => exact .unclosed (.inr ⟨s, rfl⟩)
  | endTag endSource rest =>
    cases hr with
    | cons _ hr => exact .closed hr

theorem IsPlain.withText {rest : List Piece} (h : IsPlain rest) (text : List Char) :
    IsPlain (withText text rest) := by
  unfold Page.withText
  split
  · exact h
  · exact .cons rfl h

theorem mem_withText {piece : Piece} {rest : List Piece} (h : piece ∈ rest) (text : List Char) :
    piece ∈ withText text rest := by
  unfold withText
  split
  · exact h
  · exact List.mem_cons_of_mem _ h

theorem ends_of_cut {name s : List Char} (hne : name ≠ []) (hname : ∀ c ∈ name, c.isLower = true)
    (hs : s = [] ∨ ∃ r, s = '<' :: '/' :: r ∧ beginsWithName name r = true) {fuel : Nat}
    {setting : Setting} {ps : List Piece} (h : cut fuel setting [] s = some ps) :
    Ends (String.ofList name) ps := by
  cases fuel with
  | zero =>
    cases h
    exact .other s
  | succ fuel =>
    rcases hs with rfl | ⟨r, rfl, hr⟩
    · cases h
      exact .nil
    · simp only [cut] at h
      rcases opening_of_beginsWithName hne hname hr setting.language with hopen | ⟨rest, hopen⟩
      · simp only [hopen] at h
        cases h
        exact .other _
      · simp only [hopen] at h
        obtain ⟨more, -, hpair⟩ := Option.bind_eq_some_iff.1 h
        cases hpair
        exact .endTag _ more

/-- A setting in HTML that is in no image and no formula. -/
def Setting.IsHtml (setting : Setting) : Prop :=
  setting.language = .html ∧ setting.outer = []

theorem Setting.IsHtml.closeTag {setting : Setting} (h : setting.IsHtml) (name : String) :
    (setting.closeTag name).IsHtml := by
  obtain ⟨hlanguage, houter⟩ := h
  simp [Setting.closeTag, IsHtml, hlanguage, houter]

theorem Setting.IsHtml.openTag {setting inner : Setting} {mode : TextMode} (h : setting.IsHtml)
    {tag : Tag}
    (ht : tag.name ≠ "svg" ∧ tag.name ≠ "math") (hopen : setting.openTag tag = some (inner, mode)) :
    inner.IsHtml ∧ mode = textMode tag.name := by
  obtain ⟨guard, -, hopen⟩ := Option.bind_eq_some_iff.1 hopen
  simp only [ht, if_false, h.1, if_true] at hopen
  cases hopen
  exact ⟨⟨rfl, h.2⟩, rfl⟩

/-- Whether a piece opens an image or a formula. -/
def Piece.isForeign (piece : Piece) : Bool :=
  match piece with
  | .startTag _ tag _ => tag.name == "svg" || tag.name == "math"
  | _ => false

theorem textMode_of_isCode {tag : Tag} (h : tag.isCode = true) :
    (tag.name = "script" ∧ textMode tag.name = .script) ∨
    (tag.name = "style" ∧ textMode tag.name = .raw) := by
  have hname : tag.name = "script" ∨ tag.name = "style" := by simpa [Tag.isCode] using h
  rcases hname with hn | hn
  · exact .inl ⟨hn, hn ▸ by decide⟩
  · exact .inr ⟨hn, hn ▸ by decide⟩

theorem lower_of_isCode {tag : Tag} (h : tag.isCode = true) :
    tag.name.toList ≠ [] ∧ ∀ c ∈ tag.name.toList, c.isLower = true := by
  rcases textMode_of_isCode h with ⟨hn, -⟩ | ⟨hn, -⟩ <;> rw [hn] <;>
    exact ⟨by decide, List.all_eq_true.1 (by decide)⟩

theorem Setting.IsHtml.hasContent {setting : Setting} (hs : setting.IsHtml) {tag : Tag}
    (h : tag.isCode = true) : setting.hasContent tag = true := by
  rw [Setting.hasContent, if_pos hs.1]
  rcases textMode_of_isCode h with ⟨hn, -⟩ | ⟨hn, -⟩ <;> rw [hn] <;> decide

/-- The text of a script or a style ends where an end tag of its name may begin. -/
def EndsText (tag : Tag) (behind : List Char) : Prop :=
  tag.isCode = true → behind = [] ∨
    ∃ r, behind = '<' :: '/' :: r ∧ beginsWithName tag.name.toList r = true

theorem endsText_splitRaw (tag : Tag) (s : List Char) :
    EndsText tag (splitRaw tag.name.toList s).2 :=
  fun _ => splitRaw_rest _ s

theorem endsText_splitScript {tag : Tag} (h : textMode tag.name = .script) (s : List Char) :
    EndsText tag (splitScript .plain s).2 := by
  intro hcode
  rcases textMode_of_isCode hcode with ⟨hn, -⟩ | ⟨-, hmode⟩
  · rw [hn]
    exact splitScript_rest _ s
  · rw [h] at hmode
    cases hmode

/-- An element with its text and the plain pieces that are cut behind it. -/
theorem IsPlain.element {fuel : Nat} {inner : Setting} {tag : Tag} {behind : List Char}
    {more : List Piece} (h : IsPlain more) (hinner : inner.IsHtml) (hends : EndsText tag behind)
    (hmore : cut fuel inner [] behind = some more) (source body : List Char) :
    IsPlain (.startTag source tag (inner.hasContent tag) :: Page.withText body more) := by
  cases hcode : tag.isCode with
  | false => exact .cons hcode (h.withText _)
  | true =>
    obtain ⟨hne, hlower⟩ := lower_of_isCode hcode
    have hname := ends_of_cut hne hlower (hends hcode) hmore
    rw [String.ofList_toList] at hname
    rw [hinner.hasContent hcode]
    exact .code hname h

theorem isPlain_of_cut {fuel : Nat} {setting : Setting} {text s : List Char} {ps : List Piece}
    (h : cut fuel setting text s = some ps) (hs : setting.IsHtml)
    (hps : ∀ piece ∈ ps, piece.isForeign = false) : IsPlain ps := by
  fun_induction cut fuel setting text s generalizing ps with
  | case1 setting text s =>
    cases h
    exact (IsPlain.cons rfl .nil).withText _
  | case2 fuel setting text =>
    cases h
    exact IsPlain.nil.withText _
  | case3 fuel setting text c r _ ih => exact ih h hs hps
  | case4 fuel setting text c r _ _ ih => exact ih h hs hps
  | case5 fuel setting text c r =>
    cases h
    exact (IsPlain.cons rfl .nil).withText _
  | case6 fuel setting text c r _ rest hopen ih =>
    obtain ⟨more, hmore, hpair⟩ := Option.bind_eq_some_iff.1 h
    cases hpair
    have hplain := ih hmore hs fun piece hp =>
      hps piece (mem_withText (List.mem_cons_of_mem _ hp) _)
    exact (IsPlain.cons rfl hplain).withText _
  | case7 fuel setting text c r _ inside hopen content close rest hsection ih =>
    obtain ⟨more, hmore, hpair⟩ := Option.bind_eq_some_iff.1 h
    cases hpair
    have hplain := ih hmore hs fun piece hp => hps piece
      (mem_withText (List.mem_cons_of_mem _ (mem_withText (List.mem_cons_of_mem _ hp) _)) _)
    exact (IsPlain.cons rfl ((IsPlain.cons rfl hplain).withText _)).withText _
  | case8 fuel setting text c r _ name rest hopen ih =>
    obtain ⟨more, hmore, hpair⟩ := Option.bind_eq_some_iff.1 h
    cases hpair
    have hplain := ih hmore (hs.closeTag name) fun piece hp =>
      hps piece (mem_withText (List.mem_cons_of_mem _ hp) _)
    exact (IsPlain.cons rfl hplain).withText _
  | case9 fuel setting text c r _ tag rest hopen ih =>
    obtain ⟨⟨inner, mode⟩, hmode, h⟩ := Option.bind_eq_some_iff.1 h
    have element {body behind : List Char}
        (hbehind : mode = textMode tag.name → EndsText tag behind) (h : (do
          let more ← cut fuel inner [] behind
          return withText text
            (.startTag (before (c :: r) rest) tag (inner.hasContent tag) ::
              withText body.reverse more)) =
          some ps) : IsPlain ps := by
      obtain ⟨more, hmore, hpair⟩ := Option.bind_eq_some_iff.1 h
      cases hpair
      have hname : tag.name ≠ "svg" ∧ tag.name ≠ "math" := by
        have := hps _ (mem_withText List.mem_cons_self _)
        simpa [Piece.isForeign] using this
      obtain ⟨hinner, htext⟩ := hs.openTag hname hmode
      have hplain : IsPlain more := ih inner behind hmore hinner fun piece hp =>
        hps piece (mem_withText (List.mem_cons_of_mem _ (mem_withText hp _)) _)
      exact (hplain.element hinner (hbehind htext) hmore _ _).withText _
    cases mode with
    | markup =>
      have hmarkup (hm : .markup = textMode tag.name) : EndsText tag rest := fun hcode => by
        rcases textMode_of_isCode hcode with ⟨-, hm'⟩ | ⟨-, hm'⟩ <;> rw [hm'] at hm <;> cases hm
      exact element hmarkup h
    | raw => exact element (fun _ => endsText_splitRaw tag rest) h
    | script => exact element (fun hm => endsText_splitScript hm.symm rest) h
    | toEnd =>
      have hend : EndsText tag [] := fun _ => .inl rfl
      exact element (fun _ => hend) h

/-! ## Places in plain pages -/

theorem mem_openBehind {n : Nat} {elements : List Element} {piece : Piece} {e : Element}
    (h : e ∈ openBehind n elements piece) : e ∈ elements ∨ e.start = n := by
  unfold openBehind at h
  split at h
  · split at h
    · rcases List.mem_cons.1 h with rfl | h
      · exact .inr rfl
      · exact .inl h
    · exact .inl h
  · exact .inl (List.mem_of_mem_drop h)
  · exact .inl h
  · exact .inl h

theorem mem_elements_of_mem_placesFrom {n : Nat} {elements : List Element} {ps : List Piece}
    {place : Place}
    (h : place ∈ placesFrom n elements ps) : ∀ e ∈ place.elements, e ∈ elements ∨ n ≤ e.start := by
  induction ps generalizing n elements with
  | nil => cases h
  | cons piece rest ih =>
    intro e he
    rcases List.mem_cons.1 h with rfl | h
    · exact .inl he
    · rcases ih h e he with he | he
      · exact (mem_openBehind he).imp_right fun hs => by omega
      · exact .inr (by omega)

/-- Outside of scripts and styles before the piece of the number `n`. -/
structure Outside (n : Nat) (elements : List Element) : Prop where
  plain : ∀ e ∈ elements, e.tag.isCode = false
  before : ∀ e ∈ elements, e.start < n

theorem Outside.code?_eq_none {n : Nat} {elements : List Element} (h : Outside n elements)
    (piece : Piece) :
    Place.code? ⟨elements, piece⟩ = none := by
  simpa [Place.code?] using h.plain

theorem Outside.behind {n : Nat} {elements : List Element} (ho : Outside n elements) {piece : Piece}
    (h : piece.startsCode = false) : Outside (n + 1) (openBehind n elements piece) where
  plain e he := by
    cases piece with
    | startTag source tag hasContent =>
      cases hasContent with
      | true =>
        rcases List.mem_cons.1 he with rfl | he
        · exact h
        · exact ho.plain e he
      | false => exact ho.plain e he
    | endTag source name => exact ho.plain e (List.mem_of_mem_drop he)
    | text source => exact ho.plain e he
    | other source => exact ho.plain e he
  before e he := by
    rcases mem_openBehind he with he | he
    · have := ho.before e he
      omega
    · omega

theorem Outside.mono {n m : Nat} {elements : List Element} (ho : Outside n elements) (h : n ≤ m) :
    Outside m elements :=
  ⟨ho.plain, fun e he => Nat.lt_of_lt_of_le (ho.before e he) h⟩

/-- Places from the number `n` on, in which scripts and styles stand alone and have whole texts. -/
structure Fine (n : Nat) (places : List Place) : Prop where
  alone : codeStandsAlone places = true
  whole : ∀ place ∈ places, ∀ e, place.code? = some e → n ≤ e.start ∧ (e.texts places).length ≤ 1

theorem Element.texts_append (e : Element) (xs ys : List Place) :
    e.texts (xs ++ ys) = e.texts xs ++ e.texts ys := by
  simp [texts]

/-- Places outside of an element have none of its texts. -/
theorem Element.texts_eq_nil {e : Element} {places : List Place}
    (h : ∀ place ∈ places, ∀ e' ∈ place.elements, e'.start ≠ e.start) : e.texts places = [] := by
  have hout : places.filter (·.isIn e) = [] := by
    simpa [Place.isIn] using h
  rw [texts, hout, List.filterMap_nil]

/-- A place outside of scripts and styles before places that are fine. -/
theorem Fine.cons {n m : Nat} {elements : List Element} (ho : Outside n elements) (piece : Piece)
    {rest : List Place} (hm : n ≤ m) (hr : Fine m rest) : Fine n (⟨elements, piece⟩ :: rest) where
  alone := by
    have hrest := hr.alone
    unfold codeStandsAlone at hrest ⊢
    simp [ho.code?_eq_none piece, hrest]
  whole place hplace e he := by
    rcases List.mem_cons.1 hplace with rfl | hplace
    · rw [ho.code?_eq_none] at he
      cases he
    · obtain ⟨hstart, hlength⟩ := hr.whole place hplace e he
      have hout : e.texts [⟨elements, piece⟩] = [] := by
        refine Element.texts_eq_nil fun place hp e' he' => ?_
        obtain rfl := List.mem_singleton.1 hp
        have := ho.before e' he'
        omega
      have happend := e.texts_append [⟨elements, piece⟩] rest
      rw [hout, List.nil_append] at happend
      exact ⟨Nat.le_trans hm hstart,
        Nat.le_trans (Nat.le_of_eq (congrArg List.length happend)) hlength⟩

/-- Places in an element that holds one text at most and no other element, before places that are
fine. -/
theorem Fine.inside {n m : Nat} {elements : List Element} (tag : Tag) {inside rest : List Place}
    (ho : Outside n elements) (hm : n < m) (hr : Fine m rest)
    (hrest : ∀ place ∈ rest, ∀ e ∈ place.elements, e ∈ elements ∨ m ≤ e.start)
    (hinside : ∀ place ∈ inside, place.elements = ⟨n, tag⟩ :: elements ∧
      place.piece.startsCode = false)
    (htexts : (inside.filterMap Place.text?).length ≤ 1) : Fine n (inside ++ rest) where
  alone := by
    have hin : codeStandsAlone inside = true :=
      List.all_eq_true.2 fun place hplace => by simp [(hinside place hplace).2]
    unfold codeStandsAlone at hin ⊢
    rw [List.all_append, hin, Bool.true_and]
    exact hr.alone
  whole place hplace e he := by
    rw [e.texts_append, List.length_append]
    rcases List.mem_append.1 hplace with hplace | hplace
    · have heq : e = ⟨n, tag⟩ := by
        have hmem : e ∈ place.elements := List.mem_of_find?_eq_some he
        have hcode : e.tag.isCode = true :=
          List.find?_some (p := fun e : Element => e.tag.isCode) he
        rw [(hinside place hplace).1] at hmem
        refine (List.mem_cons.1 hmem).resolve_right fun hout => ?_
        simp [ho.plain e hout] at hcode
      have hstart : e.start = n := congrArg Element.start heq
      have hout : e.texts rest = [] := by
        refine Element.texts_eq_nil fun place hp e' he' => ?_
        rcases hrest place hp e' he' with hold | hnew
        · have := ho.before e' hold
          omega
        · omega
      have hsub : (e.texts inside).length ≤ (inside.filterMap Place.text?).length :=
        (List.filter_sublist.filterMap _).length_le
      rw [hout]
      exact ⟨hstart.ge, Nat.le_trans hsub htexts⟩
    · obtain ⟨hstart, hlength⟩ := hr.whole place hplace e he
      have hout : e.texts inside = [] := by
        refine Element.texts_eq_nil fun place hp e' he' => ?_
        rw [(hinside place hp).1] at he'
        rcases List.mem_cons.1 he' with rfl | hold
        · exact (Nat.lt_of_lt_of_le hm hstart).ne
        · have := ho.before e' hold
          omega
      rw [hout]
      exact ⟨by omega, by simpa using hlength⟩

theorem openBehind_endTag_self (n k : Nat) (tag : Tag) (elements : List Element)
    (source : List Char) :
    openBehind k (⟨n, tag⟩ :: elements) (.endTag source tag.name) = elements := by
  simp [openBehind, closedBy]

theorem placesFrom_withText (n : Nat) (elements : List Element) (text : List Char)
    (rest : List Piece) :
    placesFrom n elements (withText text rest) =
      if text = [] then placesFrom n elements rest
      else ⟨elements, .text text.reverse⟩ :: placesFrom (n + 1) elements rest := by
  unfold withText
  split <;> rfl

/-- In plain pieces that stand outside of scripts and styles, the places are fine. -/
theorem IsPlain.fine {ps : List Piece} (h : IsPlain ps) {n : Nat} {elements : List Element}
    (ho : Outside n elements) : Fine n (placesFrom n elements ps) := by
  induction h generalizing n elements with
  | nil => exact ⟨rfl, by simp [placesFrom]⟩
  | @cons piece rest h hr ih => exact .cons ho piece (Nat.le_succ n) (ih (ho.behind h))
  | @unclosed source text tag rest hr =>
    refine .cons ho _ (Nat.le_refl n) ?_
    have hnone : Fine (n + 1) [] := ⟨rfl, by simp⟩
    rw [← List.append_nil (placesFrom _ _ _), placesFrom_withText]
    refine .inside tag ho (Nat.lt_succ_self n) hnone (by simp) ?_ ?_
    · rcases hr with rfl | ⟨s, rfl⟩ <;> split <;> simp [placesFrom, openBehind, Piece.startsCode]
    · rcases hr with rfl | ⟨s, rfl⟩ <;> split <;>
        simp [placesFrom, Place.text?, List.filterMap_cons]
  | @closed source text endSource tag rest hr ih =>
    have inner {m : Nat} (hm : n < m) {inside : List Place}
        (hinside : ∀ place ∈ inside,
          place.elements = ⟨n, tag⟩ :: elements ∧ place.piece.startsCode = false)
        (htexts : (inside.filterMap Place.text?).length ≤ 1) :
        Fine n (inside ++ placesFrom m elements rest) :=
      .inside tag ho hm (ih (ho.mono (Nat.le_of_lt hm)))
        (fun _ hp => mem_elements_of_mem_placesFrom hp)
        hinside htexts
    have hend (k : Nat) :
        placesFrom k (⟨n, tag⟩ :: elements) (.endTag endSource tag.name :: rest) =
          [⟨⟨n, tag⟩ :: elements, .endTag endSource tag.name⟩] ++
            placesFrom (k + 1) elements rest := by
      rw [placesFrom, openBehind_endTag_self, List.singleton_append]
    have hopen : openBehind n elements (.startTag source tag true) = ⟨n, tag⟩ :: elements := rfl
    refine .cons ho _ (Nat.le_refl n) ?_
    rw [hopen, placesFrom_withText, hend, hend]
    split
    · exact inner (by omega) (by simp [Piece.startsCode])
        (by simp [Place.text?, List.filterMap_cons])
    · rw [← List.cons_append]
      exact inner (by omega) (by simp [Piece.startsCode])
        (by simp [Place.text?, List.filterMap_cons])

/-- In a page without images and formulas scripts and styles do not stand in each other and have one
text at most. -/
theorem code_of_html {page : String} (h : ∀ place ∈ placesOf page, place.piece.isForeign = false) :
    haveWholeTexts (placesOf page) = true ∧ codeStandsAlone (placesOf page) = true := by
  have hfine : Fine 0 (placesOf page) := by
    unfold placesOf at h ⊢
    cases hps : pieces page with
    | none => exact ⟨rfl, by simp [placesFrom]⟩
    | some ps =>
      simp only [hps, Option.getD_some] at h ⊢
      refine (isPlain_of_cut hps ⟨rfl, rfl⟩ fun piece hp => ?_).fine ⟨by simp, by simp⟩
      rw [← placesFrom_pieces 0 [] ps] at hp
      obtain ⟨place, hplace, rfl⟩ := List.mem_map.1 hp
      exact h place hplace
  refine ⟨List.all_eq_true.2 fun place hplace => ?_, hfine.alone⟩
  simp only [Option.all_eq_true, decide_eq_true_eq]
  exact fun e he => (hfine.whole place hplace e he).2

end StaticSite.Page
