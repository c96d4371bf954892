import Mathlib.Data.List.Basic
import StaticSite.Page.Pieces
import StaticSite.Page.Stream

/-!
# A page is its pieces

Every reader of markup leaves an end part of what it is given. So the piece that is cut off has the
characters before that part, and the pieces of a page written in order are the page
(`flatMap_source_of_pieces`).

However the texts of a page are cut into chunks, what is written is what is written for whole texts
(`join_write_of_arrive`). Between texts the buffers are empty (`Progress.behind`), so nothing is
carried from one text to another.
-/

namespace StaticSite.Page

theorem before_append {s rest : List Char} (h : rest <:+ s) : before s rest ++ rest = s := by
  obtain ⟨cutOff, rfl⟩ := h
  simp [before]

/-! ## Readers leave an end part -/

theorem splitValue_suffix {s value rest : List Char} (h : splitValue s = some (value, rest)) :
    rest <:+ s := by
  have hspace : s.dropWhile isSpace <:+ s := List.dropWhile_suffix _
  unfold splitValue at h
  split at h
  · cases h
  · rename_i r hr
    cases h
    rwa [hr] at hspace
  · rename_i c r _ hr
    rw [hr] at hspace
    split at h
    · extract_lets value at h
      split at h
      · cases h
      · rename_i q behind hbehind
        obtain ⟨-, rfl⟩ := Prod.mk.inj (Option.some.inj h)
        have hdrop : q :: behind <:+ r := hbehind ▸ List.drop_suffix _ _
        exact (((List.suffix_cons _ _).trans hdrop).trans (List.suffix_cons _ _)).trans hspace
    · cases h
      exact (List.drop_suffix _ _).trans hspace

theorem attributesFrom_suffix {fuel : Nat} {found attributes : List (String × String)}
    {s rest : List Char}
    {selfClosing : Bool} (h : attributesFrom found fuel s = some (attributes, selfClosing, rest)) :
    rest <:+ s := by
  induction fuel generalizing found s with
  | zero => cases h
  | succ fuel ih =>
    have hspace : s.dropWhile isSpace <:+ s := List.dropWhile_suffix _
    unfold attributesFrom at h
    split at h
    · cases h
    · rename_i r hr
      cases h
      rw [hr] at hspace
      exact (List.suffix_cons _ _).trans hspace
    · rename_i r hr
      cases h
      rw [hr] at hspace
      exact ((List.suffix_cons _ _).trans (List.suffix_cons _ _)).trans hspace
    · rename_i r _ hr
      rw [hr] at hspace
      exact (ih h).trans ((List.suffix_cons _ _).trans hspace)
    · rename_i c r _ _ _ hr
      rw [hr] at hspace
      extract_lets tail name at h
      have hname : (r.drop tail.length).dropWhile isSpace <:+ s :=
        (List.dropWhile_suffix _).trans
          ((List.drop_suffix _ _).trans ((List.suffix_cons _ _).trans hspace))
      split at h
      · rename_i behind hbehind
        obtain ⟨⟨value, after⟩, hvalue, h⟩ := Option.bind_eq_some_iff.1 h
        rw [hbehind] at hname
        exact (ih h).trans ((splitValue_suffix hvalue).trans ((List.suffix_cons _ _).trans hname))
      · exact (ih h).trans hname

theorem splitTag_suffix {s rest : List Char} {tag : Tag} (h : splitTag s = some (tag, rest)) :
    rest <:+ s := by
  unfold splitTag at h
  extract_lets name at h
  obtain ⟨⟨attributes, selfClosing, after⟩, hattributes, h⟩ := Option.bind_eq_some_iff.1 h
  cases h
  exact (attributesFrom_suffix hattributes).trans (List.drop_suffix _ _)

theorem afterBracket_suffix (s : List Char) : afterBracket s <:+ s :=
  (List.tail_suffix _).trans (List.dropWhile_suffix _)

theorem search_suffix (s : List Char) : afterComment.search s <:+ s := by
  fun_induction afterComment.search s with
  | case1 => exact List.suffix_rfl
  | case2 r => exact ⟨['-', '-', '>'], rfl⟩
  | case3 r => exact ⟨['-', '-', '!', '>'], rfl⟩
  | case4 c r _ _ ih => exact ih.trans (List.suffix_cons _ _)

theorem afterComment_suffix (s : List Char) : afterComment s <:+ s := by
  unfold afterComment
  split
  · exact List.suffix_cons _ _
  · exact (List.suffix_cons _ _).trans (List.suffix_cons _ _)
  · exact search_suffix s

theorem splitSection_append (s : List Char) :
    (splitSection s).1 ++ ((splitSection s).2.1 ++ (splitSection s).2.2) = s := by
  unfold splitSection
  split
  · rename_i content rest h
    rw [Text.eq_of_splitFirst h]
    simp
  · simp

/-- What stands behind the opening that is read, unless it is none. -/
def Opening.rest? : Opening → Option (List Char)
  | .tag _ rest | .close _ rest | .comment rest | .literal rest => some rest
  | .unfinished | .nothing => none

theorem opening_suffix {language : Language} {s rest : List Char}
    (h : (opening language s).rest? = some rest) : rest <:+ s := by
  unfold opening at h
  split at h
  · cases h
    exact (afterComment_suffix _).trans ⟨['!', '-', '-'], rfl⟩
  · split at h
    · cases h
      exact (List.drop_suffix _ _).trans (List.suffix_cons _ _)
    · cases h
      exact (afterBracket_suffix _).trans (List.suffix_cons _ _)
  · cases h
    exact (afterBracket_suffix _).trans (List.suffix_cons _ _)
  · split at h
    · split at h
      · rename_i tag after htag
        cases h
        exact (splitTag_suffix htag).trans (List.suffix_cons _ _)
      · cases h
    · cases h
      exact (afterBracket_suffix _).trans (List.suffix_cons _ _)
  · split at h
    · split at h
      · rename_i tag after htag
        cases h
        exact splitTag_suffix htag
      · cases h
    · cases h
  · cases h

theorem flatMap_source_withText (text : List Char) (ps : List Piece) :
    (withText text ps).flatMap Piece.source = text.reverse ++ ps.flatMap Piece.source := by
  unfold withText
  split
  · rename_i h
    simp [h]
  · simp [Piece.source]

/-! ## Cutting -/

theorem flatMap_source_of_cut {fuel : Nat} {setting : Setting} {text s : List Char}
    {ps : List Piece}
    (h : cut fuel setting text s = some ps) : ps.flatMap Piece.source = text.reverse ++ s := by
  have piece {c : Char} {r rest : List Char} {language : Language} {o : Opening}
      (ho : opening language r = o) (hrest : o.rest? = some rest) :
      before (c :: r) rest ++ rest = c :: r :=
    before_append ((opening_suffix (ho ▸ hrest)).trans (List.suffix_cons c r))
  fun_induction cut fuel setting text s generalizing ps with
  | case1 setting text s =>
    cases h
    simp [flatMap_source_withText, Piece.source]
  | case2 fuel setting text =>
    cases h
    simp [flatMap_source_withText]
  | case3 fuel setting text c r _ ih => simpa using ih h
  | case4 fuel setting text c r _ _ ih => simpa using ih h
  | case5 fuel setting text c r =>
    cases h
    simp [flatMap_source_withText, Piece.source]
  | case6 fuel setting text c r _ rest hopen ih =>
    obtain ⟨more, hmore, h⟩ := Option.bind_eq_some_iff.1 h
    cases h
    simp [flatMap_source_withText, Piece.source, ih hmore, piece hopen rfl]
  | case7 fuel setting text c r _ inside hopen content close rest hsection ih =>
    obtain ⟨more, hmore, h⟩ := Option.bind_eq_some_iff.1 h
    cases h
    have hinside := splitSection_append inside
    rw [hsection] at hinside
    simp [flatMap_source_withText, Piece.source, ih hmore, hinside, piece hopen rfl]
  | case8 fuel setting text c r _ name rest hopen ih =>
    obtain ⟨more, hmore, h⟩ := Option.bind_eq_some_iff.1 h
    cases h
    simp [flatMap_source_withText, Piece.source, ih hmore, piece hopen rfl]
  | case9 fuel setting text c r _ tag rest hopen ih =>
    obtain ⟨⟨inner, mode⟩, hmode, h⟩ := Option.bind_eq_some_iff.1 h
    have element {body behind : List Char} (hbody : body ++ behind = rest)
        (h : (do
          let more ← cut fuel inner [] behind
          return withText text
            (.startTag (before (c :: r) rest) tag (inner.hasContent tag) ::
              withText body.reverse more)) =
          some ps) : ps.flatMap Piece.source = text.reverse ++ c :: r := by
      obtain ⟨more, hmore, h⟩ := Option.bind_eq_some_iff.1 h
      cases h
      simp [flatMap_source_withText, Piece.source, ih _ _ hmore, hbody, piece hopen rfl]
    cases mode with
    | markup => exact element rfl h
    | raw => exact element (splitRaw_append _ _) h
    | script => exact element (splitScript_append _ _) h
    | toEnd => exact element (List.append_nil _) h

/-- The pieces of a page written in order are the page. -/
theorem flatMap_source_of_pieces {page : String} {ps : List Piece} (h : pieces page = some ps) :
    ps.flatMap Piece.source = page.toList := by
  simpa using flatMap_source_of_cut h

/-! ## Chunks -/

/-- The events in which pieces arrive, each text in chunks of which the last one is marked. -/
inductive Arrive : List Piece → List Event → Prop
  | nil : Arrive [] []
  | text {source : List Char} {parts : List String} {last : String} {rest : List Piece}
      {events : List Event}
      (hs : String.ofList source = String.join parts ++ last) (h : Arrive rest events) :
      Arrive (.text source :: rest) (parts.map (.chunk · false) ++ .chunk last true :: events)
  | startTag {source : List Char} {tag : Tag} {hasContent : Bool} {rest : List Piece}
      {events : List Event} (h : Arrive rest events) :
      Arrive (.startTag source tag hasContent :: rest)
        (.startTag (String.ofList source) tag hasContent :: events)
  | endTag {source : List Char} {name : String} {rest : List Piece} {events : List Event}
      (h : Arrive rest events) :
      Arrive (.endTag source name :: rest) (.endTag (String.ofList source) name :: events)
  | other {source : List Char} {rest : List Piece} {events : List Event} (h : Arrive rest events) :
      Arrive (.other source :: rest) (.other (String.ofList source) :: events)

namespace Progress

/-- Whether texts are collected as code. -/
def collects (p : Progress) : Bool :=
  p.collectsScript || p.collectsStyle

/-- The stream behind the chunks `seen` of a text. -/
def behind (p : Progress) (seen : String) : Stream where
  toProgress := p
  scriptText := if p.collectsScript then seen else ""
  styleText := if p.collectsStyle then seen else ""

theorem behind_between (p q : Progress) : { p.behind "" with toProgress := q } = q.behind "" := by
  simp [behind]

theorem takeChunk_part (p : Progress) (seen chunk : String) :
    (p.behind seen).takeChunk chunk false =
      (p.behind (seen ++ chunk), if p.collects then "" else chunk) := by
  cases hscript : p.collectsScript <;> cases hstyle : p.collectsStyle <;>
    simp [behind, Stream.takeChunk, collect, collects, hscript, hstyle]

theorem writeText_eq (p : Progress) (source : List Char) :
    p.writeText source =
      if p.collectsStyle then Minify.style (String.ofList source)
      else if p.collectsScript then Minify.script (String.ofList source)
      else String.ofList source :=
  rfl

theorem takeChunk_last (p : Progress) (seen chunk : String) :
    (p.behind seen).takeChunk chunk true =
      (p.behind "", if p.collects then p.writeText (seen ++ chunk).toList else chunk) := by
  cases hscript : p.collectsScript <;> cases hstyle : p.collectsStyle <;>
    simp [behind, Stream.takeChunk, collect, collects, hscript, hstyle, writeText_eq]

theorem writeText_of_not_collects {p : Progress} (h : p.collects = false) (source : List Char) :
    p.writeText source = String.ofList source := by
  simp only [collects, Bool.or_eq_false_iff] at h
  simp [writeText_eq, h.1, h.2]

/-- What is written for the chunks of a text, of which `seen` was met, is what is written for the
whole. -/
theorem join_write_chunks (head : String) (p : Progress) (seen : String) (parts : List String)
    (last : String) (rest : List Event) :
    (if p.collects then "" else seen) ++
        String.join
          ((p.behind seen).write head (parts.map (.chunk · false) ++ .chunk last true :: rest)) =
      p.writeText (seen ++ String.join parts ++ last).toList ++
        String.join ((p.behind "").write head rest) := by
  induction parts generalizing seen with
  | nil =>
    simp only [List.map_nil, List.nil_append, Stream.write, Stream.meet, takeChunk_last,
      String.join_cons]
    cases hp : p.collects <;> simp [writeText_of_not_collects, hp, String.append_assoc]
  | cons part parts ih =>
    simp only [List.map_cons, List.cons_append, Stream.write, Stream.meet, takeChunk_part,
      String.join_cons]
    cases hp : p.collects <;> simpa [hp, String.append_assoc] using ih (seen ++ part)

end Progress

/-- A page is written in the same way however its texts are cut into chunks. -/
theorem join_write_of_arrive {head : String} {p : Progress} {pieces : List Piece}
    {events : List Event} (h : Arrive pieces events) :
    String.join ((p.behind "").write head events) = String.join (write head p pieces) := by
  induction h generalizing p with
  | nil => rfl
  | @text source parts last rest events hs h ih =>
    have hwhole : source = ("" ++ String.join parts ++ last).toList := by
      rw [String.empty_append, ← hs, String.toList_ofList]
    have hchunks := p.join_write_chunks head "" parts last events
    rw [ih, ← hwhole] at hchunks
    simpa [write] using hchunks
  | @startTag source tag hasContent rest events h ih =>
    simp only [write, Stream.write, Stream.meet, Progress.behind_between, String.join_cons, ih]
    rfl
  | @endTag source name rest events h ih =>
    simp only [write, Stream.write, Stream.meet, Progress.behind_between, String.join_cons, ih,
      String.append_assoc]
    rfl
  | other h ih => simpa [write, Stream.write, Stream.meet] using ih

end StaticSite.Page
