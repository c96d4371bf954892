import Mathlib.Tactic.SplitIfs
import StaticSite.Proofs.Except
import StaticSite.Proofs.Page.Cutting
import StaticSite.Proofs.Page.Links

/-!
# What is done to a page

A page is a list of pieces, each in the elements that are open at its place. In the finished page a
text is replaced if it is the text of a script or a style to be minified, an end tag that closes a
head gets the head's markup before it, and all other pieces are as they were (`Place.finished`).
This is what finishing does (`finish_edits_places`) as far as scripts and styles do not stand in
each other, which only images and formulas allow. The flag that a script sets for its type is not
taken back at its end, so behind a script in a script the text of the outer one is taken for one of
the inner (`finish_differs_of_nested_script`).
-/

namespace StaticSite.Page

/-! ## Places -/

/-- An element that is open at a place: its start tag, and the number of pieces before the tag,
which tells apart elements with equal tags. -/
structure Element where
  start : Nat
  tag : Tag

/-- Whether an element is a script or a style. -/
def Tag.isCode (tag : Tag) : Bool :=
  tag.name == "script" || tag.name == "style"

/-- Whether a piece is the start tag of a script or a style. -/
def Piece.startsCode : Piece → Bool
  | .startTag _ tag _ => tag.isCode
  | _ => false

/-- A piece of a page with the elements that are open there, the innermost first. -/
structure Place where
  elements : List Element
  piece : Piece

/-- The elements that an end tag closes: the innermost one of its name, and those in it. -/
def closedBy (elements : List Element) (name : String) : List Element :=
  if elements.any (·.tag.name == name) then
    elements.take ((elements.takeWhile (·.tag.name != name)).length + 1)
  else []

/-- The elements that are open behind a piece, before which there are `n` pieces. -/
def openBehind (n : Nat) (elements : List Element) : Piece → List Element
  | .startTag _ tag hasContent => if hasContent then ⟨n, tag⟩ :: elements else elements
  | .endTag _ name => elements.drop (closedBy elements name).length
  | .text _ | .other _ => elements

/-- The places of some pieces, inside the elements that are open before them. -/
def placesFrom (n : Nat) (elements : List Element) : List Piece → List Place
  | [] => []
  | piece :: rest => ⟨elements, piece⟩ :: placesFrom (n + 1) (openBehind n elements piece) rest

/-- The places of a page; none if a tag is ambiguous. -/
def placesOf (page : String) : List Place :=
  placesFrom 0 [] ((pieces page).getD [])

namespace Place

/-- The text at a place. -/
def text? (place : Place) : Option (List Char) :=
  match place.piece with
  | .text source => some source
  | _ => none

/-- Whether a place is in an element. -/
def isIn (place : Place) (e : Element) : Bool :=
  place.elements.any (·.start == e.start)

/-- The innermost script or style at a place. -/
def code? (place : Place) : Option Element :=
  place.elements.find? (·.tag.isCode)

end Place

/-! ## Finished pieces -/

/-- The texts of an element. -/
def Element.texts (e : Element) (places : List Place) : List (List Char) :=
  (places.filter (·.isIn e)).filterMap Place.text?

/-- What becomes of a text of an element: in scripts and styles of the right types, the minified
whole text of the element. -/
def Element.finishText (e : Element) (places : List Place) (source : List Char) : String :=
  let whole := String.ofList (e.texts places).flatten
  if e.tag.name = "script" ∧ hasType e.tag scriptTypes then Minify.script whole
  else if e.tag.name = "style" ∧ hasType e.tag styleTypes then Minify.style whole
  else String.ofList source

/-- What stands in the finished page in place of a piece. -/
def Place.finished (head : String) (places : List Place) (place : Place) : String :=
  match place.piece with
  | .text source =>
    match place.code? with
    | some e => e.finishText places source
    | none => String.ofList source
  | .endTag source name =>
    (if (closedBy place.elements name).any (·.tag.name == "head") then head else "") ++
      String.ofList source
  | .startTag source _ _ | .other source => String.ofList source

/-- Whether each script and style has one text at most. -/
def haveWholeTexts (places : List Place) : Bool :=
  places.all fun place => place.code?.all fun e => (e.texts places).length ≤ 1

/-- Whether no script or style stands in another one. -/
def codeStandsAlone (places : List Place) : Bool :=
  places.all fun place => !place.piece.startsCode || place.code?.isNone

/-! ## Progress through a page -/

/-- The progress at a place in a page in which scripts and styles stand alone. -/
structure Tracks (p : Progress) (elements : List Element) : Prop where
  names : p.elements = elements.map (·.tag.name)
  script : ∀ e ∈ elements, e.tag.name = "script" → p.minifiesScript = hasType e.tag scriptTypes
  style : ∀ e ∈ elements, e.tag.name = "style" → p.minifiesStyle = hasType e.tag styleTypes
  alone : ∀ e ∈ elements, ∀ e' ∈ elements, e.tag.isCode → e'.tag.isCode → e.tag.name = e'.tag.name

theorem closedBy_names {p : Progress} {elements : List Element}
    (h : p.elements = elements.map (·.tag.name))
    (name : String) : p.closedBy name = (closedBy elements name).map (·.tag.name) := by
  have first (names : List String) (hname : name ∈ names) :
      names.take ((names.takeWhile (· != name)).length + 1) =
        names.takeWhile (· != name) ++ [name] := by
    induction names with
    | nil => cases hname
    | cons x rest ih =>
      by_cases hx : x = name
      · simp [hx]
      · have hrest : name ∈ rest := (List.mem_cons.1 hname).resolve_left (Ne.symm hx)
        simp [hx, ih hrest]
  have hany : elements.any (·.tag.name == name) = p.elements.contains name :=
    Bool.eq_iff_iff.2 (by simp [h])
  unfold Progress.closedBy closedBy
  rw [hany]
  split
  · rename_i hname
    rw [← first _ (by simpa using hname), h, List.map_take, List.takeWhile_map, List.length_map]
    rfl
  · rfl

namespace Progress

variable (p : Progress) (tag : Tag) (hasContent : Bool)

theorem openTag_elements : (p.openTag tag hasContent).elements =
    if hasContent then tag.name :: p.elements else p.elements := by
  unfold openTag
  cases hasContent <;> split_ifs <;> rfl

theorem openTag_minifiesScript : (p.openTag tag hasContent).minifiesScript =
    if tag.name = "script" then hasType tag scriptTypes else p.minifiesScript := by
  unfold openTag
  cases hasContent <;> split_ifs <;> rfl

theorem openTag_minifiesStyle : (p.openTag tag hasContent).minifiesStyle =
    if tag.name = "style" then hasType tag styleTypes else p.minifiesStyle := by
  unfold openTag
  cases hasContent <;> split_ifs <;> first | rfl | simp_all

end Progress

namespace Tracks

variable {p : Progress} {elements : List Element}

theorem closeTag (h : Tracks p elements) (name : String) :
    Tracks (p.closeTag name) (elements.drop (closedBy elements name).length) := by
  have kept {e : Element} (he : e ∈ elements.drop (closedBy elements name).length) : e ∈ elements :=
    List.mem_of_mem_drop he
  constructor
  · rw [Progress.closeTag, closedBy_names h.names, List.length_map, List.map_drop, h.names]
  · exact fun e he hname => h.script e (kept he) hname
  · exact fun e he hname => h.style e (kept he) hname
  · exact fun e he e' he' => h.alone e (kept he) e' (kept he')

/-- The flags are set by a tag of a script or a style, outside of which no other one is open. -/
theorem openTag (h : Tracks p elements) (n : Nat) {tag : Tag} (hasContent : Bool)
    (halone : tag.isCode = true → ∀ e ∈ elements, e.tag.isCode = false) :
    Tracks (p.openTag tag hasContent) (if hasContent then ⟨n, tag⟩ :: elements else elements) := by
  have opened {e : Element} (he : e ∈ if hasContent then ⟨n, tag⟩ :: elements else elements) :
      e.tag = tag ∨ e ∈ elements := by
    cases hasContent with
    | true => exact (List.mem_cons.1 he).imp_left (congrArg Element.tag)
    | false => exact .inr he
  have apart {e : Element} (he : e ∈ elements) (hcode : e.tag.isCode = true) :
      tag.isCode = false := by
    cases htag : tag.isCode with
    | false => rfl
    | true => simp [halone htag e he] at hcode
  constructor
  · rw [p.openTag_elements, h.names]
    split <;> rfl
  · intro e he hname
    rw [p.openTag_minifiesScript]
    rcases opened he with htag | he
    · rw [if_pos (htag ▸ hname), htag]
    · have := apart he (by simp [Tag.isCode, hname])
      rw [if_neg (by rintro hs; simp [Tag.isCode, hs] at this), h.script e he hname]
  · intro e he hname
    rw [p.openTag_minifiesStyle]
    rcases opened he with htag | he
    · rw [if_pos (htag ▸ hname), htag]
    · have := apart he (by simp [Tag.isCode, hname])
      rw [if_neg (by rintro hs; simp [Tag.isCode, hs] at this), h.style e he hname]
  · intro e he e' he' hcode hcode'
    rcases opened he with htag | he <;> rcases opened he' with htag' | he'
    · rw [htag, htag']
    · rw [htag, apart he' hcode'] at hcode
      cases hcode
    · rw [htag', apart he hcode] at hcode'
      cases hcode'
    · exact h.alone e he e' he' hcode hcode'

end Tracks

/-! ## Texts -/

/-- The only text of an element is its whole text. -/
theorem texts_of_isText {places : List Place} {place : Place} {source : List Char} {e : Element}
    (hp : place ∈ places) (hs : place.text? = some source) (he : e ∈ place.elements)
    (hwhole : (e.texts places).length ≤ 1) : e.texts places = [source] := by
  have hmem : source ∈ e.texts places := by
    refine List.mem_filterMap.2 ⟨place, List.mem_filter.2 ⟨hp, ?_⟩, hs⟩
    exact List.any_eq_true.2 ⟨e, he, by simp⟩
  match ht : e.texts places with
  | [] => simp [ht] at hmem
  | [only] => rw [ht, List.mem_singleton] at hmem; rw [hmem]
  | _ :: _ :: _ => simp [ht] at hwhole

namespace Tracks

variable {p : Progress} {elements : List Element}

theorem contains_of_mem (h : Tracks p elements) {e : Element} (he : e ∈ elements) :
    p.elements.contains e.tag.name = true := by
  rw [h.names]
  simpa using ⟨e, he, rfl⟩

theorem contains_eq_false (h : Tracks p elements) {name : String}
    (hno : ∀ e ∈ elements, e.tag.name ≠ name) :
    p.elements.contains name = false := by
  rw [h.names]
  simpa using hno

/-- A text is replaced as the whole text of the script or style that it is in. -/
theorem writeText (h : Tracks p elements) {places : List Place}
    (hwhole : haveWholeTexts places = true)
    {source : List Char} (hp : ⟨elements, .text source⟩ ∈ places) (head : String) :
    p.writeText source = Place.finished head places ⟨elements, .text source⟩ := by
  simp only [Place.finished]
  cases hfind : Place.code? ⟨elements, .text source⟩ with
  | none =>
    have hnone : ∀ e ∈ elements, e.tag.isCode = false := by
      simpa [Place.code?] using hfind
    have hno {name : String} (hn : name = "script" ∨ name = "style") :
        p.elements.contains name = false :=
      h.contains_eq_false fun e he hs => by
        have hcode := hnone e he
        rcases hn with rfl | rfl <;> simp [Tag.isCode, hs] at hcode
    simp only [Progress.writeText, hno (.inl rfl), hno (.inr rfl), Bool.and_false]
    rfl
  | some e =>
    have he : e ∈ elements := List.mem_of_find?_eq_some hfind
    have hcode : e.tag.isCode = true := List.find?_some (p := fun e : Element => e.tag.isCode) hfind
    have htexts : e.texts places = [source] := by
      refine texts_of_isText hp rfl he ?_
      have := List.all_eq_true.1 hwhole _ hp
      simpa [hfind] using this
    have own := h.contains_of_mem he
    have other {name : String} (hn : name = "script" ∨ name = "style") (hne : e.tag.name ≠ name) :
        p.elements.contains name = false :=
      h.contains_eq_false fun e' he' hs =>
        hne ((h.alone e he e' he' hcode
          (by rcases hn with rfl | rfl <;> simp [Tag.isCode, hs])).trans hs)
    have hname : e.tag.name = "script" ∨ e.tag.name = "style" := by
      simpa [Tag.isCode] using hcode
    rcases hname with hn | hn
    · rw [hn] at own other
      simp only [Progress.writeText, other (.inr rfl) (by decide), own, h.script e he hn,
        Element.finishText, htexts, hn]
      simp
    · rw [hn] at own other
      simp only [Progress.writeText, other (.inl rfl) (by decide), own, h.style e he hn,
        Element.finishText, htexts, hn]
      simp

end Tracks

/-! ## Pages -/

theorem placesFrom_pieces (n : Nat) (elements : List Element) (ps : List Piece) :
    (placesFrom n elements ps).map Place.piece = ps := by
  induction ps generalizing n elements with
  | nil => rfl
  | cons piece rest ih => rw [placesFrom, List.map_cons, ih]

/-- Writing the pieces of a page from a place on. -/
theorem join_write_of_tracks {head : String} {places : List Place}
    (hwhole : haveWholeTexts places = true)
    (halone : codeStandsAlone places = true) {p : Progress} {n : Nat} {elements : List Element}
    {ps : List Piece} (h : Tracks p elements)
    (hps : ∀ place ∈ placesFrom n elements ps, place ∈ places) :
    String.join (write head p ps) =
      String.join ((placesFrom n elements ps).map (Place.finished head places)) := by
  induction ps generalizing p n elements with
  | nil => rfl
  | cons piece rest ih =>
    have hp : ⟨elements, piece⟩ ∈ places := hps _ List.mem_cons_self
    have hrest {p : Progress} (h : Tracks p (openBehind n elements piece)) :=
      ih h fun place hplace => hps place (List.mem_cons_of_mem _ hplace)
    simp only [placesFrom, List.map_cons, String.join_cons]
    cases piece with
    | text source =>
      rw [write, String.join_cons, hrest h, h.writeText hwhole hp]
    | other source =>
      rw [write, String.join_cons, hrest h]
      rfl
    | startTag source tag hasContent =>
      have hopen : Tracks (p.openTag tag hasContent) _ := h.openTag n hasContent fun hcode => by
        have := List.all_eq_true.1 halone _ hp
        simpa [Piece.startsCode, hcode, Place.code?] using this
      rw [write, String.join_cons, hrest hopen]
      rfl
    | endTag source name =>
      have hhead : (p.closedBy name).contains "head" =
          (closedBy elements name).any (·.tag.name == "head") := by
        rw [closedBy_names h.names]
        exact Bool.eq_iff_iff.2 (by simp)
      rw [write, String.join_cons, String.join_cons, hrest (h.closeTag name),
        hhead, ← String.append_assoc]
      rfl

/-- In a finished page the whole texts of scripts and styles are minified, the markup for the head
stands before the end tag of each head, and all else is as it was, in whatever chunks the texts
arrive. -/
theorem finish_edits_places {page : String} {job : HeadJob} {out : String}
    (h : finish page job = .ok out)
    (hwhole : haveWholeTexts (placesOf page) = true)
    (halone : codeStandsAlone (placesOf page) = true) :
    job.IsMarkup job.markup ∧
      (placesOf page).flatMap (·.piece.source) = page.toList ∧
      out = String.join ((placesOf page).map (Place.finished job.markup (placesOf page))) ∧
      ∀ events, Arrive ((placesOf page).map Place.piece) events →
        String.join (Stream.write job.markup {} events) = out := by
  unfold finish at h
  cases hps : pieces page with
  | none => simp [hps] at h
  | some ps =>
    obtain rfl : String.join (write job.markup {} ps) = out := by simpa [hps] using h
    have hpieces : (placesOf page).map Place.piece = ps := by
      simp [placesOf, hps, placesFrom_pieces]
    have hstart : Tracks {} [] := ⟨rfl, by simp, by simp, by simp⟩
    refine ⟨job.isMarkup, ?_, ?_, fun events harrive => ?_⟩
    · rw [← flatMap_source_of_pieces hps, ← hpieces, List.flatMap_map]
    · have hall : placesOf page = placesFrom 0 [] ps := by simp [placesOf, hps]
      rw [join_write_of_tracks hwhole halone hstart fun place hplace => hall ▸ hplace, hall]
    · rw [hpieces] at harrive
      exact join_write_of_arrive (p := {}) harrive

/-- Two stylesheets to link, one of them beside the page, and a style to put into the page. -/
def sampleJob : HeadJob where
  stylesheets := ["site", "./post"]
  inlineStyle := some "p { x : 1 }"

/-- A page with a style in its head, and scripts of two types, one of them in an image. -/
theorem finish_edits_places_of_page :
    let page :=
      "<head><style> a </style></head><script type=x> b </script><svg><script> c </script></svg>"
    let out := "<head><style>a</style>" ++ sampleJob.markup ++
      "</head><script type=x> b </script><svg><script>c</script></svg>"
    finish page sampleJob = .ok out ∧ haveWholeTexts (placesOf page) = true ∧
      codeStandsAlone (placesOf page) = true ∧ sampleJob.IsMarkup sampleJob.markup ∧
      out = String.join ((placesOf page).map
        (Place.finished sampleJob.markup (placesOf page))) := by
  intro page out
  have hfinish : finish page sampleJob = .ok out :=
    Except.toOption_eq_some_iff.1 (by decide +kernel)
  have hwhole : haveWholeTexts (placesOf page) = true := by decide +kernel
  have halone : codeStandsAlone (placesOf page) = true := by decide +kernel
  obtain ⟨hmarkup, -, hout, -⟩ := finish_edits_places hfinish hwhole halone
  exact ⟨hfinish, hwhole, halone, hmarkup, hout⟩

/-- The inner script has no type and no text. The text behind it is minified although it is the text
of the outer script. -/
theorem finish_differs_of_nested_script :
    let page := "<svg><script type=\"text/plain\"><script/>  // a\n  b</script></svg>"
    haveWholeTexts (placesOf page) = true ∧
      String.join ((placesOf page).map (Place.finished "" (placesOf page))) = page ∧
      finish page {} = .ok "<svg><script type=\"text/plain\"><script/>b</script></svg>" := by
  intro page
  have hwhole : haveWholeTexts (placesOf page) = true := by decide +kernel
  have hsame : String.join ((placesOf page).map (Place.finished "" (placesOf page))) = page := by
    decide +kernel
  exact ⟨hwhole, hsame, Except.toOption_eq_some_iff.1 (by decide +kernel)⟩

end StaticSite.Page
