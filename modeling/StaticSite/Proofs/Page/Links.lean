import Mathlib.Data.List.Forall2
import StaticSite.Page.Edit
import StaticSite.Proofs.Text.Entities

/-!
# What is added to the head

The markup for the head is a link for each stylesheet, in order, and then the minified style. A link
is a tag that says where its stylesheet is, whatever the name of the stylesheet has in it
(`stylesheetLink_reads`).
-/

namespace StaticSite.Page

/-- A text that is one tag, a link to the stylesheet that its reference stands for. -/
def IsStylesheetLink (href link : String) : Prop :=
  ∃ s tag, link.toList = '<' :: s ∧ opening .html s = .tag tag [] ∧
    tag.name = "link" ∧ tag.attribute? "rel" = some "stylesheet" ∧
    (tag.attribute? "href").map (fun value => Text.decodeEntities value.toList) = some href.toList

/-- A text that is a link for each stylesheet in order, and then the minified style, if any. -/
def HeadJob.IsMarkup (job : HeadJob) (markup : String) : Prop :=
  ∃ links, List.Forall₂ (fun name link => IsStylesheetLink (stylesheetHref name) link)
    job.stylesheets links ∧
    markup = String.join links ++
      job.inlineStyle.elim "" fun css => "<style>" ++ Minify.style css ++ "</style>"

/-- Where a text goes on behind a part of characters that satisfy `p`. -/
theorem takeWhile_part {p : Char → Bool} {part rest : List Char} {c : Char}
    (hp : ∀ x ∈ part, p x = true) (hc : p c = false) : (part ++ c :: rest).takeWhile p = part := by
  rw [List.takeWhile_append_of_pos hp, List.takeWhile_cons_of_neg (by simp [hc]), List.append_nil]

theorem splitValue_quoted {value rest : List Char} (h : '"' ∉ value) :
    splitValue ('"' :: value ++ '"' :: rest) = some (value, rest) := by
  have htake : (value ++ '"' :: rest).takeWhile (· != '"') = value :=
    takeWhile_part (fun x hx => by simpa using fun he : x = '"' => h (he ▸ hx)) (by decide)
  have hspace : ('"' :: value ++ '"' :: rest).dropWhile isSpace = '"' :: (value ++ '"' :: rest) :=
    List.dropWhile_cons_of_neg (by decide)
  unfold splitValue
  rw [hspace]
  simp [isQuote, htake]

/-- Reading an attribute with a value between double quotes. -/
theorem attributesFrom_quoted {c : Char} {tail value rest : List Char}
    (hname : (c :: tail).any endsAttributeName = false) (hvalue : '"' ∉ value) (fuel : Nat)
    (found : List (String × String)) :
    attributesFrom found (fuel + 1) (' ' :: c :: tail ++ '=' :: '"' :: value ++ '"' :: rest) =
      attributesFrom ((lowerName (c :: tail), String.ofList value) :: found) fuel rest := by
  have hname : ∀ x ∈ c :: tail, endsAttributeName x = false := fun x hx => by
    simpa using List.any_eq_false.1 hname x hx
  have hc := hname c List.mem_cons_self
  simp only [endsAttributeName, endsName, Bool.or_eq_false_iff, beq_eq_false_iff_ne] at hc
  obtain ⟨⟨⟨hspace, hslash⟩, hclose⟩, -⟩ := hc
  have hbegin : (' ' :: c :: tail ++ '=' :: '"' :: value ++ '"' :: rest).dropWhile isSpace =
      c :: (tail ++ '=' :: ('"' :: value ++ '"' :: rest)) := by
    simp [hspace, show isSpace ' ' = true by decide]
  have htail : (tail ++ '=' :: ('"' :: value ++ '"' :: rest)).takeWhile (!endsAttributeName ·) =
      tail :=
    takeWhile_part (fun x hx => by simp [hname x (List.mem_cons_of_mem c hx)]) (by decide)
  have hequals : ('=' :: ('"' :: value ++ '"' :: rest)).dropWhile isSpace =
      '=' :: ('"' :: value ++ '"' :: rest) := List.dropWhile_cons_of_neg (by decide)
  rw [attributesFrom.eq_def]
  simp only [hbegin]
  split
  · rename_i h; cases h
  · rename_i r h; exact absurd (List.cons.inj h).1 hclose
  · rename_i r h; exact absurd (List.cons.inj h).1 hslash
  · rename_i r _ h; exact absurd (List.cons.inj h).1 hslash
  · rename_i x r _ _ _ h
    obtain ⟨rfl, rfl⟩ := List.cons.inj h
    simp only [htail, List.drop_left, hequals, splitValue_quoted hvalue]
    rfl

theorem splitTag_link {value : List Char} (h : '"' ∉ value) :
    splitTag ("link rel=\"stylesheet\" href=\"".toList ++ value ++ ['"', '>']) =
      some (⟨"link", [("rel", "stylesheet"), ("href", String.ofList value)], false⟩, []) := by
  let second := ' ' :: "href".toList ++ '=' :: '"' :: value ++ '"' :: ['>']
  let first := ' ' :: "rel".toList ++ '=' :: '"' :: "stylesheet".toList ++ '"' :: second
  have hchars : "link rel=\"stylesheet\" href=\"".toList ++ value ++ ['"', '>'] =
      "link".toList ++ first := by
    simp [first, second]
  have hname : ("link".toList ++ first).takeWhile (!endsName ·) = "link".toList :=
    takeWhile_part (List.all_eq_true.1 (by decide)) (by decide)
  have hread (n : Nat) : attributesFrom [] (n + 3) first =
      some ([("rel", "stylesheet"), ("href", String.ofList value)], false, []) := by
    have hrel : attributesFrom [] (n + 3) first =
        attributesFrom [("rel", "stylesheet")] (n + 2) second :=
      attributesFrom_quoted (by decide) (by decide) (n + 2) []
    have hhref : attributesFrom [("rel", "stylesheet")] (n + 2) second =
        attributesFrom [("href", String.ofList value), ("rel", "stylesheet")] (n + 1) ['>'] :=
      attributesFrom_quoted (by decide) h (n + 1) [("rel", "stylesheet")]
    exact hrel.trans hhref
  have hlength : ("link".toList ++ first).length + 1 = ("link".toList ++ first).length - 2 + 3 := by
    simp [first, second]
  rw [hchars, splitTag, hname, List.drop_left, hlength, hread]
  rfl

theorem opening_of_splitTag {language : Language} {c : Char} {s rest : List Char} {tag : Tag}
    (hc : isLetter c = true) (h : splitTag (c :: s) = some (tag, rest)) :
    opening language (c :: s) = .tag tag rest := by
  have hne {m : Char} (hm : isLetter m = false) : c ≠ m := by
    rintro rfl
    simp [hc] at hm
  have hbang := hne (m := '!') (by decide)
  have hask := hne (m := '?') (by decide)
  have hslash := hne (m := '/') (by decide)
  unfold opening
  split <;> simp_all

/-- A link behind its opening bracket. -/
def linkBody (value : String) : List Char :=
  "link rel=\"stylesheet\" href=\"".toList ++ value.toList ++ ['"', '>']

theorem toList_link (value : String) :
    ("<link rel=\"stylesheet\" href=\"" ++ value ++ "\">").toList = '<' :: linkBody value := by
  unfold linkBody
  simp

theorem opening_linkBody {value : String} (h : '"' ∉ value.toList) :
    opening .html (linkBody value) =
      .tag ⟨"link", [("rel", "stylesheet"), ("href", value)], false⟩ [] := by
  have hread := splitTag_link h
  rw [String.ofList_toList] at hread
  have hcons : linkBody value = 'l' :: (linkBody value).tail := by
    unfold linkBody
    simp
  rw [hcons]
  refine opening_of_splitTag (by decide) ?_
  rw [← hcons]
  exact hread

theorem isStylesheetLink (name : String) :
    IsStylesheetLink (stylesheetHref name) (stylesheetLink name) :=
  ⟨_, _, toList_link _, opening_linkBody (Text.quote_notMem_escapeAttribute _), rfl, rfl,
    congrArg some (Text.decodeEntities_escapeAttribute _)⟩

theorem HeadJob.isMarkup (job : HeadJob) : job.IsMarkup job.markup := by
  refine ⟨job.stylesheets.map stylesheetLink, ?_, ?_⟩
  · exact List.forall₂_map_right_iff.2 (List.forall₂_same.2 fun name _ => isStylesheetLink name)
  · rw [HeadJob.markup]
    cases job.inlineStyle <;> rfl

end StaticSite.Page
