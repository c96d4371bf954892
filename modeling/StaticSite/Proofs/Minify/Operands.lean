import StaticSite.Proofs.Minify.Steps
import StaticSite.Proofs.Text.Blank

/-!
# Regular expressions where operands are expected

A listing is a sequence of words, marks, strings and regular expressions. It is plain if each
regular expression stands first or behind a word or a mark that expects an operand
(`Listing.IsPlain`). Then every slash that opens one is told from a division, and minifying the
listing gives its tidy form (`script_listing`). Behind the parenthesis of a condition a regular
expression is not told (`script_cut_behind_condition`).
-/

namespace StaticSite.Minify

/-! ## Listings -/

/-- What a listing is made of. Identifiers, keywords, numbers and flags are words. -/
inductive Lexeme where
  | word (text : List Char) (hne : text ≠ [] := by decide)
    (h : text.all isWordChar = true := by decide)
  | mark (c : Char) (h : isCode c = true := by decide) (hw : isWordChar c = false := by decide)
  | string (quote : Char) (text : List Char) (hq : isQuote quote = true := by decide)
    (h : isStringText quote text = true := by decide)
  | regex (text : List Char) (h : isRegexText false text = true := by decide)
    (hs : startsRegex text = true := by decide)

/-- Lexemes with blanks and comments before each, and behind the last one. -/
structure Listing where
  lexemes : List (List Filler × Lexeme)
  fillers : List Filler := []
  comment : Option LastComment := none

theorem isWordChar_of_isBlank {c : Char} (h : Text.isBlank c = true) : isWordChar c = false := by
  have hmarks := Text.of_isBlank (P := fun c => (c == '_') = false ∧ (c == '$') = false)
    (by decide) h
  simp [isWordChar, Text.not_isLetter_of_isBlank h, Text.not_isNumeral_of_isBlank h, hmarks]

theorem notBlank_of_isWordChar {c : Char} (h : isWordChar c = true) : Text.isBlank c = false := by
  refine Bool.eq_false_iff.2 fun hb => ?_
  rw [isWordChar_of_isBlank hb] at h
  cases h

namespace Lexeme

/-- The text of a lexeme. -/
def source : Lexeme → List Char
  | word text _ _ => text
  | mark c _ _ => [c]
  | string quote text _ _ => quote :: text ++ [quote]
  | regex text _ _ => '/' :: text ++ ['/']

/-- Whether a lexeme is a word. -/
def isWord : Lexeme → Bool
  | word _ _ _ => true
  | _ => false

theorem getLast_source (lexeme : Lexeme) : ∃ c ∈ lexeme.source.getLast?, c ≠ '\n' ∧
    (lexeme.isWord = false → isWordChar c = false) := by
  cases lexeme with
  | word text hne h =>
    have hlast := notBlank_of_isWordChar (List.all_eq_true.1 h _ (List.getLast_mem hne))
    exact ⟨_, List.getLast?_eq_some_getLast hne, ne_newline_of_notBlank hlast, nofun⟩
  | mark c h hw => exact ⟨c, rfl, ne_newline_of_notBlank (isCode_iff.1 h).1, fun _ => hw⟩
  | string quote text hq h =>
    exact ⟨quote, List.getLast?_concat, ne_of_isQuote hq rfl, fun _ => notWordChar_of_isQuote hq⟩
  | regex text h hs => exact ⟨'/', List.getLast?_concat, by decide, fun _ => by decide⟩

/-- A lexeme as a part of a script. -/
def part (lexeme : Lexeme) : Part :=
  .code lexeme.source (let ⟨c, hc, hne, _⟩ := lexeme.getLast_source; ⟨c, hc, hne⟩)

/-- Whether a lexeme is a regular expression. -/
def isRegex : Lexeme → Bool
  | regex _ _ _ => true
  | _ => false

/-- Whether an operand is expected behind a lexeme. -/
def expectsOperand : Lexeme → Bool
  | word text _ _ => operandWords.contains text
  | mark c _ _ => operandMarks.contains c
  | string _ _ _ _ | regex _ _ _ => false

end Lexeme

namespace Listing

/-- Two words are apart, and a regular expression stands where an operand is expected. -/
def mayFollow (before : Option Lexeme) (gap : List Filler) (lexeme : Lexeme) : Bool :=
  (!lexeme.isWord || !before.any Lexeme.isWord || !gap.isEmpty) &&
    (!lexeme.isRegex || before.all Lexeme.expectsOperand)

/-- Whether each of some lexemes may follow the one before it. -/
def arePlain : Option Lexeme → List (List Filler × Lexeme) → Bool
  | _, [] => true
  | before, (gap, lexeme) :: rest => mayFollow before gap lexeme && arePlain (some lexeme) rest

/-- Each lexeme may follow the one before it. -/
def IsPlain (s : Listing) : Prop :=
  arePlain none s.lexemes = true

instance (s : Listing) : Decidable s.IsPlain :=
  inferInstanceAs (Decidable (_ = true))

/-- The parts of some lexemes with the gaps before them. -/
def partsOf : List (List Filler × Lexeme) → List Part
  | [] => []
  | (gap, lexeme) :: rest => gap.map .filler ++ lexeme.part :: partsOf rest

/-- The parts of a listing. -/
def parts (s : Listing) : List Part :=
  partsOf s.lexemes ++ s.fillers.map .filler

/-- The text of a listing. -/
def source (s : Listing) : List Char :=
  sourceOf s.parts ++ (s.comment.map LastComment.source).getD []

end Listing

/-! ## Words and marks -/

theorem isCode_of_isWordChar {c : Char} (h : isWordChar c = true) :
    isCode c = true ∧ c ≠ '\x7b' ∧ c ≠ '\x7d' := by
  have hne {d : Char} (hd : isWordChar d = false) : c ≠ d := by
    rintro rfl
    rw [h] at hd
    cases hd
  have hquote : ¬ (c = '"' ∨ c = '\'') := not_or.2 ⟨hne (by decide), hne (by decide)⟩
  have hcode := isCode_iff.2 ⟨notBlank_of_isWordChar h, hquote, hne (by decide), hne (by decide)⟩
  exact ⟨hcode, hne (by decide), hne (by decide)⟩

theorem scriptFrom_word {text : List Char} (hne : text ≠ []) (h : ∀ c ∈ text, isWordChar c = true)
    (p : Progress) (rest : List Char) :
    scriptFrom p (text ++ rest) = scriptFrom (p.emit text) rest := by
  induction text generalizing p with
  | nil => exact absurd rfl hne
  | cons c text ih =>
    obtain ⟨hc, hopen, hclose⟩ := isCode_of_isWordChar (h c List.mem_cons_self)
    rw [List.cons_append, scriptFrom_code p _ hc hopen hclose]
    by_cases ht : text = []
    · rw [ht, List.nil_append]
    · rw [ih ht (fun d hd => h d (List.mem_cons_of_mem c hd)), Progress.emit_emit,
        List.singleton_append]

/-- Outside templates braces only change the depth. -/
theorem scriptFrom_mark {c : Char} (h : isCode c = true) {p : Progress} (hp : p.templates = [])
    (rest : List Char) :
    ∃ depth, scriptFrom p (c :: rest) = scriptFrom ((p.emit [c]).withDepths depth []) rest := by
  by_cases hopen : c = '\x7b'
  · rw [hopen, scriptFrom_open, hp]
    exact ⟨_, rfl⟩
  · by_cases hclose : c = '\x7d'
    · rw [hclose, scriptFrom_close, hp, if_neg (by simp)]
      exact ⟨_, rfl⟩
    · rw [scriptFrom_code p rest h hopen hclose, ← hp]
      exact ⟨p.depth, rfl⟩

theorem scriptFrom_lexeme {p : Progress} (hp : p.templates = []) (lexeme : Lexeme)
    (ho : lexeme.isRegex = true → opensRegex p.out = true) (rest : List Char) :
    ∃ depth, scriptFrom p (lexeme.source ++ rest) =
      scriptFrom ((p.emit lexeme.source).withDepths depth []) rest := by
  have hsame : p.emit lexeme.source = (p.emit lexeme.source).withDepths p.depth [] := by
    rw [← hp]
    rfl
  cases lexeme with
  | word text hne h => exact ⟨p.depth, hsame ▸ scriptFrom_word hne (List.all_eq_true.1 h) p rest⟩
  | mark c h hw => exact scriptFrom_mark h hp rest
  | string quote text hq h =>
    refine ⟨p.depth, hsame ▸ ?_⟩
    exact (congrArg _ (List.append_assoc _ _ _)).trans (scriptFrom_string p rest hq h)
  | regex text h hs =>
    refine ⟨p.depth, hsame ▸ ?_⟩
    exact (congrArg _ (List.append_assoc _ _ _)).trans (scriptFrom_regex p rest (ho rfl) h hs)

/-! ## What was written last -/

/-- The output, which is held in reverse, ends in the lexeme. -/
def EndsIn (out : List Char) : Option Lexeme → Prop
  | none => out = []
  | some lexeme => ∃ r, out = lexeme.source.reverse ++ r ∧
    (lexeme.isWord = true → ∀ c ∈ r.head?, isWordChar c = false)

theorem opensRegex_cons {c : Char} (h : Text.isBlank c = false) (out : List Char) :
    opensRegex (c :: out) =
      if (c :: out).takeWhile isWordChar = [] then operandMarks.contains c
      else operandWords.contains ((c :: out).takeWhile isWordChar).reverse := by
  have hbefore : (c :: out).dropWhile Text.isBlank = c :: out := by simp [h]
  unfold opensRegex
  simp only [hbefore]

theorem opensRegex_of_mark {c : Char} (h : Text.isBlank c = false) (hw : isWordChar c = false)
    (out : List Char) : opensRegex (c :: out) = operandMarks.contains c := by
  have hword : (c :: out).takeWhile isWordChar = [] := by simp [hw]
  rw [opensRegex_cons h, if_pos hword]

theorem opensRegex_of_word {text : List Char} (hne : text ≠ [])
    (h : ∀ c ∈ text, isWordChar c = true)
    {out : List Char} (hout : ∀ c ∈ out.head?, isWordChar c = false) :
    opensRegex (text.reverse ++ out) = operandWords.contains text := by
  have hword : (text.reverse ++ out).takeWhile isWordChar = text.reverse := by
    rw [List.takeWhile_append_of_pos fun c hc => h c (List.mem_reverse.1 hc)]
    cases out with
    | nil => simp
    | cons c out => simp [hout c rfl]
  have hrev : text.reverse ≠ [] := List.reverse_ne_nil_iff.2 hne
  obtain ⟨c, s, hs⟩ := List.exists_cons_of_ne_nil hrev
  have hc : c ∈ text := List.mem_reverse.1 (hs ▸ List.mem_cons_self)
  have hcons : text.reverse ++ out = c :: (s ++ out) := congrArg (· ++ out) hs
  rw [hcons, opensRegex_cons (notBlank_of_isWordChar (h c hc)), ← hcons, hword, if_neg hrev,
    List.reverse_reverse]

/-- The last lexeme says whether a slash opens a regular expression. -/
theorem opensRegex_of_endsIn {out : List Char} {before : Option Lexeme} (h : EndsIn out before) :
    opensRegex out = before.all Lexeme.expectsOperand := by
  cases before with
  | none =>
    obtain rfl : out = [] := h
    rfl
  | some lexeme =>
    obtain ⟨r, rfl, hr⟩ := h
    cases lexeme with
    | word text hne h => exact opensRegex_of_word hne (List.all_eq_true.1 h) (hr rfl)
    | mark c h hw => exact opensRegex_of_mark (isCode_iff.1 h).1 hw r
    | string quote text hq h =>
      rw [Lexeme.source, List.reverse_append, List.append_assoc]
      refine (opensRegex_of_mark (notBlank_of_isQuote hq) (notWordChar_of_isQuote hq) _).trans ?_
      rcases isQuote_cases hq with rfl | rfl <;> rfl
    | regex text h hs =>
      rw [Lexeme.source, List.reverse_append, List.append_assoc]
      exact opensRegex_of_mark (by decide) (by decide) _

theorem EndsIn.isWordChar_head {out : List Char} {before : Option Lexeme} (he : EndsIn out before)
    (hword : before.any Lexeme.isWord = false) {c : Char} (hc : c ∈ out.head?) :
    isWordChar c = false := by
  cases before with
  | none =>
    obtain rfl : out = [] := he
    cases hc
  | some last =>
    obtain ⟨r, rfl, -⟩ := he
    obtain ⟨d, hd, -, hmark⟩ := last.getLast_source
    rw [List.head?_append, List.head?_reverse, Option.mem_def.1 hd] at hc
    obtain rfl := Option.some.inj hc
    exact hmark hword

/-- Where a lexeme may follow, the output ends in it. -/
theorem EndsIn.emit {p : Progress} {before : Option Lexeme} (he : EndsIn p.out before)
    {gap : List Filler} (hp : p.IsBehind (gap.map Filler.asBlank)) {lexeme : Lexeme}
    (hf : Listing.mayFollow before gap lexeme = true) :
    EndsIn (p.emit lexeme.source).out (some lexeme) := by
  refine ⟨_, hp.out_emit lexeme.source, fun hword c hc => ?_⟩
  by_cases hout : p.out = []
  · rw [hout] at hc
    cases hc
  rw [if_neg hout] at hc
  by_cases hgap : gap = []
  · have hbefore : before.any Lexeme.isWord = false := by
      simpa [Listing.mayFollow, hword, hgap] using (Bool.and_eq_true_iff.1 hf).1
    rw [hgap] at hc
    exact he.isWordChar_head hbefore hc
  · -- The gap is written, and it ends in a blank.
    have hne : squeeze (gap.map Filler.asBlank) ≠ [] := by simpa [squeeze_eq_nil_iff] using hgap
    have hblank : ∀ d ∈ gap.map Filler.asBlank, Text.isBlank d = true := by
      simpa using fun f _ => f.isBlank_asBlank
    rw [List.head?_append, List.head?_reverse, List.getLast?_eq_some_getLast hne] at hc
    obtain rfl := Option.some.inj hc
    exact isWordChar_of_isBlank (isBlank_of_mem_squeeze hblank (List.getLast_mem hne))

/-! ## Reading -/

namespace Progress

/-- What holds behind a lexeme, before any blank. -/
structure IsAfter (p : Progress) (before : Option Lexeme) : Prop where
  templates : p.templates = []
  endsIn : EndsIn p.out before
  behind : p.IsBehind []

theorem isAfter_start : start.IsAfter none :=
  ⟨rfl, rfl, .start⟩

variable {p : Progress} {before : Option Lexeme}

/-- A step over a gap and the lexeme behind it. -/
theorem IsAfter.step (h : p.IsAfter before) {gap : List Filler} {lexeme : Lexeme}
    (hf : Listing.mayFollow before gap lexeme = true) (rest : List Char) :
    ∃ depth, let q := (p.write (gap.map .filler ++ [lexeme.part])).withDepths depth []
      scriptFrom p (sourceOf (gap.map .filler ++ [lexeme.part]) ++ rest) = scriptFrom q rest ∧
        q.IsAfter (some lexeme) := by
  let passed := p.write (gap.map .filler)
  obtain ⟨hout, hbehind⟩ : passed.out = p.out ∧ passed.IsBehind (gap.map Filler.asBlank) :=
    h.behind.write_fillers gap
  have hends : EndsIn passed.out before := hout ▸ h.endsIn
  have hopens : lexeme.isRegex = true → opensRegex passed.out = true := by
    intro hregex
    rw [opensRegex_of_endsIn hends]
    simpa [Listing.mayFollow, hregex] using (Bool.and_eq_true_iff.1 hf).2
  have htemplates : passed.templates = [] := (templates_write p _).trans h.templates
  obtain ⟨depth, hread⟩ := scriptFrom_lexeme htemplates lexeme hopens rest
  have hwrite : p.write (gap.map .filler ++ [lexeme.part]) = passed.emit lexeme.source :=
    write_append p _ _
  refine ⟨depth, ?_, rfl, ?_, ?_⟩
  · rw [sourceOf_append, List.append_assoc, scriptFrom_fillers, hwrite]
    exact (congrArg (scriptFrom passed <| · ++ rest) (List.append_nil _)).trans hread
  · rw [hwrite]
    exact hends.emit hbehind hf
  · rw [hwrite]
    obtain ⟨c, hc, hne, -⟩ := lexeme.getLast_source
    have hcode := hbehind.code ⟨c, hc, hne⟩
    exact ⟨hcode.gap, hcode.last⟩

/-- A run over lexemes. -/
theorem IsAfter.run (h : p.IsAfter before) {lexemes : List (List Filler × Lexeme)}
    (hp : Listing.arePlain before lexemes = true) (rest : List Char) :
    ∃ depth, scriptFrom p (sourceOf (Listing.partsOf lexemes) ++ rest) =
      scriptFrom ((p.write (Listing.partsOf lexemes)).withDepths depth []) rest := by
  induction lexemes generalizing p before with
  | nil => exact ⟨p.depth, by rw [← h.templates]; rfl⟩
  | cons first lexemes ih =>
    obtain ⟨gap, lexeme⟩ := first
    obtain ⟨hf, hp⟩ := Bool.and_eq_true_iff.1 hp
    let parts := gap.map Part.filler ++ [lexeme.part]
    have hparts : Listing.partsOf ((gap, lexeme) :: lexemes) = parts ++ Listing.partsOf lexemes :=
      List.append_cons _ _ _
    obtain ⟨inner, hstep, hafter⟩ := h.step hf (sourceOf (Listing.partsOf lexemes) ++ rest)
    obtain ⟨depth, hrun⟩ := ih hafter hp
    refine ⟨depth, ?_⟩
    rw [hparts, sourceOf_append, List.append_assoc, hstep, hrun, write_withDepths,
      write_append p parts]
    rfl

end Progress

/-- Minifying a plain listing gives its tidy form. -/
theorem script_listing (s : Listing) (h : s.IsPlain) :
    script (String.ofList s.source) = String.ofList (tidy s.parts) := by
  obtain ⟨depth, hrun⟩ := Progress.isAfter_start.run h
    (sourceOf (s.fillers.map .filler) ++ (s.comment.map LastComment.source).getD [])
  have hread : scriptFrom .start s.source = (Progress.start.write s.parts).withDepths depth [] := by
    unfold Listing.source Listing.parts
    rw [sourceOf_append, List.append_assoc, hrun, scriptFrom_fillers, scriptFrom_lastComment,
      Progress.write_withDepths, ← Progress.write_append]
  exact script_of_write hread

/-- Regular expressions with a class and an escape, behind a mark and behind a word. -/
def Listing.classes : Listing where
  lexemes := [([], .word ['x']), ([.space], .mark '='),
    ([.space, .block "\"".toList], .regex "[/\"]\\/".toList), ([], .word ['g']), ([], .mark ';'),
    ([.line ['/']], .word "return".toList), ([], .regex ['a'])]

theorem script_listing_of_classes :
    Listing.classes.IsPlain ∧
      script "x = /*\"*//[/\"]\\//g;///\nreturn/a/" = "x =  /[/\"]\\//g;\nreturn/a/" :=
  ⟨by decide, script_listing Listing.classes (by decide)⟩

/-- A regular expression behind the parenthesis of a condition. -/
def Listing.condition : Listing where
  lexemes := [([], .word "if".toList), ([.space], .mark '('), ([], .word ['a']), ([], .mark ')'),
    ([.space], .regex "\\/\\/".toList), ([], .mark '.'), ([], .word "test".toList), ([], .mark '('),
    ([], .word ['b']), ([], .mark ')'), ([], .mark ';')]

theorem script_cut_behind_condition :
    String.ofList Listing.condition.source = "if (a) /\\/\\//.test(b);" ∧
    String.ofList (tidy Listing.condition.parts) = "if (a) /\\/\\//.test(b);" ∧
      script "if (a) /\\/\\//.test(b);" = "if (a) /\\/\\" := by
  refine ⟨by decide, by decide, by decide +kernel⟩

end StaticSite.Minify
