import StaticSite.Proofs.Minify.Literals

/-!
# Tokens of a stylesheet

A sheet is a sequence of marks, escapes and strings with blanks and comments between them. It is
plain if no comment stands alone where a space would count, and no escaped character is taken for a
separator (`Sheet.IsPlain`). Then minifying the sheet gives its tidy form (`style_sheet`). A comment
alone becomes a space that says something (`style_parts_compound`), and an escaped quote opens a
string (`styleFrom_escaped_quote`).
-/

namespace StaticSite.Minify

namespace Sheet

/-! ## Tokens -/

/-- The characters that tokens have outside escapes and strings. -/
def isMark (c : Char) : Bool :=
  !Text.isBlank c && !isQuote c && c != '\\'

/-- The characters that an escape takes as they are. Behind a hexadecimal digit a blank may belong
to the escape. -/
def isEscapable (c : Char) : Bool :=
  !Text.isBlank c && !isQuote c && !"0123456789abcdefABCDEF".toList.contains c

/-- An identifier is a mark or an escape for each of its characters. -/
inductive Token where
  | mark (c : Char) (h : isMark c = true := by decide)
  | escape (c : Char) (h : isEscapable c = true := by decide)
  | string (quote : Char) (text : List Char) (hq : isQuote quote = true := by decide)
    (h : isQuotedText quote text = true := by decide)

namespace Token

/-- The text of a token. -/
def source : Token → List Char
  | mark c _ => [c]
  | escape c _ => ['\\', c]
  | string quote text _ _ => quote :: text ++ [quote]

/-- The first character of a token. -/
def first : Token → Char
  | mark c _ => c
  | escape _ _ => '\\'
  | string quote _ _ _ => quote

/-- The last character of a token. -/
def last : Token → Char
  | mark c _ => c
  | escape c _ => c
  | string quote _ _ _ => quote

/-- Whether a token is an escape. -/
def isEscape : Token → Bool
  | escape _ _ => true
  | _ => false

theorem reverse_source (token : Token) : ∃ r, token.source.reverse = token.last :: r := by
  cases token with
  | mark c h => exact ⟨[], rfl⟩
  | escape c h => exact ⟨['\\'], rfl⟩
  | string quote text hq h => exact ⟨(quote :: text).reverse, List.reverse_append⟩

end Token

/-- A blank or a comment. -/
inductive Space where
  | blank (c : Char) (h : Text.isBlank c = true := by decide)
  | comment (text : List Char) (h : IsCommentText text := by decide)

namespace Space

/-- A single blank. -/
def space : Space :=
  .blank ' ' isBlank_space

/-- The text of a space. -/
def source : Space → List Char
  | blank c _ => [c]
  | comment text _ => '/' :: '*' :: text ++ ['*', '/']

/-- Whether a space is a blank. -/
def isBlank : Space → Bool
  | blank _ _ => true
  | comment _ _ => false

end Space

end Sheet

/-- Tokens with blanks and comments before each, and behind the last one. -/
structure Sheet where
  tokens : List (List Sheet.Space × Sheet.Token)
  spaces : List Sheet.Space := []

namespace Sheet

/-- The text of some tokens with the spaces before them. -/
def sourceOf (tokens : List (List Space × Token)) : List Char :=
  tokens.flatMap fun (gap, token) => gap.flatMap Space.source ++ token.source

/-- The text of a sheet. -/
def source (s : Sheet) : List Char :=
  sourceOf s.tokens ++ s.spaces.flatMap Space.source

/-! ## Tidy form -/

/-- A space between the tokens says nothing. -/
def areTight (before next : Token) : Bool :=
  (!before.isEscape && tightAfter before.last) || tightBefore next.first

/-- A semicolon before a closing brace. -/
def isLastSemicolon (before next : Token) : Bool :=
  !before.isEscape && before.last == ';' && next.first == '\x7d'

/-- The space that stays between two tokens. -/
def spaceBetween (before : Token) (gap : List Space) (next : Token) : List Char :=
  if gap.any Space.isBlank && !areTight before next then [' '] else []

/-- The tidy form of a token and those behind it. -/
def tidyFrom (before : Token) : List (List Space × Token) → List Char
  | [] => before.source
  | (gap, next) :: rest =>
    (if isLastSemicolon before next then [] else before.source) ++ spaceBetween before gap next ++
      tidyFrom next rest

/-- The tidy form of a sheet. -/
def tidy (s : Sheet) : List Char :=
  match s.tokens with
  | [] => []
  | (_, token) :: rest => tidyFrom token rest

/-! ## Plain sheets -/

/-- No comment stands alone where a space would count. -/
def isPlainGap (before : Token) (gap : List Space) (next : Token) : Bool :=
  gap.isEmpty || gap.any Space.isBlank || areTight before next

/-- An escaped character is not taken for a separator. -/
def isPlainEscape (before : Token) (gap : List Space) (next : Token) : Bool :=
  (gap.isEmpty || !tightAfter before.last || tightBefore next.first) &&
    (before.last != ';' || next.first != '\x7d')

/-- Two tokens with nothing between them do not begin a comment. -/
def areApart (before : Token) (gap : List Space) (next : Token) : Bool :=
  !gap.isEmpty || before.last != '/' || next.first != '*'

/-- Whether a token may follow another one behind a gap. -/
def mayFollow (before : Token) (gap : List Space) (next : Token) : Bool :=
  isPlainGap before gap next && (!before.isEscape || isPlainEscape before gap next) &&
    areApart before gap next

/-- Whether each of some tokens may follow the one before it. -/
def arePlain (before : Token) : List (List Space × Token) → Bool
  | [] => true
  | (gap, next) :: rest => mayFollow before gap next && arePlain next rest

/-- Whether each token of a sheet may follow the one before it. -/
def isPlain (s : Sheet) : Bool :=
  match s.tokens with
  | [] => true
  | (_, token) :: rest => arePlain token rest

/-- Each token may follow the one before it. -/
def IsPlain (s : Sheet) : Prop :=
  s.isPlain = true

instance (s : Sheet) : Decidable s.IsPlain :=
  inferInstanceAs (Decidable (_ = true))

/-! ## Steps -/

section Steps

variable (out : List Char) (gap : Bool) (rest : List Char)

theorem styleFrom_nil : styleFrom out gap [] = out := by
  rw [styleFrom.eq_def]

theorem styleFrom_star :
    styleFrom out gap ('/' :: '*' :: rest) = styleFrom out true (splitComment rest).2 := by
  rw [styleFrom.eq_def]
  rfl

/-- The step at a character at which no comment starts. -/
theorem styleFrom_cons {c : Char} (h : c = '/' → rest.head? ≠ some '*') :
    styleFrom out gap (c :: rest) =
      if Text.isBlank c then styleFrom out true rest
      else if c = '"' ∨ c = '\'' then
        styleFrom ((splitQuoted c rest).1.reverse ++ c :: styleBefore gap c out) false
          (splitQuoted c rest).2
      else styleFrom (c :: styleBefore gap c out) false rest := by
  rw [styleFrom.eq_def]
  split
  · rename_i hnil
    cases hnil
  · rename_i hcons
    cases hcons
    exact absurd rfl (h rfl)
  · rename_i hcons
    cases hcons
    rfl

theorem styleFrom_space (space : Space) :
    styleFrom out gap (space.source ++ rest) = styleFrom out true rest := by
  cases space with
  | blank c h =>
    have hslash : c ≠ '/' := by
      rintro rfl
      cases h
    show styleFrom out gap (c :: rest) = _
    rw [styleFrom_cons out gap rest fun hc => absurd hc hslash, if_pos h]
  | comment text h =>
    have hsource : (Space.comment text h).source ++ rest = '/' :: '*' ::
        (text ++ '*' :: '/' :: rest) := by
      simp [Space.source]
    rw [hsource, styleFrom_star, splitComment_append_end h]

theorem styleFrom_spaces (spaces : List Space) :
    styleFrom out gap (spaces.flatMap Space.source ++ rest) =
      styleFrom out (gap || !spaces.isEmpty) rest := by
  induction spaces generalizing gap with
  | nil => simp
  | cons space spaces ih =>
    rw [List.flatMap_cons, List.append_assoc, styleFrom_space, ih]
    simp

/-- What stands behind the last token leaves nothing. -/
theorem styleFrom_lastSpaces (spaces : List Space) :
    styleFrom out gap (spaces.flatMap Space.source) = out := by
  have hspaces := styleFrom_spaces out gap [] spaces
  rw [List.append_nil] at hspaces
  exact hspaces.trans (styleFrom_nil out _)

theorem styleFrom_character {c : Char} (hblank : Text.isBlank c = false)
    (hquote : isQuote c = false) (h : c = '/' → rest.head? ≠ some '*') :
    styleFrom out gap (c :: rest) = styleFrom (c :: styleBefore gap c out) false rest := by
  have hq : ¬ (c = '"' ∨ c = '\'') := by simpa [isQuote] using hquote
  rw [styleFrom_cons out gap rest h, if_neg (Bool.eq_false_iff.1 hblank), if_neg hq]

theorem styleFrom_backslash :
    styleFrom out gap ('\\' :: rest) = styleFrom ('\\' :: styleBefore gap '\\' out) false rest :=
  styleFrom_character out gap rest (by decide) (by decide) nofun

/-- Behind a backslash nothing is left out. -/
theorem styleBefore_backslash (c : Char) : styleBefore false c ('\\' :: out) = '\\' :: out := by
  show (if c = '\x7d' then dropSemicolon ('\\' :: out) else '\\' :: out) = '\\' :: out
  split <;> rfl

/-- A token is written as it is; what is written before it depends on its first character. -/
theorem styleFrom_token (token : Token) (h : token.last = '/' → rest.head? ≠ some '*') :
    styleFrom out gap (token.source ++ rest) =
      styleFrom (token.source.reverse ++ styleBefore gap token.first out) false rest := by
  cases token with
  | mark c hc =>
    simp only [isMark, Bool.and_eq_true, Bool.not_eq_true'] at hc
    exact styleFrom_character out gap rest hc.1.1 hc.1.2 h
  | escape c hc =>
    simp only [isEscapable, Bool.and_eq_true, Bool.not_eq_true'] at hc
    refine (styleFrom_backslash out gap (c :: rest)).trans ?_
    rw [styleFrom_character _ false rest hc.1.1 hc.1.2 h, styleBefore_backslash]
    rfl
  | string quote text hq hc =>
    have hblank := Bool.eq_false_iff.1 (notBlank_of_isQuote hq)
    have hsource : (Token.string quote text hq hc).source ++ rest = quote ::
        (text ++ quote :: rest) := by
      simp [Token.source]
    rw [hsource, styleFrom_cons out gap _ fun he => absurd he (ne_of_isQuote hq rfl), if_neg hblank,
      if_pos (isQuote_cases hq), splitQuoted_append_quote hq hc]
    simp [Token.source, Token.first]

/-- An escaped quote outside strings opens a string all the same. -/
theorem styleFrom_escaped_quote {quote : Char} (hq : isQuote quote = true) {text : List Char}
    (h : isQuotedText quote text = true) :
    styleFrom out gap ('\\' :: (quote :: text ++ [quote] ++ rest)) =
      styleFrom ((quote :: text ++ [quote]).reverse ++ '\\' :: styleBefore gap '\\' out)
        false rest := by
  have hnext := styleFrom_token ('\\' :: styleBefore gap '\\' out) false rest
    (.string quote text hq h)
    fun he => absurd he (ne_of_isQuote hq rfl)
  rw [styleBefore_backslash] at hnext
  exact (styleFrom_backslash out gap _).trans hnext

end Steps

/-! ## Between two tokens -/

variable {before next : Token} {gap : List Space}

theorem spaceBetween_of_brace (hnext : next.first = '\x7d') :
    spaceBetween before gap next = [] := by
  simp [spaceBetween, areTight, hnext, tightBefore]

/-- The last character written and the next one tell where a space says nothing. -/
theorem spaceBefore_of_mayFollow (h : mayFollow before gap next = true) (hgap : gap ≠ [])
    (out : List Char) :
    spaceBefore next.first (before.last :: out) =
      spaceBetween before gap next ++ before.last :: out := by
  simp only [mayFollow, Bool.and_eq_true] at h
  obtain ⟨⟨hplain, hescape⟩, -⟩ := h
  have hnot : gap.isEmpty = false := by simpa using hgap
  unfold spaceBefore
  by_cases htight : areTight before next = true
  · have hchars : (tightAfter before.last || tightBefore next.first) = true := by
      unfold areTight at htight
      grind
    simp [spaceBetween, htight, hchars]
  · have hblank : gap.any Space.isBlank = true := by simpa [isPlainGap, hnot, htight] using hplain
    have hchars : (tightAfter before.last || tightBefore next.first) = false := by
      unfold areTight at htight
      unfold isPlainEscape at hescape
      grind
    simp [spaceBetween, htight, hblank, hchars]

theorem dropSemicolon_of_mayFollow (h : mayFollow before gap next = true)
    (hnext : next.first = '\x7d') (out : List Char) :
    dropSemicolon (before.source.reverse ++ out) =
      (if isLastSemicolon before next then [] else before.source).reverse ++ out := by
  simp only [mayFollow, Bool.and_eq_true] at h
  obtain ⟨⟨-, hescape⟩, -⟩ := h
  by_cases hlast : before.last = ';'
  · cases before with
    | mark c hc =>
      obtain rfl : c = ';' := hlast
      simp [isLastSemicolon, Token.isEscape, Token.last, hnext, Token.source, dropSemicolon]
    | escape c hc => simp [isPlainEscape, Token.isEscape, hlast, hnext] at hescape
    | string quote text hq hc =>
      obtain rfl : quote = ';' := hlast
      cases hq
  · obtain ⟨r, hr⟩ := before.reverse_source
    have hkeep : dropSemicolon (before.last :: (r ++ out)) = before.last :: (r ++ out) := by
      unfold dropSemicolon
      split
      · rename_i he
        exact absurd (List.cons.inj he).1 hlast
      · rfl
    simp [isLastSemicolon, hlast, hr, hkeep]

/-- What is written between two tokens, and of the first of them. -/
theorem styleBefore_of_mayFollow (h : mayFollow before gap next = true) (out : List Char) :
    styleBefore (!gap.isEmpty) next.first (before.source.reverse ++ out) =
      ((if isLastSemicolon before next then [] else before.source) ++
        spaceBetween before gap next).reverse ++ out := by
  have hspace : (if !gap.isEmpty then spaceBefore next.first (before.source.reverse ++ out)
      else before.source.reverse ++ out) =
        spaceBetween before gap next ++ (before.source.reverse ++ out) := by
    by_cases hgap : gap = []
    · simp [hgap, spaceBetween]
    · obtain ⟨r, hr⟩ := before.reverse_source
      rw [hr]
      simpa [hgap] using spaceBefore_of_mayFollow h hgap (r ++ out)
  unfold styleBefore
  rw [hspace]
  by_cases hnext : next.first = '\x7d'
  · rw [if_pos hnext, spaceBetween_of_brace hnext]
    simpa using dropSemicolon_of_mayFollow h hnext out
  · have hreverse : (spaceBetween before gap next).reverse = spaceBetween before gap next := by
      unfold spaceBetween
      split <;> rfl
    simp [hnext, isLastSemicolon, hreverse]

/-! ## Runs -/

theorem head_spaces {spaces : List Space} (h : spaces ≠ []) (rest : List Char) :
    (spaces.flatMap Space.source ++ rest).head? ≠ some '*' := by
  obtain ⟨space, spaces, rfl⟩ := List.exists_cons_of_ne_nil h
  cases space with
  | blank c hc =>
    rintro ⟨⟩
    cases hc
  | comment text hc => nofun

/-- Behind a slash no comment begins between tokens. -/
theorem head_of_arePlain {tokens : List (List Space × Token)} (h : arePlain before tokens = true)
    (hlast : before.last = '/') (spaces : List Space) :
    (sourceOf tokens ++ spaces.flatMap Space.source).head? ≠ some '*' := by
  cases tokens with
  | nil =>
    by_cases hspaces : spaces = []
    · subst hspaces
      nofun
    · simpa [sourceOf] using head_spaces hspaces []
  | cons first tokens =>
    obtain ⟨gap, next⟩ := first
    have hsource : sourceOf ((gap, next) :: tokens) ++ spaces.flatMap Space.source =
        gap.flatMap Space.source ++
          (next.source ++ (sourceOf tokens ++ spaces.flatMap Space.source)) := by
      simp [sourceOf]
    rw [hsource]
    by_cases hgap : gap = []
    · have happart : areApart before gap next = true :=
        (Bool.and_eq_true_iff.1 (Bool.and_eq_true_iff.1 h).1).2
      have hnext : next.first ≠ '*' := by simpa [areApart, hgap, hlast] using happart
      subst hgap
      cases next <;> exact fun he => hnext (Option.some.inj he)
    · exact head_spaces hgap _

/-- A step over a gap and the token behind it. -/
theorem styleFrom_gap_token (out : List Char) (gap : List Space) (token : Token) (rest : List Char)
    (h : token.last = '/' → rest.head? ≠ some '*') :
    styleFrom out false (gap.flatMap Space.source ++ token.source ++ rest) =
      styleFrom (token.source.reverse ++ styleBefore (!gap.isEmpty) token.first out)
        false rest := by
  rw [List.append_assoc, styleFrom_spaces, Bool.false_or, styleFrom_token out _ rest token h]

/-- Minifying the rest of a sheet behind a token. -/
theorem styleFrom_tokens {tokens : List (List Space × Token)} (h : arePlain before tokens = true)
    (spaces : List Space) (out : List Char) :
    styleFrom (before.source.reverse ++ out) false
      (sourceOf tokens ++ spaces.flatMap Space.source) =
      (tidyFrom before tokens).reverse ++ out := by
  induction tokens generalizing before out with
  | nil => exact styleFrom_lastSpaces _ false spaces
  | cons first tokens ih =>
    obtain ⟨gap, next⟩ := first
    obtain ⟨hfollow, hrest⟩ := Bool.and_eq_true_iff.1 h
    have hsource : sourceOf ((gap, next) :: tokens) ++ spaces.flatMap Space.source =
        gap.flatMap Space.source ++ next.source ++
          (sourceOf tokens ++ spaces.flatMap Space.source) :=
      List.append_assoc _ _ _
    have hhead (hlast : next.last = '/') := head_of_arePlain hrest hlast spaces
    rw [hsource, styleFrom_gap_token _ gap next _ hhead, styleBefore_of_mayFollow hfollow, ih hrest]
    simp [tidyFrom]

theorem styleFrom_source (s : Sheet) (h : s.IsPlain) :
    styleFrom [] false s.source = s.tidy.reverse := by
  obtain ⟨tokens, spaces⟩ := s
  cases tokens with
  | nil => exact styleFrom_lastSpaces [] false spaces
  | cons first tokens =>
    obtain ⟨gap, token⟩ := first
    have hhead (hlast : token.last = '/') := head_of_arePlain h hlast spaces
    have hstart : styleBefore (!gap.isEmpty) token.first [] = [] := by
      cases gap <;> simp [styleBefore, spaceBefore, dropSemicolon]
    calc styleFrom [] false (source ⟨(gap, token) :: tokens, spaces⟩)
        = styleFrom [] false (gap.flatMap Space.source ++ token.source ++
            (sourceOf tokens ++ spaces.flatMap Space.source)) :=
          congrArg (styleFrom [] false) (List.append_assoc _ _ _)
      _ = styleFrom (token.source.reverse ++ []) false (sourceOf tokens ++
        spaces.flatMap Space.source) := by
          rw [styleFrom_gap_token [] gap token _ hhead, hstart]
      _ = (tidyFrom token tokens).reverse := by rw [styleFrom_tokens h, List.append_nil]

end Sheet

/-- Minifying a plain sheet gives its tidy form. -/
theorem style_sheet (s : Sheet) (h : s.IsPlain) :
    style (String.ofList s.source) = String.ofList s.tidy := by
  rw [style, String.toList_ofList, s.styleFrom_source h, List.reverse_reverse]

/-- A descendant selector with an escape in it, and a string with an escape in it. -/
def Sheet.descendant : Sheet where
  tokens := [([.comment ['"']], .mark 'a'), ([.blank '\n', .comment ['*'], .space], .mark '.'),
    ([], .mark 'b'), ([], .escape ':'), ([], .mark 'c'), ([.space], .mark '\x7b'),
    ([.comment []], .mark 'x'), ([], .mark ':'), ([.space], .string '"' "\\\";\x7d /**/".toList),
    ([.space], .mark ';'), ([.blank '\n'], .mark '\x7d')]
  spaces := [.blank '\n']

theorem style_sheet_of_descendant :
    Sheet.descendant.IsPlain ∧
      style "/*\"*/a\n/***/ .b\\:c \x7b/**/x: \"\\\";\x7d /**/\" ;\n\x7d\n" =
        "a .b\\:c\x7bx:\"\\\";\x7d /**/\"\x7d" :=
  ⟨by decide, style_sheet Sheet.descendant (by decide)⟩

/-- A compound selector with a comment in it. -/
def Sheet.compound : Sheet where
  tokens := [([], .mark 'a'), ([.comment []], .mark '.'), ([], .mark 'b'), ([], .mark '\x7b'),
    ([], .mark '\x7d')]

theorem style_parts_compound :
    String.ofList Sheet.compound.source = "a/**/.b\x7b\x7d" ∧
      String.ofList Sheet.compound.tidy = "a.b\x7b\x7d" ∧
        style "a/**/.b\x7b\x7d" = "a .b\x7b\x7d" :=
  ⟨by decide, by decide, by decide +kernel⟩

end StaticSite.Minify
