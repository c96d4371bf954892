import StaticSite.Minify.Script
import StaticSite.Minify.Style

/-!
# Literals and comments

What may stand between the ends of a string, a template, a regular expression and a block comment.
The reader of each kind takes such a text with its end, whatever stands behind it
(`splitString_append_quote` and its kin).
-/

namespace StaticSite.Minify

/-! ## Texts -/

/-- The characters at both ends of a string. -/
def isQuote (c : Char) : Bool :=
  c == '"' || c == '\''

section Quotes

variable {c : Char} (h : isQuote c = true)

include h

theorem isQuote_cases : c = '"' ∨ c = '\'' := by
  simpa [isQuote] using h

theorem ne_of_isQuote {d : Char} (hd : isQuote d = false) : c ≠ d := by
  rintro rfl
  cases hd.symm.trans h

theorem notBlank_of_isQuote : Text.isBlank c = false := by
  rcases isQuote_cases h with rfl | rfl <;> rfl

theorem notWordChar_of_isQuote : isWordChar c = false := by
  rcases isQuote_cases h with rfl | rfl <;> decide

end Quotes

/-- Escape pairs, and other characters that `p` allows. -/
def isEscaped (p : Char → Bool) : List Char → Bool
  | [] => true
  | ['\\'] => false
  | '\\' :: _ :: r => isEscaped p r
  | c :: r => p c && isEscaped p r

/-- The texts of strings in scripts. -/
def isStringText (quote : Char) : List Char → Bool :=
  isEscaped fun c => c != quote && c != '\n'

/-- The texts of strings in stylesheets. -/
def isQuotedText (quote : Char) : List Char → Bool :=
  isEscaped fun c => c != quote

/-- The texts in templates: no substitution and no backtick but escaped ones. -/
def isTemplateText : List Char → Bool
  | [] => true
  | ['\\'] => false
  | '\\' :: _ :: r => isTemplateText r
  | '$' :: '\x7b' :: _ => false
  | c :: r => c != '\x60' && isTemplateText r

/-- The texts of regular expressions from a place in a class or outside: no line ends, and slashes
only in classes or escaped. -/
def isRegexText (inClass : Bool) : List Char → Bool
  | [] => !inClass
  | ['\\'] => false
  | '\\' :: c :: r => c != '\n' && isRegexText inClass r
  | c :: r =>
    c != '\n' && (c != '/' || inClass) &&
      isRegexText (if c = '[' then true else if c = ']' then false else inClass) r

/-- The text of a regular expression begins neither like its end nor like a comment's. -/
def startsRegex : List Char → Bool
  | [] => false
  | c :: _ => c != '/' && c != '*'

/-- What may stand between the ends of a block comment. -/
def IsCommentText (text : List Char) : Prop :=
  ¬ ['*', '/'] <:+: text

instance (text : List Char) : Decidable (IsCommentText text) :=
  inferInstanceAs (Decidable (¬ _))

theorem isBlank_space : Text.isBlank ' ' = true := by
  decide

/-! ## Readers -/

theorem ne_backslash {c : Char} {r : List Char} (hlast : c = '\\' → r = [] → False)
    (hpair : ∀ d s, c = '\\' → r = d :: s → False) : c ≠ '\\' := by
  intro hc
  cases r with
  | nil => exact hlast hc rfl
  | cons d s => exact hpair d s hc rfl

theorem splitString_append_quote {quote : Char} (hq : isQuote quote = true) {text : List Char}
    (h : isStringText quote text = true) (rest : List Char) :
    splitString quote (text ++ quote :: rest) = (text ++ [quote], rest) := by
  unfold isStringText at h
  fun_induction isEscaped (fun c => c != quote && c != '\n') text with
  | case1 => simp [splitString, ne_of_isQuote (d := '\\') hq rfl]
  | case2 => cases h
  | case3 c r ih => simp [splitString, ih h]
  | case4 c r hlast hpair ih =>
    obtain ⟨hc, hr⟩ := Bool.and_eq_true_iff.1 h
    simp only [Bool.and_eq_true, bne_iff_ne] at hc
    simp [splitString, ne_backslash hlast hpair, hc, ih hr]

theorem splitQuoted_append_quote {quote : Char} (hq : isQuote quote = true) {text : List Char}
    (h : isQuotedText quote text = true) (rest : List Char) :
    splitQuoted quote (text ++ quote :: rest) = (text ++ [quote], rest) := by
  unfold isQuotedText at h
  fun_induction isEscaped (fun c => c != quote) text with
  | case1 => simp [splitQuoted, ne_of_isQuote (d := '\\') hq rfl]
  | case2 => cases h
  | case3 c r ih => simp [splitQuoted, ih h]
  | case4 c r hlast hpair ih =>
    obtain ⟨hc, hr⟩ := Bool.and_eq_true_iff.1 h
    simp [splitQuoted, ne_backslash hlast hpair, bne_iff_ne.1 hc, ih hr]

theorem splitTemplate_cons {c : Char} {s : List Char} (hback : c ≠ '\\') (htick : c ≠ '\x60')
    (hopens : c = '$' → s.head? ≠ some '\x7b') :
    splitTemplate (c :: s) = (c :: (splitTemplate s).1, (splitTemplate s).2) := by
  rw [splitTemplate, if_neg htick]
  · exact fun hc => absurd hc hback
  · exact fun _ _ hc => absurd hc hback
  · rintro r hc rfl
    exact hopens hc rfl

/-- A template's text is followed by a substitution or by the end of the template. -/
theorem splitTemplate_append_end {text : List Char} (h : isTemplateText text = true)
    (rest : List Char) :
    splitTemplate (text ++ '$' :: '\x7b' :: rest) = (text ++ ['$', '\x7b'], true, rest) ∧
      splitTemplate (text ++ '\x60' :: rest) = (text ++ ['\x60'], false, rest) := by
  fun_induction isTemplateText text with
  | case1 => simp [splitTemplate]
  | case2 => cases h
  | case3 c r ih => simp [splitTemplate, ih h]
  | case4 r => cases h
  | case5 c r hlast hpair hopens ih =>
    obtain ⟨hc, hr⟩ := Bool.and_eq_true_iff.1 h
    have hback := ne_backslash hlast hpair
    have hnone {d : Char} (hd : d ≠ '\x7b') (s : List Char) :
        c = '$' → (r ++ d :: s).head? ≠ some '\x7b' := by
      intro hdollar he
      cases r with
      | nil => exact hd (Option.some.inj he)
      | cons e r => exact hopens r hdollar (congrArg (· :: r) (Option.some.inj he))
    obtain ⟨hopen, hclose⟩ := ih hr
    have htick := bne_iff_ne.1 hc
    constructor
    · rw [List.cons_append, splitTemplate_cons hback htick (hnone (by decide) _), hopen]
      rfl
    · rw [List.cons_append, splitTemplate_cons hback htick (hnone (by decide) _), hclose]
      rfl

theorem splitRegex_append_slash {inClass : Bool} {text : List Char}
    (h : isRegexText inClass text = true) (rest : List Char) :
    splitRegex inClass (text ++ '/' :: rest) = (text ++ ['/'], rest) := by
  fun_induction isRegexText inClass text with
  | case1 inClass =>
    obtain rfl : inClass = false := by simpa using h
    simp [splitRegex]
  | case2 => cases h
  | case3 inClass c r ih =>
    obtain ⟨hc, hr⟩ := Bool.and_eq_true_iff.1 h
    simp [splitRegex, ih hr, bne_iff_ne.1 hc]
  | case4 inClass c r hlast hpair ih =>
    obtain ⟨hc, hr⟩ := Bool.and_eq_true_iff.1 h
    obtain ⟨hline, hslash⟩ := Bool.and_eq_true_iff.1 hc
    have hinner : ¬ (c = '/' ∧ (!inClass) = true) := by
      rintro ⟨rfl, hclass⟩
      simp_all
    rw [List.cons_append, splitRegex, if_neg (bne_iff_ne.1 hline), if_neg hinner]
    · exact congrArg (fun s => (c :: s.1, s.2)) (ih hr)
    · exact fun _ _ he => absurd he (ne_backslash hlast hpair)

theorem splitComment_cons {c : Char} {s : List Char} (h : c = '*' → s.head? ≠ some '/') :
    splitComment (c :: s) = (c :: (splitComment s).1, (splitComment s).2) := by
  rw [splitComment]
  rintro r hc rfl
  exact h hc rfl

theorem splitComment_append_end {text : List Char} (h : IsCommentText text) (rest : List Char) :
    splitComment (text ++ '*' :: '/' :: rest) = (text ++ ['*', '/'], rest) := by
  induction text with
  | nil => rfl
  | cons c r ih =>
    have hr : IsCommentText r := fun hi => h (hi.trans (List.suffix_cons c r).isInfix)
    have hnone : c = '*' → (r ++ '*' :: '/' :: rest).head? ≠ some '/' := by
      rintro rfl he
      cases r with
      | nil => cases he
      | cons d r =>
        obtain rfl := Option.some.inj he
        exact h (List.prefix_append ['*', '/'] r).isInfix
    rw [List.cons_append, splitComment_cons hnone, ih hr]
    rfl

end StaticSite.Minify
