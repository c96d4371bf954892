import Mathlib.Data.List.TakeWhile
import StaticSite.Proofs.Except
import StaticSite.Proofs.Template.Spelling

/-!
# Two scans of code

The text of a substitution is gone over twice: a scan with one quote flag and a counter of braces
looks for its end (`splitSubstitution`), and the tokenizer reads it token by token. Here is what
both take. `Passes` says that the first scan goes over a text from one state to another. The readers
of the tokenizer take a beginning of the text each, and what they take is passed by the first scan
between quotes, or outside of them as far as nothing in it looks like a quote or a brace. With
enough fuel the tokens do not depend on it (`tokensOf_fuel`).
-/

namespace StaticSite.Template

/-- The characters that the scan for the end of a substitution minds. -/
def scanMarks : List Char :=
  ['"', '\'', '\x60', '\x7b', '\x7d', '\\']

/-- Whether a character means nothing to the scan. -/
def isInert (c : Char) : Bool :=
  !scanMarks.contains c

theorem isInert_of {P : Char → Bool} {c : Char} (hP : scanMarks.any P = false) (h : P c = true) :
    isInert c = true := by
  cases hc : isInert c with
  | true => rfl
  | false =>
    have hm : c ∈ scanMarks := by simpa [isInert] using hc
    exact absurd h (List.any_eq_false.1 hP c hm)

/-- The scan for the end of a substitution goes over a text from `d` open braces and the open quote
`q`, if any, to `d'` and `q'`. -/
def Passes (s : List Char) (d : Nat) (q : Option Char) (d' : Nat) (q' : Option Char) : Prop :=
  ∀ t, splitSubstitution d q (s ++ t) =
    (splitSubstitution d' q' t).map fun (code, rest) => (s ++ code, rest)

namespace Passes

variable {s s' : List Char} {c p : Char} {d d' d'' : Nat} {q q' q'' : Option Char}

attribute [local simp] splitSubstitution

theorem nil (d : Nat) (q : Option Char) : Passes [] d q d q := by
  intro t
  simp

theorem append (h : Passes s d q d' q') (h' : Passes s' d' q' d'' q'') :
    Passes (s ++ s') d q d'' q'' := by
  intro t
  rw [List.append_assoc, h, h', Option.map_map]
  simp [Function.comp_def]

theorem cons (h : Passes [c] d q d' q') (h' : Passes s d' q' d'' q'') :
    Passes (c :: s) d q d'' q'' :=
  h.append h'

theorem quoted (hc : c ≠ p) (hb : c ≠ '\\') : Passes [c] d (some p) d (some p) := by
  intro t
  change splitSubstitution d (some p) (c :: t) = _
  rw [splitSubstitution.eq_def]
  simp [hc, hb]

theorem escaped (c : Char) : Passes ['\\', c] d (some p) d (some p) := by
  intro t
  simp

theorem closeQuote (hp : p ≠ '\\') : Passes [p] d (some p) d none := by
  intro t
  change splitSubstitution d (some p) (p :: t) = _
  rw [splitSubstitution.eq_def]
  simp [hp]

theorem openQuote (hp : isQuote p = true) : Passes [p] d none d (some p) := by
  intro t
  simp [hp]

theorem openBrace : Passes ['\x7b'] d none (d + 1) none := by
  intro t
  simp [show isQuote '\x7b' = false by decide]

theorem closeBrace : Passes ['\x7d'] (d + 1) none d none := by
  intro t
  simp [show isQuote '\x7d' = false by decide]

/-- Outside of quotes a backslash is a character like others. -/
theorem outside (hq : isQuote c = false) (ho : c ≠ '\x7b') (hc : c ≠ '\x7d') :
    Passes [c] d none d none := by
  intro t
  simp [hq, ho, hc]

theorem inert (hq : ∀ p ∈ q, isQuote p = true) (hc : isInert c = true) : Passes [c] d q d q := by
  have hm : c ∉ scanMarks := by simpa [isInert] using hc
  simp only [scanMarks, List.mem_cons, List.not_mem_nil, or_false, not_or] at hm
  obtain ⟨hdouble, hsingle, hback, ho, hclose, hb⟩ := hm
  have hquote : isQuote c = false := by simp [isQuote, hdouble, hsingle, hback]
  cases q with
  | none => exact outside hquote ho hclose
  | some p =>
    refine quoted ?_ hb
    rintro rfl
    simp [hq c rfl] at hquote

theorem all_inert (hq : ∀ p ∈ q, isQuote p = true) (hs : ∀ c ∈ s, isInert c = true) :
    Passes s d q d q := by
  induction s with
  | nil => exact nil d q
  | cons c r ih =>
    exact cons (inert hq (hs c List.mem_cons_self))
      (ih fun x hx => hs x (List.mem_cons_of_mem c hx))

end Passes

/-! ## What escapes and strings take -/

theorem isInert_of_mem_hexCode {s : List Char} {n : Nat} (h : hexCode? s = some n) :
    ∀ c ∈ s, isInert c = true := by
  have digits {ds : List Char} {a : Nat}
      (h : (ds.foldlM (fun n c => (Json.hexValue? c).map (16 * n + ·)) a).isSome) :
      ∀ c ∈ ds, isInert c = true := by
    induction ds generalizing a with
    | nil => simp
    | cons d rest ih =>
      cases hd : Json.hexValue? d with
      | none => simp [List.foldlM_cons, hd] at h
      | some v =>
        have hrest := ih (a := 16 * a + v) (by simpa [List.foldlM_cons, hd] using h)
        have hinert : isInert d = true :=
          isInert_of (P := fun c => (Json.hexValue? c).isSome) (by decide) (by simp [hd])
        simpa [hinert] using hrest
  unfold hexCode? at h
  extract_lets ds at h
  have hds : ∀ c ∈ ds, isInert c = true := by
    split at h
    · cases h
    · exact digits (by rw [h]; rfl)
  unfold ds at hds
  split at hds
  · simpa [show isInert '+' = true by decide] using hds
  · exact hds

/-- The text of an escape behind its backslash: a character, which is the escaped one unless it is
inert, and inert ones. -/
theorem exists_of_readEscape {s rest : List Char} {c : Char} (h : readEscape s = .ok (c, rest)) :
    ∃ d more, s = d :: more ++ rest ∧ (d = c ∨ isInert d = true) ∧
      ∀ x ∈ more, isInert x = true := by
  unfold readEscape at h
  split at h
  · cases h
  · cases h
    exact ⟨'n', [], rfl, .inr (by decide), by simp⟩
  · cases h
    exact ⟨'t', [], rfl, .inr (by decide), by simp⟩
  · cases h
    exact ⟨'r', [], rfl, .inr (by decide), by simp⟩
  · cases h
    exact ⟨'0', [], rfl, .inr (by decide), by simp⟩
  · rename_i r
    split at h
    · rename_i x hx
      cases h
      obtain ⟨n, hn, -⟩ := Option.bind_eq_some_iff.1 hx
      exact ⟨'u', r.take 4, by simp, .inr (by decide), isInert_of_mem_hexCode hn⟩
    · cases h
  · cases h
    exact ⟨c, [], rfl, .inl rfl, by simp⟩

/-- An escape is passed between quotes. -/
theorem Passes.escape {d : Nat} {p e : Char} {more : List Char} (hp : isQuote p = true)
    (hm : ∀ x ∈ more, isInert x = true) : Passes ('\\' :: e :: more) d (some p) d (some p) :=
  (escaped e).append (all_inert (by simpa using hp) hm)

/-- A string ends at its quote. What stands before is passed between such quotes, and between others
that the string does not hold. -/
theorem exists_of_readString {q : Char} {s text after : List Char}
    (h : readString q s = .ok (text, after)) :
    ∃ body, s = body ++ q :: after ∧ ∀ d p, isQuote p = true → (p = q ∨ p ∉ text) →
      Passes body d (some p) d (some p) := by
  fun_induction readString q s generalizing text after with
  | case1 => cases h
  | case2 r =>
    cases h
    exact ⟨[], rfl, fun d p _ _ => .nil d _⟩
  | case3 r hq e he => cases h
  | case4 r x rest he hq ih =>
    obtain ⟨⟨more, behind⟩, hr, hpair⟩ := Except.map_eq_ok_iff.1 h
    cases hpair
    obtain ⟨d, extra, rfl, -, hextra⟩ := exists_of_readEscape he
    obtain ⟨body, rfl, hbody⟩ := ih hr
    refine ⟨'\\' :: d :: extra ++ body, by simp, fun n p hp hnot => ?_⟩
    exact (Passes.escape hp hextra).append (hbody n p hp (hnot.imp_right fun h => by simp_all))
  | case5 c r hq hb ih =>
    obtain ⟨⟨more, behind⟩, hr, hpair⟩ := Except.map_eq_ok_iff.1 h
    cases hpair
    obtain ⟨body, rfl, hbody⟩ := ih hr
    refine ⟨c :: body, by simp, fun n p hp hnot => ?_⟩
    have hc : c ≠ p := by
      rcases hnot with rfl | hnot
      · exact hq
      · rintro rfl
        simp at hnot
    exact .cons (.quoted hc hb) (hbody n p hp (hnot.imp_right fun h => by simp_all))

/-! ## What numbers, names and marks take -/

theorem numberText_begins (s : List Char) : numberText s <+: s := by
  unfold numberText
  extract_lets isDigitOrPoint digits
  have hs : digits ++ s.dropWhile isDigitOrPoint = s := List.takeWhile_append_dropWhile
  split
  · exact List.takeWhile_prefix _
  · rename_i e r he
    rw [he] at hs
    conv_rhs => rw [← hs]
    split
    · split <;> simp [List.prefix_append_right_inj, List.takeWhile_prefix]
    · exact List.prefix_append _ _

/-- A character that a numeral can have. -/
def isNumeralChar (c : Char) : Bool :=
  c.isDigit || ['.', 'e', 'E', '+', '-'].contains c

theorem isNumeralChar_of_mem {s : List Char} : ∀ c ∈ numberText s, isNumeralChar c = true := by
  have hdigit {t : List Char} {c : Char} (h : c ∈ t.takeWhile Char.isDigit) :
      isNumeralChar c = true := by
    simp [isNumeralChar, List.mem_takeWhile_imp h]
  unfold numberText
  extract_lets isDigitOrPoint digits
  have hdigits {c : Char} (h : c ∈ digits) : isNumeralChar c = true := by
    have := List.mem_takeWhile_imp h
    simp only [isDigitOrPoint, Bool.or_eq_true, beq_iff_eq] at this
    rcases this with hd | rfl
    · simp [isNumeralChar, hd]
    · decide
  intro c hc
  split at hc
  · exact hdigits hc
  · split at hc
    · rename_i e r he hexp
      have hexp : isNumeralChar e = true := by
        rcases hexp with rfl | rfl <;> decide
      split at hc
      all_goals
        simp only [List.mem_append, List.mem_cons] at hc
        rcases hc with hc | rfl | hc
        · exact hdigits hc
        · exact hexp
      · rcases hc with rfl | hc
        · decide
        · exact hdigit hc
      · rcases hc with rfl | hc
        · decide
        · exact hdigit hc
      · exact hdigit hc
    · exact hdigits hc

theorem isInert_of_mem_numberText {s : List Char} : ∀ c ∈ numberText s, isInert c = true :=
  fun c hc => isInert_of (P := isNumeralChar) (by decide) (isNumeralChar_of_mem c hc)

theorem isInert_of_isNameChar {c : Char} (h : isNameChar c = true) : isInert c = true :=
  isInert_of (P := isNameChar) (by decide) h

theorem mark_begins {s : List Char} {m : Mark} (h : Mark.at? s = some m) : m.chars <+: s := by
  have := List.find?_some h
  exact List.isPrefixOf_iff_prefix.1 this

/-- The end of a substitution is a brace. -/
theorem eq_of_splitSubstitution {d : Nat} {q : Option Char} {s code after : List Char}
    (h : splitSubstitution d q s = some (code, after)) : s = code ++ '\x7d' :: after := by
  have kept {found : Option (List Char × List Char)} {w t code after : List Char}
      (ih : ∀ {code after}, found = some (code, after) → t = code ++ '\x7d' :: after)
      (h : found.map (fun (code, rest) => (w ++ code, rest)) = some (code, after)) :
      w ++ t = code ++ '\x7d' :: after := by
    obtain ⟨⟨more, rest⟩, hm, he⟩ := Option.map_eq_some_iff.1 h
    cases he
    rw [ih hm, List.append_assoc]
  fun_induction splitSubstitution d q s generalizing code after
  case case1 | case2 => cases h
  case case3 e r ih => exact kept (w := ['\\', e]) ih h
  case case8 => cases h; rfl
  all_goals
    rename_i ih
    exact kept (w := [_]) ih h

/-! ## Fuel -/

theorem length_afterBlockComment {s after : List Char} (h : afterBlockComment s = some after) :
    after.length < s.length := by
  fun_induction afterBlockComment s with
  | case1 => cases h
  | case2 r =>
    cases h
    simp only [List.length_cons]
    omega
  | case3 c r _ ih =>
    have := ih h
    simp only [List.length_cons]
    omega

theorem length_readString {q : Char} {s text after : List Char}
    (h : readString q s = .ok (text, after)) : after.length < s.length := by
  obtain ⟨body, rfl, -⟩ := exists_of_readString h
  simp only [List.length_append, List.length_cons]
  omega

theorem length_splitSubstitution {d : Nat} {q : Option Char} {s code after : List Char}
    (h : splitSubstitution d q s = some (code, after)) : code.length + after.length < s.length := by
  rw [eq_of_splitSubstitution h]
  simp only [List.length_append, List.length_cons]
  omega

theorem length_piecesOf {fuel : Nat} {text s after : List Char} {pieces : List Piece}
    (h : piecesOf fuel text s = .ok (pieces, after)) : after.length < s.length := by
  induction fuel generalizing text s pieces with
  | zero => cases h
  | succ fuel ih =>
    cases s with
    | nil => cases h
    | cons c r =>
      simp only [piecesOf] at h
      split_ifs at h with hend hescape hsub
      · cases h
        simp
      · obtain ⟨⟨x, rest⟩, hx, h⟩ := Except.bind_eq_ok_iff.1 h
        have hrest : rest.length < r.length := readEscape_length hx
        have hafter : after.length < rest.length := ih h
        simp only [List.length_cons]
        omega
      · split at h
        · cases h
        · rename_i code rest hcode
          obtain ⟨tokens, -, h⟩ := Except.bind_eq_ok_iff.1 h
          obtain ⟨⟨more, behind⟩, hmore, h⟩ := Except.bind_eq_ok_iff.1 h
          cases h
          have := length_splitSubstitution hcode
          have := ih hmore
          simp only [List.length_cons, List.length_drop] at *
          omega
      · have := ih h
        simp only [List.length_cons]
        omega

theorem length_drop_numberText {s : List Char} {x : Float}
    (h : Decimal.float? (numberText s) = some x) :
    (s.drop (numberText s).length).length < s.length := by
  have hnone : Decimal.float? [] = none := by decide +kernel
  have hpos : 0 < (numberText s).length := List.length_pos_iff.2 fun he => by simp [he, hnone] at h
  have := (numberText_begins s).length_le
  rw [List.length_drop]
  omega

theorem length_dropWhile_isNameChar {c : Char} (h : isNameStart c = true) (r : List Char) :
    ((c :: r).dropWhile isNameChar).length ≤ r.length := by
  rw [List.dropWhile_cons_of_pos (isNameChar_of_isNameStart h)]
  exact List.length_dropWhile_le _ _

theorem Mark.length_drop (m : Mark) (c : Char) (r : List Char) :
    ((c :: r).drop m.chars.length).length ≤ r.length := by
  obtain ⟨d, more, hchars, -⟩ := m.chars_eq_cons
  simp [hchars]

mutual

/-- With more fuel than characters the tokens do not depend on the fuel. -/
theorem tokensOf_fuel {n m : Nat} {s : List Char} (hn : s.length < n) (hm : s.length < m) :
    tokensOf n s = tokensOf m s := by
  cases n with
  | zero => omega
  | succ n =>
  cases m with
  | zero => omega
  | succ m =>
  cases s with
  | nil => simp [tokensOf]
  | cons c r =>
    simp only [List.length_cons] at hn hm
    have short {t : List Char} (ht : t.length ≤ r.length) : tokensOf n t = tokensOf m t :=
      tokensOf_fuel (by omega) (by omega)
    have pieces : piecesOf n [] r = piecesOf m [] r := piecesOf_fuel (by omega) (by omega)
    simp only [tokensOf, pieces]
    split_ifs with hblank hline hblock hnumber hname hstring htemplate
    · exact short le_rfl
    · exact short (List.length_dropWhile_le _ _)
    · cases hafter : afterBlockComment (r.drop 1) with
      | none => rfl
      | some after =>
        have := length_afterBlockComment hafter
        rw [List.length_drop] at this
        exact short (by omega)
    · cases hx : Decimal.float? (numberText (c :: r)) with
      | none => rfl
      | some x =>
        have hlen := length_drop_numberText hx
        rw [List.length_cons] at hlen
        simp only [short (t := (c :: r).drop (numberText (c :: r)).length) (by omega)]
    · rw [short (length_dropWhile_isNameChar hname r)]
    · cases hread : readString c r with
      | error e => rfl
      | ok found =>
        have hlen := length_readString hread
        exact congrArg (Except.map _) (short hlen.le)
    · cases hread : piecesOf m [] r with
      | error e => rfl
      | ok found =>
        have hlen := length_piecesOf hread
        exact congrArg (Except.map _) (short hlen.le)
    · cases hmark : Mark.at? (c :: r) with
      | none => rfl
      | some mark => exact congrArg (Except.map _) (short (mark.length_drop c r))
termination_by n

theorem piecesOf_fuel {n m : Nat} {text s : List Char} (hn : s.length < n) (hm : s.length < m) :
    piecesOf n text s = piecesOf m text s := by
  cases n with
  | zero => omega
  | succ n =>
  cases m with
  | zero => omega
  | succ m =>
  cases s with
  | nil => simp [piecesOf]
  | cons c r =>
    simp only [List.length_cons] at hn hm
    have short {text t : List Char} (ht : t.length ≤ r.length) :
        piecesOf n text t = piecesOf m text t :=
      piecesOf_fuel (by omega) (by omega)
    simp only [piecesOf]
    split_ifs with hend hescape hsub
    · rfl
    · cases hread : readEscape r with
      | error e => rfl
      | ok found => exact short (readEscape_length hread).le
    · cases hcode : splitSubstitution 0 none (r.drop 1) with
      | none => rfl
      | some found =>
        obtain ⟨code, after⟩ := found
        have hlen := length_splitSubstitution hcode
        rw [List.length_drop] at hlen
        have hcode : tokensOf n code = tokensOf m code := tokensOf_fuel (by omega) (by omega)
        have hafter : piecesOf n [] after = piecesOf m [] after := short (by omega)
        simp only [hcode, hafter]
    · exact short le_rfl
termination_by n

end

end StaticSite.Template
