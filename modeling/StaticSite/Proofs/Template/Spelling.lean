import StaticSite.Proofs.Decimal.Literals
import StaticSite.Proofs.Text.Blank
import StaticSite.Template.Tokenizer

/-!
# Spelling tokens

Every token but a template string has a text that is read as the token where a space or the end
follows (`tokensOf_chars`). So a code text that has a space between its tokens is read as these
tokens (`tokenize_spell`). A number is written as a natural number to whose double it is equal.
-/

namespace StaticSite.Template

/-- Whether names can have the text. -/
def isIdentifier : List Char → Bool
  | [] => false
  | c :: r => isNameStart c && r.all isNameChar

/-- A character as it stands in a string. -/
def stringChar (c : Char) : List Char :=
  if c = '"' ∨ c = '\'' ∨ c = '\\' then ['\\', c] else [c]

namespace Token

variable (digits : Float → Nat)

/-- The text of a token, with numbers written by `digits`. -/
def chars : Token → List Char
  | name s => s.toList
  | number x => Decimal.natText (digits x)
  | string s => '"' :: s.toList.flatMap stringChar ++ ['"']
  | template _ => []
  | mark m => m.chars

/-- Whether the text of a token stands for it. -/
def IsPlain : Token → Prop
  | name s => isIdentifier s.toList = true
  | number x => Decimal.nearestFloat (digits x) 0 = x
  | string _ | mark _ => True
  | template _ => False

end Token

/-- The tokens with spaces between them. -/
def spell (digits : Float → Nat) (ts : List Token) : String :=
  String.ofList ([' '].intercalate (ts.map (·.chars digits)))

/-! ## Characters of names -/

/-- The first character of a name is the first of no other token, nor between tokens. -/
structure IsNameHead (c : Char) : Prop where
  blank : Text.isBlank c = false
  digit : c.isDigit = false
  slash : c ≠ '/'
  point : c ≠ '.'

theorem isNameHead_of_isNameStart {c : Char} (h : isNameStart c = true) : IsNameHead c := by
  simp only [isNameStart, Bool.or_eq_true, beq_iff_eq] at h
  rcases h with (hl | rfl) | rfl
  · refine ⟨Bool.eq_false_iff.2 fun hb => ?_, Bool.eq_false_iff.2 fun hd => ?_, ?_, ?_⟩
    · rw [Text.not_isLetter_of_isBlank hb] at hl
      cases hl
    · rw [Decimal.of_isDigit (P := (Text.isLetter · = false)) (by decide) hd] at hl
      cases hl
    · rintro rfl
      revert hl
      decide
    · rintro rfl
      revert hl
      decide
  · exact ⟨by decide, by decide, by decide, by decide⟩
  · exact ⟨by decide, by decide, by decide, by decide⟩

theorem isNameChar_of_isNameStart {c : Char} (h : isNameStart c = true) : isNameChar c = true := by
  simp only [isNameStart, isNameChar, Bool.or_eq_true] at h ⊢
  rcases h with (h | h) | h
  · exact .inl (.inl (.inl h))
  · exact .inl (.inr h)
  · exact .inr h

/-! ## Where a text ends -/

/-- A space or the end comes next. -/
def EndsToken (rest : List Char) : Prop :=
  ∀ c ∈ rest.head?, c = ' '

theorem endsToken_nil : EndsToken [] := by
  rintro c ⟨⟩

theorem endsToken_space (rest : List Char) : EndsToken (' ' :: rest) := by
  rintro c ⟨⟩
  rfl

theorem EndsToken.head {p : Char → Bool} {rest : List Char} (hr : EndsToken rest)
    (hp : p ' ' = false) :
    ∀ c ∈ rest.head?, p c = false := fun c hc => hr c hc ▸ hp

/-! ## Tokens of one kind -/

variable {digits : Float → Nat} {rest : List Char}

theorem tokensOf_identifier {s : List Char} (hs : isIdentifier s = true) (hr : EndsToken rest)
    (fuel : Nat) : tokensOf (fuel + 1) (s ++ rest) =
      (tokensOf fuel rest).map (.name (String.ofList s) :: ·) := by
  cases s with
  | nil => cases hs
  | cons c r =>
    obtain ⟨hc, hall⟩ := Bool.and_eq_true_iff.1 hs
    obtain ⟨hblank, hdigit, hslash, hpoint⟩ := isNameHead_of_isNameStart hc
    have hchars : ∀ d ∈ c :: r, isNameChar d = true :=
      List.forall_mem_cons.2 ⟨isNameChar_of_isNameStart hc, List.all_eq_true.1 hall⟩
    have htake := Decimal.takeWhile_append_of_head hchars (hr.head (by decide))
    have hdrop := Decimal.dropWhile_append_of_head hchars (hr.head (by decide))
    rw [List.cons_append] at htake hdrop ⊢
    rw [tokensOf]
    simp only [hblank, hslash, false_and, startsNumber, hdigit, beq_eq_false_iff_ne.2 hpoint,
      Bool.false_and, Bool.or_false, hc, htake, hdrop, if_true, if_false, Bool.false_eq_true]

theorem numberText_append {s : List Char} (hs : ∀ c ∈ s, c.isDigit = true) (hr : EndsToken rest) :
    numberText (s ++ rest) = s := by
  have hpoint : ∀ c ∈ s, (c.isDigit || c == '.') = true := fun c hc => by simp [hs c hc]
  have hnext : ∀ c ∈ rest.head?, (c.isDigit || c == '.') = false := hr.head (by decide)
  rw [numberText, Decimal.takeWhile_append_of_head hpoint hnext,
    Decimal.dropWhile_append_of_head hpoint hnext]
  cases rest with
  | nil => rfl
  | cons c r =>
    have hc : c = ' ' := hr c rfl
    subst hc
    rfl

/-! ## Numbers -/

theorem unsignedFloat?_natText (n : Nat) :
    Decimal.unsignedFloat? (Decimal.natText n) = some (Decimal.nearestFloat n 0) := by
  have hsplit : Decimal.splitNumeral (Decimal.natText n) = (Decimal.natText n, [], []) := by
    have split := Decimal.splitNumeral_append (r := []) (Decimal.isDigits_natText n).digits
      (by simp)
    rwa [List.append_nil] at split
  simp [Decimal.unsignedFloat?, hsplit, Decimal.digitsValue_natText,
    (Decimal.isDigits_natText n).nonempty]

theorem float?_natText (n : Nat) :
    Decimal.float? (Decimal.natText n) = some (Decimal.nearestFloat n 0) := by
  obtain ⟨c, r, hs, hc⟩ := (Decimal.isDigits_natText n).exists_cons
  rw [Decimal.float?_of_startsNumeral ⟨c, r, hs, .inl hc⟩, unsignedFloat?_natText]

theorem tokensOf_natText (n : Nat) (hr : EndsToken rest) (fuel : Nat) :
    tokensOf (fuel + 1) (Decimal.natText n ++ rest) =
      (tokensOf fuel rest).map (.number (Decimal.nearestFloat n 0) :: ·) := by
  have htext := numberText_append (Decimal.isDigits_natText n).digits hr
  have hread := float?_natText n
  obtain ⟨c, r, hs, hc⟩ := (Decimal.isDigits_natText n).exists_cons
  have hblank : Text.isBlank c = false :=
    Decimal.of_isDigit (P := (Text.isBlank · = false)) (by decide) hc
  have hslash : c ≠ '/' := by
    rintro rfl
    cases hc
  rw [hs, List.cons_append] at htext
  rw [hs] at hread
  rw [hs, List.cons_append, tokensOf]
  simp only [hblank, hslash, false_and, startsNumber, hc, Bool.true_or, htext, hread, if_true,
    if_false, Bool.false_eq_true]
  rw [← List.cons_append, List.drop_left]

/-! ## Strings and marks -/

theorem readString_flatMap (s rest : List Char) :
    readString '"' (s.flatMap stringChar ++ '"' :: rest) = .ok (s, rest) := by
  induction s with
  | nil => rw [List.flatMap_nil, List.nil_append, readString, if_pos rfl]
  | cons c r ih =>
    rw [List.flatMap_cons, List.append_assoc, stringChar]
    split
    · rename_i hc
      have hescape : readEscape (c :: (r.flatMap stringChar ++ '"' :: rest)) =
          .ok (c, r.flatMap stringChar ++ '"' :: rest) := by
        rcases hc with rfl | rfl | rfl <;> rfl
      rw [List.cons_append, List.singleton_append, readString, if_neg (by decide), if_pos rfl]
      split
      · rename_i he
        cases hescape.symm.trans he
      · rename_i he
        cases hescape.symm.trans he
        rw [ih]
        rfl
    · rename_i hc
      rw [List.singleton_append, readString, if_neg fun h => hc (.inl h),
        if_neg fun h => hc (.inr (.inr h)), ih]
      rfl

theorem tokensOf_string (s : List Char) (fuel : Nat) :
    tokensOf (fuel + 1) ('"' :: s.flatMap stringChar ++ '"' :: rest) =
      (tokensOf fuel rest).map (.string (String.ofList s) :: ·) := by
  have hstart : startsNumber ('"' :: (s.flatMap stringChar ++ '"' :: rest)) = false := rfl
  rw [List.cons_append, tokensOf]
  simp only [(by decide : Text.isBlank '"' = false), (by decide : ('"' = '/') = False), false_and,
    hstart, (by decide : isNameStart '"' = false), true_or, if_true, if_false, Bool.false_eq_true,
    readString_flatMap]
  rfl

theorem at?_chars (m : Mark) (hr : EndsToken rest) : Mark.at? (m.chars ++ rest) = some m := by
  cases rest with
  | nil => cases m <;> rfl
  | cons c r =>
    have hc : c = ' ' := hr c rfl
    subst hc
    cases m <;> rfl

/-- The first character of a mark, which may begin a comment or a number only as a mark of its
own. -/
theorem Mark.chars_eq_cons (m : Mark) : ∃ c r, m.chars = c :: r ∧ Text.isBlank c = false ∧
    c.isDigit = false ∧ isNameStart c = false ∧ ¬ (c = '"' ∨ c = '\'') ∧ c ≠ '\x60' ∧
    (c = '/' ∨ c = '.' → r = []) := by
  cases m <;>
    exact ⟨_, _, rfl, by decide, by decide, by decide, by decide, by decide, by decide⟩

theorem tokensOf_mark (m : Mark) (hr : EndsToken rest) (fuel : Nat) :
    tokensOf (fuel + 1) (m.chars ++ rest) = (tokensOf fuel rest).map (.mark m :: ·) := by
  have hat := at?_chars m hr
  obtain ⟨c, r, hs, hblank, hdigit, hname, hquote, hbacktick, hone⟩ := m.chars_eq_cons
  have hnext : c = '/' ∨ c = '.' → (r ++ rest).head? = none ∨ (r ++ rest).head? = some ' ' := by
    intro hc
    rw [hone hc, List.nil_append]
    cases rest with
    | nil => exact .inl rfl
    | cons d _ => exact .inr (congrArg some (hr d rfl))
  have hcomment (d : Char) (hd : d ≠ ' ') : ¬ (c = '/' ∧ (r ++ rest).head? = some d) := by
    rintro ⟨hc, hh⟩
    rcases hnext (.inl hc) with hn | hn
    · cases hn.symm.trans hh
    · exact hd (Option.some.inj (hh.symm.trans hn))
  have hnumber : startsNumber (c :: (r ++ rest)) = false := by
    by_cases hc : c = '.'
    · rcases hnext (.inr hc) with hn | hn <;> simp [startsNumber, hdigit, hn]
    · simp [startsNumber, hdigit, hc]
  have hdrop : (c :: (r ++ rest)).drop m.chars.length = rest := by
    rw [hs, ← List.cons_append, List.drop_left]
  rw [hs, List.cons_append] at hat ⊢
  rw [tokensOf]
  simp only [hblank, hcomment _ (by decide : '/' ≠ ' '), hcomment _ (by decide : '*' ≠ ' '),
    hnumber, hname, hquote, hbacktick, hat, hdrop, if_false, Bool.false_eq_true]

/-! ## All tokens -/

theorem tokensOf_chars {t : Token} (ht : t.IsPlain digits) (hr : EndsToken rest) (fuel : Nat) :
    tokensOf (fuel + 1) (t.chars digits ++ rest) = (tokensOf fuel rest).map (t :: ·) := by
  cases t with
  | name s => simpa [Token.chars] using tokensOf_identifier ht hr fuel
  | number x =>
    have h := tokensOf_natText (digits x) hr fuel
    rwa [show Decimal.nearestFloat (digits x) 0 = x from ht] at h
  | string s => simpa [Token.chars] using tokensOf_string s.toList fuel
  | template pieces => cases ht
  | mark m => exact tokensOf_mark m hr fuel

theorem Token.chars_ne_nil {t : Token} (ht : t.IsPlain digits) : t.chars digits ≠ [] := by
  cases t with
  | name s =>
    intro he
    rw [IsPlain, show s.toList = [] from he] at ht
    cases ht
  | number x => exact Nat.toDigits_ne_nil
  | string s => exact List.cons_ne_nil _ _
  | template pieces => cases ht
  | mark m =>
    obtain ⟨c, r, hs, -⟩ := m.chars_eq_cons
    rw [chars, hs]
    exact List.cons_ne_nil c r

theorem tokensOf_intercalate {ts : List Token} (hts : ∀ t ∈ ts, t.IsPlain digits) {fuel : Nat}
    (hf : ([' '].intercalate (ts.map (·.chars digits))).length < fuel) :
    tokensOf fuel ([' '].intercalate (ts.map (·.chars digits))) = .ok ts := by
  induction ts generalizing fuel with
  | nil => cases fuel <;> rfl
  | cons t rest ih =>
    obtain ⟨ht, hrest⟩ := List.forall_mem_cons.1 hts
    have hpos := List.length_pos_iff.2 (Token.chars_ne_nil ht)
    cases rest with
    | nil =>
      rw [List.map_singleton, List.intercalate_singleton] at hf ⊢
      obtain ⟨fuel, rfl⟩ : ∃ f, fuel = f + 1 := ⟨fuel - 1, by omega⟩
      have hread := tokensOf_chars ht endsToken_nil fuel
      rw [List.append_nil] at hread
      rw [hread]
      cases fuel <;> rfl
    | cons next more =>
      rw [List.map_cons, List.map_cons, List.intercalate_cons_cons, List.append_assoc,
        List.singleton_append] at hf ⊢
      rw [List.length_append, List.length_cons] at hf
      obtain ⟨fuel, rfl⟩ : ∃ f, fuel = f + 2 := ⟨fuel - 2, by omega⟩
      rw [tokensOf_chars ht (endsToken_space _), tokensOf,
        if_pos (by decide : Text.isBlank ' ' = true)]
      exact congrArg (Except.map (t :: ·)) (ih hrest (by simpa using (by omega)))

/-- Tokens with spaces between them are read as themselves. -/
theorem tokenize_spell {ts : List Token} (hts : ∀ t ∈ ts, t.IsPlain digits) :
    tokenize (spell digits ts) = .ok ts := by
  rw [tokenize, spell, String.toList_ofList]
  exact tokensOf_intercalate hts (Nat.lt_succ_self _)

end StaticSite.Template
