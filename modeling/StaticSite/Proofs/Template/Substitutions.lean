import Mathlib
import StaticSite.Proofs.Template.Brackets
import StaticSite.Proofs.Template.Scanning

/-!
# Nested template strings

The end of a substitution is looked for by a scan that knows one open quote and counts braces
outside of quotes. It does not see that a template string has substitutions: for it the string ends
at the next backtick, whichever string that one belongs to. So it goes over code in one of two ways,
which alternate with the depth of nesting: as code, or hidden between backticks. Hidden strings must
not hold a backtick, and the texts of hidden template strings neither quotes nor braces
(`tokensPassed`). Then a template string around an expression without comments has one substitution,
the tokens of the expression (`tokenize_substituted`). Without the condition the substitution may
end in the wrong place (`tokenize_substituted_differs`).
-/

namespace StaticSite.Template

/-! ## Comments -/

mutual

/-- Whether a comment is met where the tokens of a code text are read, or the code of a
substitution. -/
def meetsComment : Nat → List Char → Bool
  | 0, _ => false
  | _, [] => false
  | fuel + 1, c :: r =>
    let rest := c :: r
    if Text.isBlank c then meetsComment fuel r
    else if c = '/' ∧ (r.head? = some '/' ∨ r.head? = some '*') then true
    else if startsNumber rest then meetsComment fuel (rest.drop (numberText rest).length)
    else if isNameStart c then meetsComment fuel (rest.dropWhile isNameChar)
    else if c = '"' ∨ c = '\'' then
      match readString c r with
      | .ok (_, after) => meetsComment fuel after
      | .error _ => false
    else if c = '\x60' then
      match piecesOf fuel [] r with
      | .ok (_, after) => piecesMeetComment fuel r || meetsComment fuel after
      | .error _ => false
    else
      match Mark.at? rest with
      | some m => meetsComment fuel (rest.drop m.chars.length)
      | none => false

/-- Whether a substitution of a template string has a comment. -/
def piecesMeetComment : Nat → List Char → Bool
  | 0, _ => false
  | _, [] => false
  | fuel + 1, c :: r =>
    if c = '\x60' then false
    else if c = '\\' then
      match readEscape r with
      | .ok (_, after) => piecesMeetComment fuel after
      | .error _ => false
    else if c = '$' ∧ r.head? = some '\x7b' then
      match splitSubstitution 0 none (r.drop 1) with
      | some (code, after) => meetsComment fuel code || piecesMeetComment fuel after
      | none => false
    else piecesMeetComment fuel r

end

/-- Whether code has a comment, also in the substitutions of its template strings. -/
def hasComment (code : String) : Bool :=
  meetsComment (code.toList.length + 1) code.toList

/-! ## What the scan passes -/

/-- Whether a character of a hidden text is passed: it is no quote and no brace. -/
def isPassed (c : Char) : Bool :=
  !isQuote c && c != '\x7b' && c != '\x7d'

mutual

/-- Whether a token of code, which is hidden between backticks or not, is passed. -/
def Token.isPassed (hidden : Bool) : Token → Bool
  | .string s => !hidden || !s.toList.contains '\x60'
  | .template pieces => piecesPassed hidden pieces
  | .name _ | .number _ | .mark _ => true

/-- Whether the scan passes over some tokens. -/
def tokensPassed (hidden : Bool) : List Token → Bool
  | [] => true
  | t :: rest => t.isPassed hidden && tokensPassed hidden rest

/-- Whether the pieces of a template string in such code are passed. The substitutions of a hidden
template string are code to the scan, and those of another are hidden. -/
def piecesPassed (hidden : Bool) : List Piece → Bool
  | [] => true
  | p :: rest => p.isPassed hidden && piecesPassed hidden rest

/-- Whether the scan passes over a piece. -/
def Piece.isPassed (hidden : Bool) : Piece → Bool
  | .text s => !hidden || s.toList.all Template.isPassed
  | .substitution code => tokensPassed (!hidden) code

end

/-- The quote that is open for the scan around code. -/
def quoteAround (hidden : Bool) : Option Char :=
  if hidden then some '\x60' else none

/-- The braces that the scan counts where marks are awaited. -/
def bracesIn (hidden : Bool) (stack : List Mark) : Nat :=
  if hidden then 0 else stack.count .closeBrace

/-- The scan goes over code that leads from one list of awaited marks to another. -/
def PassesCode (hidden : Bool) (s : List Char) (stack stack' : List Mark) : Prop :=
  ∀ d, Passes s (d + bracesIn hidden stack) (quoteAround hidden) (d + bracesIn hidden stack')
    (quoteAround hidden)

theorem isQuote_of_quoteAround {hidden : Bool} : ∀ p ∈ quoteAround hidden, isQuote p = true := by
  cases hidden
  · simp [quoteAround]
  · intro p hp
    cases hp
    decide

namespace PassesCode

variable {hidden : Bool} {s s' : List Char} {stack mid stack' : List Mark}

theorem append (h : PassesCode hidden s stack mid) (h' : PassesCode hidden s' mid stack') :
    PassesCode hidden (s ++ s') stack stack' :=
  fun d => (h d).append (h' d)

theorem inert (hs : ∀ c ∈ s, isInert c = true) : PassesCode hidden s stack stack :=
  fun _ => .all_inert isQuote_of_quoteAround hs

theorem bracesIn_closeBrace (stack : List Mark) :
    bracesIn false (.closeBrace :: stack) = bracesIn false stack + 1 := by
  simp [bracesIn]

theorem brace {m : Mark} (hm : m = .openBrace ∨ m = .closeBrace)
    (h : m.awaited stack = some stack') :
    PassesCode hidden m.chars stack stack' := by
  intro d
  cases hidden with
  | true =>
    rcases hm with rfl | rfl <;> exact .quoted (by decide) (by decide)
  | false =>
    rcases hm with rfl | rfl
    · obtain rfl : .closeBrace :: stack = stack' := by simpa [Mark.awaited, Mark.closer?] using h
      rw [bracesIn_closeBrace, ← Nat.add_assoc]
      exact .openBrace
    · cases stack with
      | nil => simp [Mark.awaited, Mark.closer?, Mark.isCloser] at h
      | cons c rest =>
        obtain ⟨rfl, rfl⟩ : c = .closeBrace ∧ rest = stack' := by
          simpa [Mark.awaited, Mark.closer?, Mark.isCloser] using h
        rw [bracesIn_closeBrace, ← Nat.add_assoc]
        exact .closeBrace

/-- Marks that are no braces do not change the number of braces that are awaited. -/
theorem count_awaited {m : Mark} (ho : m ≠ .openBrace) (hc : m ≠ .closeBrace)
    (h : m.awaited stack = some stack') : stack'.count .closeBrace = stack.count .closeBrace := by
  unfold Mark.awaited at h
  cases hclose : m.closer? with
  | some c =>
    obtain rfl : c :: stack = stack' := by simpa [hclose] using h
    have hne : c ≠ .closeBrace := by
      rintro rfl
      cases m <;> simp [Mark.closer?] at hclose ho
    simp [hne]
  | none =>
    simp only [hclose] at h
    split_ifs at h
    · cases stack with
      | nil => cases h
      | cons c rest =>
        obtain ⟨rfl, rfl⟩ : c = m ∧ rest = stack' := by simpa using h
        simp [hc]
    · cases h
      rfl

theorem mark {m : Mark} (h : m.awaited stack = some stack') :
    PassesCode hidden m.chars stack stack' := by
  by_cases ho : m = .openBrace
  · exact brace (.inl ho) h
  by_cases hc : m = .closeBrace
  · exact brace (.inr hc) h
  have hsame : bracesIn hidden stack' = bracesIn hidden stack := by
    simp only [bracesIn, count_awaited ho hc h]
  have hinert : ∀ c ∈ m.chars, isInert c = true := by
    cases m <;> first | exact List.all_eq_true.1 (by decide) | contradiction
  intro d
  rw [hsame]
  exact inert hinert d

theorem string {q : Char} (hq : q = '"' ∨ q = '\'') {r text after : List Char}
    (h : readString q r = .ok (text, after)) :
    ∃ w, q :: r = w ++ after ∧
      ((Token.string (String.ofList text)).isPassed hidden = true →
        PassesCode hidden w stack stack) := by
  obtain ⟨body, rfl, hbody⟩ := exists_of_readString h
  refine ⟨q :: body ++ [q], by simp, fun hp d => ?_⟩
  have hquote : isQuote q = true := by rcases hq with rfl | rfl <;> decide
  have hb : q ≠ '\\' := by rcases hq with rfl | rfl <;> decide
  cases hidden with
  | true =>
    have hne : q ≠ '\x60' := by rcases hq with rfl | rfl <;> decide
    have htext : '\x60' ∉ text := by simpa [Token.isPassed] using hp
    exact (Passes.cons (.quoted hne hb) (hbody _ _ (by decide) (.inr htext))).append
      (.quoted hne hb)
  | false =>
    exact (Passes.cons (.openQuote hquote) (hbody _ q hquote (.inl rfl))).append (.closeQuote hb)

/-- A substitution is passed in the text of its template string. -/
theorem substitution {code : List Char} (h : PassesCode hidden code [] []) (d : Nat) :
    Passes ('$' :: '\x7b' :: code ++ ['\x7d']) d (quoteAround hidden) d (quoteAround hidden) := by
  have hdollar : Passes ['$'] d (quoteAround hidden) d (quoteAround hidden) :=
    .inert isQuote_of_quoteAround (by decide)
  cases hidden with
  | true =>
    exact (hdollar.cons ((Passes.quoted (by decide) (by decide)).cons (h d))).append
      (.quoted (by decide) (by decide))
  | false => exact (hdollar.cons (Passes.openBrace.cons (h (d + 1)))).append .closeBrace

end PassesCode

/-! ## The two scans agree -/

theorem passes_of_isPassed {c : Char} (h : isPassed c = true) (d : Nat) :
    Passes [c] d none d none := by
  simp only [isPassed, Bool.and_eq_true, Bool.not_eq_true', bne_iff_ne] at h
  exact .outside h.1.1 h.1.2 h.2

/-- What a template string takes behind its opening backtick, where `text` is the part of its first
text that stands before. -/
structure PassesPieces (s text : List Char) (pieces : List Piece) (after : List Char) : Prop where
  textPassed : piecesPassed true pieces = true → ∀ c ∈ text, isPassed c = true
  splits : ∃ body, s = body ++ '\x60' :: after ∧ ∀ hidden, piecesPassed hidden pieces = true →
    piecesClosed pieces = true → ∀ d,
      Passes body d (quoteAround (!hidden)) d (quoteAround (!hidden))

theorem piecesPassed_textPiece (hidden : Bool) (text : List Char) (rest : List Piece) :
    piecesPassed hidden (textPiece text ++ rest) =
      ((!hidden || text.all isPassed) && piecesPassed hidden rest) := by
  unfold textPiece
  split
  · rename_i h
    simp [h]
  · simp [piecesPassed, Piece.isPassed]

theorem piecesClosed_textPiece (text : List Char) (rest : List Piece) :
    piecesClosed (textPiece text ++ rest) = piecesClosed rest := by
  unfold textPiece
  split
  · rfl
  · simp [piecesClosed, Piece.isClosed]

namespace PassesPieces

variable {s text after : List Char} {pieces : List Piece}

theorem nil : PassesPieces ('\x60' :: after) text (textPiece text) after where
  textPassed h := by
    have := piecesPassed_textPiece true text []
    rw [List.append_nil, h] at this
    simpa [piecesPassed] using this
  splits := ⟨[], rfl, fun _ _ _ d => .nil d _⟩

/-- To the scan the opening backtick of a hidden template string is the closing one of the string
around it, and the closing backtick opens one again. -/
theorem template (h : PassesPieces s [] pieces after) {hidden : Bool} {stack : List Mark} :
    ∃ w, '\x60' :: s = w ++ after ∧ ((Token.template pieces).isPassed hidden = true →
      ∀ mid, (Token.template pieces).awaited stack = some mid → PassesCode hidden w stack mid) := by
  obtain ⟨body, rfl, hbody⟩ := h.splits
  refine ⟨'\x60' :: body ++ ['\x60'], by simp, fun hp mid hmid d => ?_⟩
  obtain ⟨hclosed, rfl⟩ : piecesClosed pieces = true ∧ stack = mid := by
    simpa [Token.awaited] using hmid
  have hinner := hbody hidden (by simpa [Token.isPassed] using hp) hclosed
    (d + bracesIn hidden stack)
  cases hidden with
  | true => exact (Passes.cons (.closeQuote (by decide)) hinner).append (.openQuote (by decide))
  | false => exact (Passes.cons (.openQuote (by decide)) hinner).append (.closeQuote (by decide))

/-- A part of the text before the pieces that follow: `w` stands for the character `c`. -/
theorem character {w : List Char} {c : Char} (h : PassesPieces s (c :: text) pieces after)
    (hhidden : isPassed c = true → ∀ d, Passes w d none d none)
    (hcode : ∀ d, Passes w d (some '\x60') d (some '\x60')) :
    PassesPieces (w ++ s) text pieces after where
  textPassed hp x hx := h.textPassed hp x (List.mem_cons_of_mem c hx)
  splits := by
    obtain ⟨body, rfl, hbody⟩ := h.splits
    refine ⟨w ++ body, by simp, fun hidden hp hclosed d => ?_⟩
    refine Passes.append ?_ (hbody hidden hp hclosed d)
    cases hidden with
    | true => exact hhidden (h.textPassed hp c List.mem_cons_self) d
    | false => exact hcode d

theorem substitution {code : List Char} {tokens : List Token} (h : PassesPieces s [] pieces after)
    (hcode : ∀ hidden, tokensPassed hidden tokens = true → awaitedBehind tokens [] = some [] →
      PassesCode hidden code [] []) :
    PassesPieces ('$' :: '\x7b' :: code ++ '\x7d' :: s) text
      (textPiece text ++ .substitution tokens :: pieces) after where
  textPassed hp := by
    simp only [piecesPassed_textPiece, Bool.not_true, Bool.false_or, Bool.and_eq_true] at hp
    simpa using hp.1
  splits := by
    obtain ⟨body, rfl, hbody⟩ := h.splits
    refine ⟨'$' :: '\x7b' :: code ++ ['\x7d'] ++ body, by simp, fun hidden hp hclosed d => ?_⟩
    simp only [piecesPassed_textPiece, piecesPassed, Piece.isPassed, Bool.and_eq_true] at hp
    simp only [piecesClosed_textPiece, piecesClosed, Piece.isClosed, Bool.and_eq_true, beq_iff_eq]
      at hclosed
    exact ((hcode _ hp.2.1 hclosed.1).substitution d).append (hbody hidden hp.2.2 hclosed.2 d)

end PassesPieces

mutual

theorem passesCode_tokensOf {fuel : Nat} {s : List Char} {ts : List Token} (hf : s.length < fuel)
    (h : tokensOf fuel s = .ok ts) (hc : meetsComment fuel s = false) {hidden : Bool}
    (hp : tokensPassed hidden ts = true) {stack stack' : List Mark}
    (ha : awaitedBehind ts stack = some stack') : PassesCode hidden s stack stack' := by
  cases fuel with
  | zero => omega
  | succ fuel =>
  cases s with
  | nil =>
    obtain rfl : [] = ts := by simpa [tokensOf] using h
    obtain rfl : stack = stack' := by simpa [awaitedBehind] using ha
    exact .inert (by simp)
  | cons c r =>
    simp only [List.length_cons] at hf
    simp only [tokensOf] at h
    simp only [meetsComment] at hc
    -- what a token other than a template string takes, and the tokens behind it
    have behind {w rest : List Char} {t : Token} (hs : c :: r = w ++ rest)
        (hlen : rest.length ≤ r.length) (hts : (tokensOf fuel rest).map (t :: ·) = .ok ts)
        (hrest : meetsComment fuel rest = false)
        (hw : t.isPassed hidden = true → ∀ mid, t.awaited stack = some mid →
          PassesCode hidden w stack mid) :
        PassesCode hidden (c :: r) stack stack' := by
      obtain ⟨more, hmore, rfl⟩ := Except.map_eq_ok_iff.1 hts
      simp only [tokensPassed, Bool.and_eq_true] at hp
      obtain ⟨mid, ht, hm⟩ := Option.bind_eq_some_iff.1 ha
      rw [hs]
      exact (hw hp.1 mid ht).append (passesCode_tokensOf (by omega) hmore hrest hp.2 hm)
    by_cases hblank : Text.isBlank c
    · rw [if_pos hblank] at h hc
      have hinert : isInert c = true := isInert_of (P := Text.isBlank) (by decide) hblank
      exact (PassesCode.inert (s := [c]) (by simpa using hinert)).append
        (passesCode_tokensOf (by omega) h hc hp ha)
    rw [if_neg hblank] at h hc
    by_cases hslash : c = '/' ∧ (r.head? = some '/' ∨ r.head? = some '*')
    · rw [if_pos hslash] at hc
      cases hc
    rw [if_neg hslash] at hc
    rw [if_neg fun hl => hslash ⟨hl.1, .inl hl.2⟩, if_neg fun hl => hslash ⟨hl.1, .inr hl.2⟩] at h
    split_ifs at h hc with hnumber hname hstring htemplate
    · cases hx : Decimal.float? (numberText (c :: r)) with
      | none => simp [hx] at h
      | some x =>
        simp only [hx] at h
        have hlen := length_drop_numberText hx
        rw [List.length_cons] at hlen
        refine behind (List.prefix_iff_eq_append.1 (numberText_begins _)).symm (by omega) h hc ?_
        rintro - mid ⟨⟩
        exact .inert isInert_of_mem_numberText
    · refine behind List.takeWhile_append_dropWhile.symm
        (length_dropWhile_isNameChar hname r) h hc ?_
      rintro - mid ⟨⟩
      exact .inert fun x hx => isInert_of_isNameChar (List.mem_takeWhile_imp hx)
    · obtain ⟨⟨text, after⟩, hread, h⟩ := Except.bind_eq_ok_iff.1 h
      simp only [hread] at hc
      obtain ⟨w, hw, hpassed⟩ := PassesCode.string hstring hread
      refine behind hw (length_readString hread).le h hc fun hp mid hmid => ?_
      cases hmid
      exact hpassed hp
    · obtain ⟨⟨pieces, after⟩, hread, h⟩ := Except.bind_eq_ok_iff.1 h
      simp only [hread, Bool.or_eq_false_iff] at hc
      obtain ⟨w, hw, hpassed⟩ := (passesPieces_piecesOf (by omega) hread hc.1).template
      rw [htemplate] at behind
      rw [htemplate]
      exact behind hw (length_piecesOf hread).le h hc.2 hpassed
    · cases hmark : Mark.at? (c :: r) with
      | none => simp [hmark] at h
      | some m =>
        simp only [hmark] at h hc
        exact behind (List.prefix_iff_eq_append.1 (mark_begins hmark)).symm (m.length_drop c r) h hc
          fun _ _ => .mark
termination_by fuel

theorem passesPieces_piecesOf {fuel : Nat} {text s after : List Char} {pieces : List Piece}
    (hf : s.length < fuel) (h : piecesOf fuel text s = .ok (pieces, after))
    (hc : piecesMeetComment fuel s = false) : PassesPieces s text pieces after := by
  cases fuel with
  | zero => omega
  | succ fuel =>
  cases s with
  | nil => cases h
  | cons c r =>
    simp only [List.length_cons] at hf
    simp only [piecesOf] at h
    simp only [piecesMeetComment] at hc
    split_ifs at h hc with hend hescape hsub
    · cases h
      rw [hend]
      exact .nil
    · obtain ⟨⟨x, rest⟩, hx, h⟩ := Except.bind_eq_ok_iff.1 h
      rw [hx] at hc
      have hlen : rest.length < r.length := readEscape_length hx
      have ih : PassesPieces rest (x :: text) pieces after :=
        passesPieces_piecesOf (by omega) h hc
      obtain ⟨e, more, rfl, he, hmore⟩ := exists_of_readEscape hx
      rw [hescape]
      refine ih.character (w := '\\' :: e :: more) (fun hpassed d => ?_) fun d =>
        .escape (by decide) hmore
      have hsecond : Passes [e] d none d none := by
        rcases he with rfl | he
        · exact passes_of_isPassed hpassed d
        · exact .inert (by simp) he
      exact (passes_of_isPassed (by decide) d).cons (hsecond.cons (.all_inert (by simp) hmore))
    · obtain ⟨rfl, hbrace⟩ := hsub
      obtain ⟨behind, rfl⟩ : ∃ behind, r = '\x7b' :: behind := by
        cases r with
        | nil => simp at hbrace
        | cons b behind => exact ⟨behind, by simpa using hbrace⟩
      rw [List.drop_one, List.tail_cons] at h hc
      cases hsplit : splitSubstitution 0 none behind with
      | none => simp [hsplit] at h
      | some found =>
        obtain ⟨code, rest⟩ := found
        simp only [hsplit, Bool.or_eq_false_iff] at h hc
        obtain ⟨tokens, htokens, h⟩ := Except.bind_eq_ok_iff.1 h
        obtain ⟨⟨more, last⟩, hmore, h⟩ := Except.bind_eq_ok_iff.1 h
        cases h
        have hlen := length_splitSubstitution hsplit
        simp only [List.length_cons] at hf
        rw [eq_of_splitSubstitution hsplit]
        exact (passesPieces_piecesOf (by omega) hmore hc.2).substitution fun hidden hp hclosed =>
          passesCode_tokensOf (by omega) htokens hc.1 hp hclosed
    · refine (passesPieces_piecesOf (by omega) h hc).character (w := [c]) ?_ ?_
      · exact fun hpassed d => passes_of_isPassed hpassed d
      · exact fun d => .quoted hend hescape
termination_by fuel

end

/-! ## Template strings around an expression -/

/-- Whether tokens are those of one expression, with nothing behind it. -/
def IsExpression (tokens : List Token) : Prop :=
  ∃ fuel e, (expression fuel).run (tokens.map .code) = .ok (e, [])

theorem awaitedBehind_of_isExpression {tokens : List Token} (h : IsExpression tokens) :
    awaitedBehind tokens [] = some [] := by
  obtain ⟨fuel, e, he⟩ := h
  exact awaitedBehind_of_whole (nests_expression fuel) he

/-- A template string with one substitution and no text. -/
def substituted (code : String) : String :=
  "\x60$\x7b" ++ code ++ "\x7d\x60"

theorem toList_substituted (code : String) :
    (substituted code).toList = '\x60' :: '$' :: '\x7b' :: code.toList ++ ['\x7d', '\x60'] := by
  simp [substituted, String.toList_append]

theorem splitSubstitution_of_passesCode {code : List Char} (h : PassesCode false code [] [])
    (after : List Char) : splitSubstitution 0 none (code ++ '\x7d' :: after) =
      some (code, after) := by
  have := h 0 ('\x7d' :: after)
  simpa [bracesIn, quoteAround, splitSubstitution, show isQuote '\x7d' = false by decide] using this

theorem piecesOf_substitution {fuel : Nat} {code after : List Char} {tokens : List Token}
    (hs : splitSubstitution 0 none (code ++ '\x7d' :: '\x60' :: after) =
      some (code, '\x60' :: after))
    (ht : tokensOf (fuel + 1) code = .ok tokens) :
    piecesOf (fuel + 2) [] ('$' :: '\x7b' :: code ++ '\x7d' :: '\x60' :: after) =
      .ok ([.substitution tokens], after) := by
  simp [piecesOf, textPiece, hs, ht, Bind.bind, Except.bind]

theorem tokensOf_backtick {fuel : Nat} {s : List Char} {pieces : List Piece}
    (h : piecesOf (fuel + 1) [] s = .ok (pieces, [])) :
    tokensOf (fuel + 2) ('\x60' :: s) = .ok [.template pieces] := by
  have hblank : Text.isBlank '\x60' = false := by decide
  have hnumber : startsNumber ('\x60' :: s) = false := rfl
  have hname : isNameStart '\x60' = false := by decide
  have hend : tokensOf (fuel + 1) [] = .ok [] := rfl
  rw [tokensOf]
  simp only [hblank, hnumber, hname, h, hend, Bind.bind, Except.bind, Except.map]
  rfl

/-- The only token of a template string around an expression without comments has one substitution,
which is the tokens of the expression. -/
theorem tokenize_substituted {code : String} {tokens : List Token} (h : tokenize code = .ok tokens)
    (hc : hasComment code = false) (he : IsExpression tokens)
    (hp : tokensPassed false tokens = true) :
    tokenize (substituted code) = .ok [.template [.substitution tokens]] := by
  have hpasses : PassesCode false code.toList [] [] :=
    passesCode_tokensOf (Nat.lt_succ_self _) h hc hp (awaitedBehind_of_isExpression he)
  have hcode : tokensOf (code.toList.length + 4) code.toList = .ok tokens :=
    (tokensOf_fuel (by omega) (Nat.lt_succ_self _)).trans h
  have hpieces := piecesOf_substitution (splitSubstitution_of_passesCode hpasses ['\x60']) hcode
  have hlength : (substituted code).toList.length = code.toList.length + 5 := by
    simp [toList_substituted]
  rw [tokenize, hlength, toList_substituted]
  exact tokensOf_backtick hpieces

/-- Strings and texts with quotes and braces, an object, and template strings in each other. -/
theorem tokenize_substituted_nested :
    let code :=
      "[\"\x7d\", \x60it's \x7b $\x7b \x7bk: a\x7d.k + \x60b $\x7b'\x7d'\x7d c\x60 \x7d d\x60]"
    let tokens : List Token :=
      [.mark .openBracket, .string "\x7d", .mark .comma,
        .template [.text "it's \x7b ",
          .substitution [.mark .openBrace, .name "k", .mark .colon, .name "a", .mark .closeBrace,
            .mark .dot, .name "k", .mark .plus,
              .template [.text "b ", .substitution [.string "\x7d"], .text " c"]],
          .text " d"],
        .mark .closeBracket]
    tokenize code = .ok tokens ∧ hasComment code = false ∧ IsExpression tokens ∧
      tokensPassed false tokens = true ∧
      tokenize (substituted code) = .ok [.template [.substitution tokens]] := by
  intro code tokens
  have hread : tokenize code = .ok tokens := by cbv
  have hcomment : hasComment code = false := by cbv
  have hwhole : IsExpression tokens := ⟨20, _, rfl⟩
  have hpassed : tokensPassed false tokens = true := by cbv
  exact ⟨hread, hcomment, hwhole, hpassed, tokenize_substituted hread hcomment hwhole hpassed⟩

/-- The brace in the innermost text ends the outermost substitution: to the scan it stands between
the strings that the backticks around it end and begin. -/
theorem tokenize_substituted_differs :
    let code := "\x60$\x7b\x60\x7d\x60\x7d\x60"
    let tokens : List Token := [.template [.substitution [.template [.text "\x7d"]]]]
    tokenize code = .ok tokens ∧ hasComment code = false ∧ IsExpression tokens ∧
      tokenize (substituted code) = .error .unclosedSubstitution := by
  intro code tokens
  have hread : tokenize code = .ok tokens := by cbv
  have hcomment : hasComment code = false := by cbv
  have hwhole : IsExpression tokens := ⟨8, _, rfl⟩
  have hfails : tokenize (substituted code) = .error .unclosedSubstitution := by cbv
  exact ⟨hread, hcomment, hwhole, hfails⟩

end StaticSite.Template
