import StaticSite.Proofs.Minify.Literals

/-!
# Pieces of any stylesheet

Every text is read as a sequence of pieces, whether it is a sheet or not (`pieces`): marks, blanks,
comments and strings. A comment or a string that is not closed reaches to the end. Nothing is lost
when a text is read (`source_pieces`), and pieces that stand one after the other are read back
(`pieces_sourceOf`). Only the last string may be open (`Stands.rest_eq_nil`).
-/

namespace StaticSite.Minify

/-! ## Pieces -/

/-- A comment has the text behind its opening mark, a string the text behind its opening quote; both
have their end, unless they are open. -/
inductive Piece where
  | mark (c : Char)
  | blank (c : Char)
  | comment (text : List Char)
  | string (quote : Char) (text : List Char)
deriving DecidableEq, Repr

/-- A string is closed if it ends in the quote that began it, behind escape pairs and other
characters. -/
def IsClosed (quote : Char) (text : List Char) : Prop :=
  ∃ body, isQuotedText quote body = true ∧ text = body ++ [quote]

namespace Piece

/-- The text of a piece. -/
def source : Piece → List Char
  | mark c => [c]
  | blank c => [c]
  | comment text => '/' :: '*' :: text
  | string quote text => quote :: text

/-- Blanks and comments say nothing by themselves. -/
def isNoise : Piece → Bool
  | blank _ | comment _ => true
  | mark _ | string _ _ => false

/-- Whether a piece is a blank. -/
def isBlank : Piece → Bool
  | blank _ => true
  | _ => false

/-- Whether a piece is a comment. -/
def isComment : Piece → Bool
  | comment _ => true
  | _ => false

/-- Whether a piece is a string. -/
def isString : Piece → Bool
  | string _ _ => true
  | _ => false

/-- A string that its quote does not end. -/
def IsOpen : Piece → Prop
  | string quote text => ¬ IsClosed quote text
  | _ => False

/-- What is read first of a piece before `rest` is the piece. -/
def Stands (rest : List Char) : Piece → Prop
  | mark c => Text.isBlank c = false ∧ isQuote c = false ∧ (c = '/' → rest.head? ≠ some '*')
  | blank c => Text.isBlank c = true
  | comment text => splitComment (text ++ rest) = (text, rest)
  | string quote text => isQuote quote = true ∧ splitQuoted quote (text ++ rest) = (text, rest)

theorem source_ne_nil (piece : Piece) : piece.source ≠ [] := by
  cases piece <;> exact List.cons_ne_nil _ _

end Piece

/-- What a text is read as. -/
def pieces : List Char → List Piece
  | [] => []
  | '/' :: '*' :: r =>
    have := splitComment_length r
    .comment (splitComment r).1 :: pieces (splitComment r).2
  | c :: r =>
    if Text.isBlank c then .blank c :: pieces r
    else if isQuote c then
      have := splitQuoted_length c r
      .string c (splitQuoted c r).1 :: pieces (splitQuoted c r).2
    else .mark c :: pieces r
termination_by s => s.length

/-- The text of some pieces. -/
def sourceOfPieces (ps : List Piece) : List Char :=
  ps.flatMap Piece.source

@[simp]
theorem sourceOfPieces_nil : sourceOfPieces [] = [] := rfl

@[simp]
theorem sourceOfPieces_cons (piece : Piece) (rest : List Piece) :
    sourceOfPieces (piece :: rest) = piece.source ++ sourceOfPieces rest := rfl

@[simp]
theorem sourceOfPieces_append (first second : List Piece) :
    sourceOfPieces (first ++ second) = sourceOfPieces first ++ sourceOfPieces second :=
  List.flatMap_append

theorem sourceOfPieces_eq_nil_iff {ps : List Piece} : sourceOfPieces ps = [] ↔ ps = [] := by
  cases ps with
  | nil => simp
  | cons piece rest => simp [piece.source_ne_nil]

/-! ## Strings -/

theorem isEscaped_cons {p : Char → Bool} {c : Char} (h : c ≠ '\\') (r : List Char) :
    isEscaped p (c :: r) = (p c && isEscaped p r) := by
  rw [isEscaped]
  · rintro rfl
    exact absurd rfl h
  · rintro _ _ rfl
    exact absurd rfl h

/-- A string is closed, or nothing stands behind it. -/
theorem isClosed_or_of_splitQuoted {quote : Char} {s text rest : List Char}
    (h : splitQuoted quote s = (text, rest)) : IsClosed quote text ∨ rest = [] := by
  fun_induction splitQuoted quote s generalizing text with
  | case1 | case2 =>
    cases h
    exact .inr rfl
  | case3 c r ih =>
    cases h
    refine (ih rfl).imp_left ?_
    rintro ⟨body, hbody, he⟩
    exact ⟨'\\' :: c :: body, hbody, by rw [he]; rfl⟩
  | case4 r hlast hpair =>
    cases h
    exact .inl ⟨[], rfl, rfl⟩
  | case5 c r hlast hpair hc ih =>
    cases h
    refine (ih rfl).imp_left ?_
    rintro ⟨body, hbody, he⟩
    refine ⟨c :: body, ?_, by rw [he]; rfl⟩
    rw [isQuotedText, isEscaped_cons (ne_backslash hlast hpair), Bool.and_eq_true]
    exact ⟨bne_iff_ne.2 hc, hbody⟩

namespace Piece.Stands

variable {rest : List Char}

/-- Nothing stands behind an open string. -/
theorem rest_eq_nil {piece : Piece} (h : piece.Stands rest) (ho : piece.IsOpen) : rest = [] := by
  cases piece with
  | mark | blank | comment => exact ho.elim
  | string quote text => exact (isClosed_or_of_splitQuoted h.2).resolve_left ho

/-- Another text may stand behind a string, and none behind an open one. -/
theorem string {quote : Char} {text : List Char} (h : (string quote text).Stands rest)
    {other : List Char} (ho : rest = [] → other = []) : (Piece.string quote text).Stands other := by
  refine ⟨h.1, ?_⟩
  rcases isClosed_or_of_splitQuoted h.2 with ⟨body, hbody, rfl⟩ | hnil
  · rw [List.append_assoc]
    exact splitQuoted_append_quote h.1 hbody other
  · rw [ho hnil, ← hnil]
    exact h.2

end Piece.Stands

/-! ## Reading -/

section Reading

variable (rest : List Char)

theorem pieces_nil : pieces [] = [] := by
  rw [pieces.eq_def]

theorem pieces_star :
    pieces ('/' :: '*' :: rest) = .comment (splitComment rest).1 ::
      pieces (splitComment rest).2 := by
  rw [pieces.eq_def]
  rfl

/-- The piece at a character at which no comment starts. -/
theorem pieces_cons {c : Char} (h : c = '/' → rest.head? ≠ some '*') :
    pieces (c :: rest) =
      if Text.isBlank c then .blank c :: pieces rest
      else if isQuote c then .string c (splitQuoted c rest).1 :: pieces (splitQuoted c rest).2
      else .mark c :: pieces rest := by
  rw [pieces.eq_def]
  split
  · rename_i hnil
    cases hnil
  · rename_i hcons
    cases hcons
    exact absurd rfl (h rfl)
  · rename_i hcons
    cases hcons
    rfl

theorem ne_slash_of_isBlank {c : Char} (h : Text.isBlank c = true) : c ≠ '/' := by
  rintro rfl
  cases h

/-- A piece is read off what follows it. -/
theorem pieces_source_append {piece : Piece} (h : piece.Stands rest) :
    pieces (piece.source ++ rest) = piece :: pieces rest := by
  cases piece with
  | mark c =>
    obtain ⟨hblank, hquote, hslash⟩ := h
    refine (pieces_cons rest hslash).trans ?_
    rw [if_neg (Bool.eq_false_iff.1 hblank), if_neg (Bool.eq_false_iff.1 hquote)]
  | blank c =>
    have hblank : Text.isBlank c = true := h
    refine (pieces_cons rest fun hc => absurd hc (ne_slash_of_isBlank hblank)).trans ?_
    rw [if_pos hblank]
  | comment text =>
    refine (pieces_star (text ++ rest)).trans ?_
    rw [show splitComment (text ++ rest) = (text, rest) from h]
  | string quote text =>
    obtain ⟨hquote, hsplit⟩ := h
    refine (pieces_cons (text ++ rest) fun hc => absurd hc (ne_of_isQuote hquote rfl)).trans ?_
    rw [if_neg (Bool.eq_false_iff.1 (notBlank_of_isQuote hquote)), if_pos hquote, hsplit]

end Reading

/-- Each piece stands before those behind it. -/
def AreRead : List Piece → Prop
  | [] => True
  | piece :: rest => piece.Stands (sourceOfPieces rest) ∧ AreRead rest

theorem pieces_sourceOf {ps : List Piece} (h : AreRead ps) : pieces (sourceOfPieces ps) = ps := by
  induction ps with
  | nil => exact pieces_nil
  | cons piece rest ih => rw [sourceOfPieces_cons, pieces_source_append _ h.1, ih h.2]

theorem source_pieces (s : List Char) : sourceOfPieces (pieces s) = s := by
  fun_induction pieces s with
  | case1 => rfl
  | case2 r hlength ih => simpa [Piece.source, ih] using splitComment_append r
  | case3 c r hcomment hblank ih => simpa [Piece.source] using ih
  | case4 c r hcomment hblank hquote hlength ih =>
    simpa [Piece.source, ih] using splitQuoted_append c r
  | case5 c r hcomment hblank hquote ih => simpa [Piece.source] using ih

theorem areRead_pieces (s : List Char) : AreRead (pieces s) := by
  fun_induction pieces s with
  | case1 => trivial
  | case2 r hlength ih =>
    refine ⟨?_, ih⟩
    rw [source_pieces, Piece.Stands, splitComment_append]
  | case3 c r hcomment hblank ih => exact ⟨hblank, ih⟩
  | case4 c r hcomment hblank hquote hlength ih =>
    refine ⟨⟨hquote, ?_⟩, ih⟩
    rw [source_pieces, splitQuoted_append]
  | case5 c r hcomment hblank hquote ih =>
    refine ⟨⟨Bool.eq_false_iff.2 hblank, Bool.eq_false_iff.2 hquote, fun hc hstar => ?_⟩, ih⟩
    rw [source_pieces] at hstar
    cases r with
    | nil => cases hstar
    | cons d r => exact hcomment r hc (congrArg (· :: r) (Option.some.inj hstar))

end StaticSite.Minify
