import StaticSite.Proofs.Minify.Pieces
import StaticSite.Proofs.Minify.Sheet

/-!
# Tidy form of any stylesheet

In the tidy form of a text (`tidyPieces`) blanks and comments between two other pieces are one
space, or nothing next to a separator, and a semicolon before a closing brace is gone (`IsTidy`).
Minifying a text gives its tidy form (`toList_style`), which is read back as it is (`pieces_style`).
-/

namespace StaticSite.Minify

/-! ## Tidy form -/

namespace Piece

/-- The first character of a piece. -/
def first : Piece → Char
  | mark c => c
  | blank c => c
  | comment _ => '/'
  | string quote _ => quote

/-- Whether no blank is needed behind a piece. -/
def isTightAfter : Piece → Bool
  | mark c => tightAfter c
  | _ => false

/-- Whether no blank is needed in front of a piece. -/
def isTightBefore : Piece → Bool
  | mark c => tightBefore c
  | _ => false

/-- A semicolon. -/
def semicolon : Piece :=
  mark ';'

/-- A closing brace. -/
def closingBrace : Piece :=
  mark '\x7d'

/-- A single blank. -/
def space : Piece :=
  blank ' '

/-- A space between the pieces says nothing. -/
def areTight (before next : Piece) : Bool :=
  before.isTightAfter || next.isTightBefore

/-- Whether a semicolon stands right before a closing brace. -/
def isLastSemicolon (before next : Piece) : Bool :=
  before == semicolon && next == closingBrace

/-- What is left of blanks and comments between two pieces, if there is a gap. -/
def between (before : Piece) (gap : Bool) (next : Piece) : List Piece :=
  if gap && !areTight before next then [space] else []

end Piece

open Piece (semicolon closingBrace space areTight isLastSemicolon between)

/-- The tidy form from a piece on, with a gap behind it or not. -/
def tidyPiecesFrom (before : Piece) (gap : Bool) : List Piece → List Piece
  | [] => [before]
  | next :: rest =>
    if next.isNoise then tidyPiecesFrom before true rest
    else
      (if isLastSemicolon before next then [] else [before]) ++ between before gap next ++
        tidyPiecesFrom next false rest

/-- The tidy form of some pieces. -/
def tidyPieces : List Piece → List Piece
  | [] => []
  | piece :: rest => if piece.isNoise then tidyPieces rest else tidyPiecesFrom piece false rest

/-- The pieces that say something. -/
def core (ps : List Piece) : List Piece :=
  ps.filter fun piece => !piece.isNoise

section Core

variable {piece : Piece} (rest : List Piece)

theorem core_cons_of_noise (h : piece.isNoise = true) : core (piece :: rest) = core rest := by
  simp [core, h]

theorem core_cons (h : piece.isNoise = false) : core (piece :: rest) = piece :: core rest := by
  simp [core, h]

variable (before : Piece) (gap : Bool)

theorem tidyPiecesFrom_of_noise (h : piece.isNoise = true) :
    tidyPiecesFrom before gap (piece :: rest) = tidyPiecesFrom before true rest := by
  rw [tidyPiecesFrom, if_pos h]

theorem tidyPiecesFrom_cons (h : piece.isNoise = false) :
    tidyPiecesFrom before gap (piece :: rest) =
      (if isLastSemicolon before piece then [] else [before]) ++ between before gap piece ++
        tidyPiecesFrom piece false rest := by
  rw [tidyPiecesFrom, if_neg (Bool.eq_false_iff.1 h)]

end Core

namespace Piece

theorem isLastSemicolon_iff {before next : Piece} :
    isLastSemicolon before next = true ↔ before = semicolon ∧ next = closingBrace := by
  simp [isLastSemicolon]

theorem between_closingBrace (before : Piece) (gap : Bool) :
    between before gap closingBrace = [] := by
  have htight : areTight before closingBrace = true := by
    simp [areTight, closingBrace, isTightBefore, tightBefore]
  simp [between, htight]

theorem between_semicolon (gap : Bool) (next : Piece) : between semicolon gap next = [] := by
  have htight : areTight semicolon next = true := by
    simp [areTight, semicolon, isTightAfter, tightAfter]
  simp [between, htight]

theorem between_cases (before : Piece) (gap : Bool) (next : Piece) :
    between before gap next = [] ∧ (gap = false ∨ areTight before next = true) ∨
      between before gap next = [space] ∧ areTight before next = false := by
  unfold between
  cases gap <;> cases areTight before next <;> simp

end Piece

/-- The tidy form begins with its first piece, unless that is a semicolon before a brace. -/
theorem head?_tidyPiecesFrom (before : Piece) (gap : Bool) (ps : List Piece) :
    (tidyPiecesFrom before gap ps).head? =
      some (if before = semicolon ∧ (core ps).head? = some closingBrace then closingBrace
        else before) := by
  induction ps generalizing before gap with
  | nil => simp [tidyPiecesFrom, core]
  | cons next rest ih =>
    by_cases hnoise : next.isNoise = true
    · rw [tidyPiecesFrom_of_noise rest before gap hnoise, core_cons_of_noise rest hnoise, ih]
    · have hkept := Bool.eq_false_iff.2 hnoise
      rw [tidyPiecesFrom_cons rest before gap hkept, core_cons rest hkept]
      by_cases hlast : isLastSemicolon before next = true
      · obtain ⟨rfl, rfl⟩ := Piece.isLastSemicolon_iff.1 hlast
        rw [if_pos hlast, Piece.between_closingBrace, List.nil_append, List.nil_append, ih]
        simp [semicolon, closingBrace]
      · have hnot : ¬ (before = semicolon ∧ some next = some closingBrace) := by
          rw [Option.some.injEq, ← Piece.isLastSemicolon_iff]
          exact hlast
        rw [if_neg hlast, List.head?_cons, if_neg hnot]
        rfl

/-! ## Minifying -/

namespace Piece

/-- The piece was read where `ps` stand behind it, at once or behind a gap. -/
def Precedes (before : Piece) (gap : Bool) (ps : List Piece) : Prop :=
  ∃ behind, before.Stands behind ∧ (behind = [] → ps = []) ∧
    (gap = false → behind = sourceOfPieces ps)

variable {before next : Piece} {gap : Bool} {ps : List Piece}

theorem Stands.precedes (h : before.Stands (sourceOfPieces ps)) : before.Precedes false ps :=
  ⟨_, h, sourceOfPieces_eq_nil_iff.1, fun _ => rfl⟩

theorem Precedes.pass (h : before.Precedes gap (next :: ps)) : before.Precedes true ps := by
  obtain ⟨behind, hstands, hnil, -⟩ := h
  exact ⟨behind, hstands, fun he => absurd (hnil he) (List.cons_ne_nil _ _), nofun⟩

theorem Precedes.not_isOpen (h : before.Precedes gap (next :: ps)) : ¬ before.IsOpen := by
  obtain ⟨behind, hstands, hnil, -⟩ := h
  exact fun ho => absurd (hnil (hstands.rest_eq_nil ho)) (List.cons_ne_nil _ _)

/-- The last character of a piece that is not open tells what it is to the piece behind it. -/
theorem Stands.exists_last {rest : List Char} (h : before.Stands rest)
    (hnoise : before.isNoise = false)
    (ho : ¬ before.IsOpen) : ∃ c r, before.source.reverse = c :: r ∧
      tightAfter c = before.isTightAfter ∧ (c = ';' ↔ before = semicolon) := by
  cases before with
  | blank | comment => cases hnoise
  | mark c => exact ⟨c, [], rfl, rfl, by simp [semicolon]⟩
  | string quote text =>
    obtain ⟨body, -, rfl⟩ := Classical.not_not.1 ho
    refine ⟨quote, (quote :: body).reverse, by simp [source], ?_, ?_⟩
    · rcases isQuote_cases h.1 with rfl | rfl <;> rfl
    · simpa [semicolon] using ne_of_isQuote h.1 (d := ';') rfl

theorem Stands.first_eq {rest : List Char} (h : next.Stands rest) (hnoise : next.isNoise = false) :
    tightBefore next.first = next.isTightBefore ∧ (next.first = '\x7d' ↔ next = closingBrace) := by
  cases next with
  | blank | comment => cases hnoise
  | mark c => exact ⟨rfl, by simp [first, closingBrace]⟩
  | string quote text =>
    refine ⟨?_, ?_⟩
    · rcases isQuote_cases h.1 with rfl | rfl <;> rfl
    · simpa [first, closingBrace] using ne_of_isQuote h.1 (d := '\x7d') rfl

end Piece

section Steps

variable (out : List Char) (gap : Bool) {piece before next : Piece} {rest : List Char}

theorem styleFrom_noise (h : piece.Stands rest) (hnoise : piece.isNoise = true) :
    styleFrom out gap (piece.source ++ rest) = styleFrom out true rest := by
  cases piece with
  | mark | string => cases hnoise
  | blank c =>
    have hblank : Text.isBlank c = true := h
    refine (Sheet.styleFrom_cons out gap rest fun hc =>
      absurd hc (ne_slash_of_isBlank hblank)).trans ?_
    rw [if_pos hblank]
  | comment text =>
    refine (Sheet.styleFrom_star out gap (text ++ rest)).trans ?_
    rw [show splitComment (text ++ rest) = (text, rest) from h]

theorem styleFrom_kept (h : piece.Stands rest) (hnoise : piece.isNoise = false) :
    styleFrom out gap (piece.source ++ rest) =
      styleFrom (piece.source.reverse ++ styleBefore gap piece.first out) false rest := by
  cases piece with
  | blank | comment => cases hnoise
  | mark c =>
    obtain ⟨hblank, hquote, hslash⟩ := h
    exact Sheet.styleFrom_character out gap rest hblank hquote hslash
  | string quote text =>
    obtain ⟨hquote, hsplit⟩ := h
    have hslash : quote = '/' → (text ++ rest).head? ≠ some '*' :=
      fun hc => absurd hc (ne_of_isQuote hquote rfl)
    refine (Sheet.styleFrom_cons out gap (text ++ rest) hslash).trans ?_
    rw [if_neg (Bool.eq_false_iff.1 (notBlank_of_isQuote hquote)), if_pos (isQuote_cases hquote),
      hsplit]
    simp [Piece.source, Piece.first]

theorem space_kept {behind : List Char} (hstands : before.Stands behind) (ho : ¬ before.IsOpen)
    (hbefore : before.isNoise = false) (h : next.Stands rest) (hnext : next.isNoise = false) :
    (if gap then spaceBefore next.first (before.source.reverse ++ out)
      else before.source.reverse ++ out) =
        sourceOfPieces (between before gap next) ++ (before.source.reverse ++ out) := by
  obtain ⟨c, r, hsource, hafter, -⟩ := hstands.exists_last hbefore ho
  unfold between areTight
  rw [hsource, ← hafter, ← (h.first_eq hnext).1]
  cases gap
  · simp
  · cases htight : tightAfter c || tightBefore next.first <;>
      simp [spaceBefore, htight, space, Piece.source]

theorem dropSemicolon_kept {behind : List Char} (hstands : before.Stands behind)
    (ho : ¬ before.IsOpen)
    (hbefore : before.isNoise = false) : dropSemicolon (before.source.reverse ++ out) =
      (sourceOfPieces (if before = semicolon then [] else [before])).reverse ++ out := by
  obtain ⟨c, r, hsource, -, hsemicolon⟩ := hstands.exists_last hbefore ho
  by_cases hs : before = semicolon
  · subst hs
    simp [semicolon, Piece.source, dropSemicolon]
  · have hkeep : dropSemicolon (c :: (r ++ out)) = c :: (r ++ out) := by
      unfold dropSemicolon
      split
      · rename_i he
        exact absurd (hsemicolon.1 (List.cons.inj he).1) hs
      · rfl
    simp [hs, hsource, hkeep]

/-- What is written of two pieces before the second one is. -/
theorem styleBefore_kept (hbefore : before.isNoise = false) (hnext : next.isNoise = false)
    (h : next.Stands rest) {ps : List Piece} (hp : before.Precedes gap (next :: ps)) :
    styleBefore gap next.first (before.source.reverse ++ out) =
      (sourceOfPieces ((if isLastSemicolon before next then [] else [before]) ++
        between before gap next)).reverse ++ out := by
  obtain ⟨behind, hstands, -⟩ := id hp
  unfold styleBefore
  rw [space_kept out gap hstands hp.not_isOpen hbefore h hnext]
  by_cases hb : next = closingBrace
  · subst hb
    rw [Piece.between_closingBrace]
    refine (dropSemicolon_kept out hstands hp.not_isOpen hbefore).trans ?_
    simp [isLastSemicolon]
  · have hreverse : (sourceOfPieces (between before gap next)).reverse =
        sourceOfPieces (between before gap next) := by
      unfold between
      split <;> rfl
    rw [if_neg (mt (h.first_eq hnext).2.1 hb)]
    simp [isLastSemicolon, hb, hreverse]

end Steps

/-- Minifying the rest of a text behind a piece. -/
theorem styleFrom_pieces {before : Piece} {gap : Bool} {ps : List Piece}
    (hbefore : before.isNoise = false)
    (hp : before.Precedes gap ps) (h : AreRead ps) (out : List Char) :
    styleFrom (before.source.reverse ++ out) gap (sourceOfPieces ps) =
      (sourceOfPieces (tidyPiecesFrom before gap ps)).reverse ++ out := by
  induction ps generalizing before gap out with
  | nil => simp [tidyPiecesFrom, Sheet.styleFrom_nil]
  | cons next rest ih =>
    obtain ⟨hnext, hrest⟩ := h
    rw [sourceOfPieces_cons]
    by_cases hnoise : next.isNoise = true
    · rw [styleFrom_noise _ gap hnext hnoise, tidyPiecesFrom_of_noise rest before gap hnoise,
        ih hbefore hp.pass hrest]
    · have hkept := Bool.eq_false_iff.2 hnoise
      rw [styleFrom_kept _ gap hnext hkept, styleBefore_kept out gap hbefore hkept hnext hp,
        ih hkept hnext.precedes hrest, tidyPiecesFrom_cons rest before gap hkept]
      simp

theorem styleFrom_start {ps : List Piece} (h : AreRead ps) (gap : Bool) :
    styleFrom [] gap (sourceOfPieces ps) = (sourceOfPieces (tidyPieces ps)).reverse := by
  induction ps generalizing gap with
  | nil => exact Sheet.styleFrom_nil [] gap
  | cons piece rest ih =>
    obtain ⟨hpiece, hrest⟩ := h
    rw [sourceOfPieces_cons, tidyPieces]
    by_cases hnoise : piece.isNoise = true
    · rw [styleFrom_noise [] gap hpiece hnoise, if_pos hnoise, ih hrest]
    · have hkept := Bool.eq_false_iff.2 hnoise
      have hstart : styleBefore gap piece.first [] = [] := by
        cases gap <;> simp [styleBefore, spaceBefore, dropSemicolon]
      rw [styleFrom_kept [] gap hpiece hkept, hstart, if_neg hnoise,
        styleFrom_pieces hkept hpiece.precedes hrest, List.append_nil]

/-- Minifying a text gives its tidy form. -/
theorem toList_style (s : String) :
    (style s).toList = sourceOfPieces (tidyPieces (pieces s.toList)) := by
  have hstart := styleFrom_start (areRead_pieces s.toList) false
  rw [source_pieces] at hstart
  rw [style, String.toList_ofList, hstart, List.reverse_reverse]

/-! ## Reading the tidy form -/

theorem head?_sourceOfPieces (ps : List Piece) :
    (sourceOfPieces ps).head? = ps.head?.map Piece.first := by
  cases ps with
  | nil => rfl
  | cons piece rest => cases piece <;> rfl

namespace Piece

variable {before next : Piece} {gap : Bool} {ps : List Piece}

/-- Another text may stand behind a piece, if no comment begins there and none stands behind an open
string. -/
theorem Stands.change {rest other : List Char} (h : before.Stands rest)
    (hnoise : before.isNoise = false) (hnil : rest = [] → other = [])
    (hstar : before = mark '/' → other.head? = some '*' → rest.head? = some '*') :
    before.Stands other := by
  cases before with
  | blank | comment => cases hnoise
  | mark c =>
    obtain ⟨hblank, hquote, hslash⟩ := h
    exact ⟨hblank, hquote, fun hc ho => hslash hc (hstar (congrArg mark hc) ho)⟩
  | string quote text => exact h.string hnil

/-- Where blanks and comments were, no comment begins in the tidy form. -/
theorem Precedes.stands_tidy (h : before.Precedes gap (next :: ps))
    (hbefore : before.isNoise = false) :
    before.Stands (sourceOfPieces (between before gap next ++ tidyPiecesFrom next false ps)) := by
  obtain ⟨behind, hstands, hnil, hgap⟩ := h
  refine hstands.change hbefore (fun he => absurd (hnil he) (List.cons_ne_nil _ _)) ?_
  rintro rfl hhead
  rw [head?_sourceOfPieces] at hhead
  rcases between_cases (mark '/') gap next with ⟨hbetween, hor⟩ | ⟨hbetween, -⟩
  · rw [hbetween, List.nil_append, head?_tidyPiecesFrom, Option.map_some,
      Option.some.injEq] at hhead
    split at hhead
    · cases hhead
    · rcases hor with hnone | htight
      · rw [hgap hnone, head?_sourceOfPieces, List.head?_cons, Option.map_some, hhead]
      · cases next with
        | blank | comment | string => cases htight
        | mark c =>
          obtain rfl : c = '*' := hhead
          cases htight
  · rw [hbetween] at hhead
    cases hhead

end Piece

theorem areRead_tidyPiecesFrom {before : Piece} {gap : Bool} {ps : List Piece}
    (hbefore : before.isNoise = false) (hp : before.Precedes gap ps) (h : AreRead ps) :
    AreRead (tidyPiecesFrom before gap ps) := by
  induction ps generalizing before gap with
  | nil =>
    obtain ⟨behind, hstands, -⟩ := hp
    exact ⟨hstands.change hbefore (fun _ => rfl) nofun, trivial⟩
  | cons next rest ih =>
    obtain ⟨hnext, hrest⟩ := h
    by_cases hnoise : next.isNoise = true
    · rw [tidyPiecesFrom_of_noise rest before gap hnoise]
      exact ih hbefore hp.pass hrest
    · have hkept := Bool.eq_false_iff.2 hnoise
      have htail := ih hkept hnext.precedes hrest
      have hbetween : AreRead (between before gap next ++ tidyPiecesFrom next false rest) := by
        unfold between
        split
        · exact ⟨isBlank_space, htail⟩
        · exact htail
      rw [tidyPiecesFrom_cons rest before gap hkept, List.append_assoc]
      split
      · exact hbetween
      · exact ⟨hp.stands_tidy hbefore, hbetween⟩

theorem areRead_tidyPieces {ps : List Piece} (h : AreRead ps) : AreRead (tidyPieces ps) := by
  induction ps with
  | nil => trivial
  | cons piece rest ih =>
    obtain ⟨hpiece, hrest⟩ := h
    rw [tidyPieces]
    split
    · exact ih hrest
    · rename_i hnoise
      exact areRead_tidyPiecesFrom (Bool.eq_false_iff.2 hnoise) hpiece.precedes hrest

/-- The tidy form is read as it was written. -/
theorem pieces_style (s : String) : pieces (style s).toList = tidyPieces (pieces s.toList) := by
  rw [toList_style, pieces_sourceOf (areRead_tidyPieces (areRead_pieces s.toList))]

/-! ## What stands beside what -/

/-- Pieces that say something, some of them with a space before the next one. A space stands where
it says something too. -/
inductive IsTidy : List Piece → Prop
  | nil : IsTidy []
  | last {piece : Piece} (h : piece.isNoise = false) : IsTidy [piece]
  | beside {piece next : Piece} {rest : List Piece} (h : piece.isNoise = false)
    (hrest : IsTidy (next :: rest)) : IsTidy (piece :: next :: rest)
  | apart {piece next : Piece} {rest : List Piece} (h : piece.isNoise = false)
    (ht : areTight piece next = false) (hrest : IsTidy (next :: rest)) :
    IsTidy (piece :: space :: next :: rest)

theorem isTidy_tidyPiecesFrom {before : Piece} (gap : Bool) (ps : List Piece)
    (h : before.isNoise = false) : IsTidy (tidyPiecesFrom before gap ps) := by
  induction ps generalizing before gap with
  | nil => exact .last h
  | cons next rest ih =>
    by_cases hnoise : next.isNoise = true
    · rw [tidyPiecesFrom_of_noise rest before gap hnoise]
      exact ih true h
    · have hkept := Bool.eq_false_iff.2 hnoise
      have htail := ih false hkept
      have hhead := head?_tidyPiecesFrom next false rest
      rw [tidyPiecesFrom_cons rest before gap hkept]
      obtain ⟨first, more, hmore⟩ : ∃ first more,
        tidyPiecesFrom next false rest = first :: more := by
        cases hcases : tidyPiecesFrom next false rest with
        | nil => simp [hcases] at hhead
        | cons first more => exact ⟨first, more, rfl⟩
      rw [hmore] at htail hhead ⊢
      by_cases hlast : isLastSemicolon before next = true
      · obtain ⟨rfl, rfl⟩ := Piece.isLastSemicolon_iff.1 hlast
        rw [if_pos hlast, Piece.between_closingBrace]
        exact htail
      · rw [if_neg hlast]
        rcases Piece.between_cases before gap next with ⟨hbetween, -⟩ | ⟨hbetween, htight⟩
        · rw [hbetween]
          exact .beside h htail
        · -- A semicolon is not apart from what stands before it, so the next piece is there.
          have hnext : next ≠ semicolon := by
            rintro rfl
            simp [areTight, semicolon, Piece.isTightBefore, tightBefore] at htight
          rw [if_neg fun hs => hnext hs.1] at hhead
          obtain rfl : first = next := Option.some.inj hhead
          rw [hbetween]
          exact .apart h htight htail

theorem isTidy_tidyPieces (ps : List Piece) : IsTidy (tidyPieces ps) := by
  induction ps with
  | nil => exact .nil
  | cons piece rest ih =>
    rw [tidyPieces]
    split
    · exact ih
    · rename_i hnoise
      exact isTidy_tidyPiecesFrom false rest (Bool.eq_false_iff.2 hnoise)

namespace IsTidy

variable {ps : List Piece}

theorem noise_head {piece : Piece} (h : IsTidy (piece :: ps)) : piece.isNoise = false := by
  cases h <;> assumption

theorem eq_space (h : IsTidy ps) {piece : Piece} (hp : piece ∈ ps) (hnoise : piece.isNoise = true) :
    piece = space := by
  induction h with
  | nil => cases hp
  | last hkept =>
    obtain rfl := List.mem_singleton.1 hp
    simp [hnoise] at hkept
  | beside hkept hrest ih =>
    rcases List.mem_cons.1 hp with rfl | hp
    · simp [hnoise] at hkept
    · exact ih hp
  | apart hkept htight hrest ih =>
    rcases List.mem_cons.1 hp with rfl | hp
    · simp [hnoise] at hkept
    · rcases List.mem_cons.1 hp with rfl | hp
      · rfl
      · exact ih hp

/-- Of two pieces that stand side by side, at least one says something. -/
theorem not_noise_beside (h : IsTidy ps) {first second : Piece} (hp : [first, second] <:+: ps) :
    first.isNoise = false ∨ second.isNoise = false := by
  induction h with
  | nil => simp at hp
  | last hkept => simp [List.infix_cons_iff] at hp
  | beside hkept hrest ih =>
    rcases List.infix_cons_iff.1 hp with hprefix | hp
    · obtain ⟨rfl, -⟩ := List.cons_prefix_cons.1 hprefix
      exact .inl hkept
    · exact ih hp
  | apart hkept htight hrest ih =>
    rcases List.infix_cons_iff.1 hp with hprefix | hp
    · obtain ⟨rfl, -⟩ := List.cons_prefix_cons.1 hprefix
      exact .inl hkept
    · rcases List.infix_cons_iff.1 hp with hprefix | hp
      · obtain ⟨-, hprefix⟩ := List.cons_prefix_cons.1 hprefix
        obtain ⟨rfl, -⟩ := List.cons_prefix_cons.1 hprefix
        exact .inr hrest.noise_head
      · exact ih hp

theorem noise_getLast (h : IsTidy ps) {piece : Piece} (hp : piece ∈ ps.getLast?) :
    piece.isNoise = false := by
  induction h with
  | nil => cases hp
  | last hkept =>
    obtain rfl := Option.some.inj hp
    exact hkept
  | beside hkept hrest ih => exact ih hp
  | apart hkept htight hrest ih => exact ih hp

end IsTidy

end StaticSite.Minify
