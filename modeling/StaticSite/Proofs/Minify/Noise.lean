import StaticSite.Proofs.Minify.Tidy

/-!
# What minifying leaves of any stylesheet

The content of a text is what it says: its pieces without blanks, comments and semicolons before a
closing brace. Minifying keeps the content, and leaves no comments and only single blanks between
the pieces (`style_keepsContent`).
-/

namespace StaticSite.Minify

open Piece (semicolon closingBrace isLastSemicolon between)

/-! ## Contents -/

/-- Drops each run of semicolons before a closing brace: a semicolon goes if the brace is next once
those behind it are gone. -/
def dropSemicolons : List Piece → List Piece
  | [] => []
  | piece :: rest =>
    if piece = semicolon ∧ (dropSemicolons rest).head? = some closingBrace then dropSemicolons rest
    else piece :: dropSemicolons rest

/-- What a text says: no blanks, no comments and no semicolons before a closing brace. -/
def content (ps : List Piece) : List Piece :=
  dropSemicolons (core ps)

theorem dropSemicolons_congr (piece : Piece) {ps qs : List Piece}
    (h : dropSemicolons ps = dropSemicolons qs) :
    dropSemicolons (piece :: ps) = dropSemicolons (piece :: qs) := by
  rw [dropSemicolons, dropSemicolons, h]

theorem dropSemicolons_brace (ps : List Piece) :
    dropSemicolons (closingBrace :: ps) = closingBrace :: dropSemicolons ps := by
  rw [dropSemicolons, if_neg fun h => absurd h.1 (by decide)]

theorem dropSemicolons_semicolon_brace (ps : List Piece) :
    dropSemicolons (semicolon :: closingBrace :: ps) = dropSemicolons (closingBrace :: ps) := by
  rw [dropSemicolons, if_pos ⟨rfl, by rw [dropSemicolons_brace]; rfl⟩]

theorem core_between_append (before : Piece) (gap : Bool) (next : Piece) (ps : List Piece) :
    core (between before gap next ++ ps) = core ps := by
  unfold between
  split <;> rfl

theorem content_tidyPiecesFrom {before : Piece} (gap : Bool) (ps : List Piece)
    (h : before.isNoise = false) :
    content (tidyPiecesFrom before gap ps) = dropSemicolons (before :: core ps) := by
  induction ps generalizing before gap with
  | nil => rw [tidyPiecesFrom, content, core_cons [] h]
  | cons next rest ih =>
    by_cases hnoise : next.isNoise = true
    · rw [tidyPiecesFrom_of_noise rest before gap hnoise, core_cons_of_noise rest hnoise, ih true h]
    · have hkept := Bool.eq_false_iff.2 hnoise
      have htail := ih false hkept
      rw [tidyPiecesFrom_cons rest before gap hkept, core_cons rest hkept, List.append_assoc]
      by_cases hlast : isLastSemicolon before next = true
      · obtain ⟨rfl, rfl⟩ := Piece.isLastSemicolon_iff.1 hlast
        rw [if_pos hlast, List.nil_append, content, core_between_append,
          dropSemicolons_semicolon_brace]
        exact htail
      · rw [if_neg hlast, List.singleton_append, content, core_cons _ h, core_between_append]
        exact dropSemicolons_congr before htail

theorem content_tidyPieces (ps : List Piece) : content (tidyPieces ps) = content ps := by
  induction ps with
  | nil => rfl
  | cons piece rest ih =>
    rw [tidyPieces]
    split
    · rename_i hnoise
      rw [ih, content, content, core_cons_of_noise rest hnoise]
    · rename_i hnoise
      have hkept := Bool.eq_false_iff.2 hnoise
      rw [content_tidyPiecesFrom false rest hkept, content, core_cons rest hkept]

/-- No string is lost on the way to the content. -/
theorem strings_content (ps : List Piece) :
    (content ps).filter Piece.isString = ps.filter Piece.isString := by
  have hdrop (ps : List Piece) :
      (dropSemicolons ps).filter Piece.isString = ps.filter Piece.isString := by
    induction ps with
    | nil => rfl
    | cons piece rest ih =>
      rw [dropSemicolons]
      split
      · rename_i hs
        rw [ih, hs.1]
        rfl
      · rw [List.filter_cons, List.filter_cons, ih]
  have hcore : (core ps).filter Piece.isString = ps.filter Piece.isString := by
    rw [core, List.filter_filter]
    congr 1
    funext piece
    cases piece <;> rfl
  rw [content, hdrop, hcore]

/-! ## Ends -/

theorem stands_of_getLast {ps : List Piece} (h : AreRead ps) {piece : Piece}
    (hp : piece ∈ ps.getLast?) :
    piece.Stands [] := by
  induction ps with
  | nil => cases hp
  | cons first rest ih =>
    cases rest with
    | nil =>
      obtain rfl := Option.some.inj hp
      exact h.1
    | cons second rest => exact ih h.2 hp

namespace Piece.Stands

variable {piece : Piece} {rest : List Char}

theorem notBlank_first (h : piece.Stands rest) (hnoise : piece.isNoise = false) :
    Text.isBlank piece.first = false := by
  cases piece with
  | blank | comment => cases hnoise
  | mark c => exact h.1
  | string quote text => exact notBlank_of_isQuote h.1

theorem notBlank_last (h : piece.Stands rest) (hnoise : piece.isNoise = false) (ho : ¬ piece.IsOpen)
    {c : Char} (hc : c ∈ piece.source.getLast?) : Text.isBlank c = false := by
  cases piece with
  | blank | comment => cases hnoise
  | mark d =>
    obtain rfl := Option.some.inj hc
    exact h.1
  | string quote text =>
    obtain ⟨body, -, rfl⟩ := Classical.not_not.1 ho
    have hlast : (Piece.string quote (body ++ [quote])).source.getLast? = some quote :=
      List.getLast?_concat (l := quote :: body)
    rw [hlast] at hc
    obtain rfl := Option.some.inj hc
    exact notBlank_of_isQuote h.1

end Piece.Stands

theorem getLast?_sourceOfPieces (ps : List Piece) :
    (sourceOfPieces ps).getLast? = ps.getLast?.bind (·.source.getLast?) := by
  induction ps with
  | nil => rfl
  | cons piece rest ih =>
    cases rest with
    | nil => simp
    | cons second rest =>
      have hne : sourceOfPieces (second :: rest) ≠ [] := mt sourceOfPieces_eq_nil_iff.1 nofun
      obtain ⟨c, hc⟩ := Option.isSome_iff_exists.1 (List.getLast?_isSome.2 hne)
      rw [sourceOfPieces_cons, List.getLast?_append, hc, Option.some_or, ← hc, ih]
      rfl

/-! ## Results -/

/-- A text keeps what it says, and nothing else but single blanks between its pieces. -/
structure KeepsContent (before after : List Char) : Prop where
  strings : (pieces after).filter Piece.isString = (pieces before).filter Piece.isString
  content : content (pieces after) = content (pieces before)
  comments : ∀ piece ∈ pieces after, piece.isComment = false
  blanks : ∀ first second, [first, second] <:+: pieces after →
    first.isBlank = false ∨ second.isBlank = false
  start : ∀ c ∈ after.head?, Text.isBlank c = false
  finish : (∀ piece ∈ pieces after, ¬ piece.IsOpen) → ∀ c ∈ after.getLast?, Text.isBlank c = false

theorem isBlank_of_notNoise {piece : Piece} (h : piece.isNoise = false) :
    piece.isBlank = false := by
  cases piece with
  | mark | string => rfl
  | blank | comment => cases h

/-- Minifying a text deletes nothing but noise. -/
theorem style_keepsContent (s : String) : KeepsContent s.toList (style s).toList := by
  have htidy := isTidy_tidyPieces (pieces s.toList)
  have hread := areRead_tidyPieces (areRead_pieces s.toList)
  have hcontent : content (pieces (style s).toList) = content (pieces s.toList) := by
    rw [pieces_style, content_tidyPieces]
  constructor
  · rw [← strings_content, hcontent, strings_content]
  · exact hcontent
  · rw [pieces_style]
    intro piece hp
    cases piece with
    | mark | blank | string => rfl
    | comment text => exact absurd (htidy.eq_space hp rfl) nofun
  · rw [pieces_style]
    exact fun first second hp =>
      (htidy.not_noise_beside hp).imp isBlank_of_notNoise isBlank_of_notNoise
  · rw [toList_style, head?_sourceOfPieces]
    intro c hc
    cases hps : tidyPieces (pieces s.toList) with
    | nil =>
      rw [hps] at hc
      cases hc
    | cons piece rest =>
      rw [hps] at hc htidy hread
      obtain rfl := Option.some.inj hc
      exact hread.1.notBlank_first htidy.noise_head
  · rw [pieces_style, toList_style, getLast?_sourceOfPieces]
    intro hclosed c hc
    obtain ⟨piece, hp, hc⟩ := Option.mem_bind_iff.1 hc
    exact (stands_of_getLast hread hp).notBlank_last (htidy.noise_getLast hp)
      (hclosed piece (List.mem_of_getLast? hp)) hc

end StaticSite.Minify
