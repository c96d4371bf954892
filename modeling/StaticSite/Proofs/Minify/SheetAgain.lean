import StaticSite.Proofs.Minify.Tidy

/-!
# Stylesheets that are minified again

Minifying a second time drops one more semicolon of each run before a closing brace, and nothing
else (`tidyPieces_again`). So it changes nothing unless two of them stand there (`style_again_iff`).
-/

namespace StaticSite.Minify

open Piece (semicolon closingBrace space isLastSemicolon between)

/-! ## Semicolons before braces -/

/-- Drops one semicolon before each closing brace. -/
def dropLastSemicolons : List Piece → List Piece
  | before :: next :: rest =>
    (if isLastSemicolon before next then [] else [before]) ++ dropLastSemicolons (next :: rest)
  | ps => ps

/-- The tidy form of a tidy sequence lacks one more semicolon before each closing brace. -/
theorem IsTidy.tidyPiecesFrom_eq {before : Piece} {ps : List Piece} (h : IsTidy (before :: ps)) :
    tidyPiecesFrom before false ps = dropLastSemicolons (before :: ps) := by
  generalize hall : before :: ps = all at h
  induction h generalizing before ps with
  | nil => cases hall
  | last hkept =>
    cases hall
    rfl
  | beside hkept hrest ih =>
    cases hall
    rw [tidyPiecesFrom_cons _ _ _ hrest.noise_head, ih rfl, dropLastSemicolons]
    simp [between]
  | @apart piece next rest hkept htight hrest ih =>
    cases hall
    have hbetween : between piece true next = [space] := by simp [between, htight]
    have hnext : isLastSemicolon piece next = false := by
      refine Bool.eq_false_iff.2 fun hlast => ?_
      obtain ⟨rfl, rfl⟩ := Piece.isLastSemicolon_iff.1 hlast
      cases htight
    have hspace : isLastSemicolon piece space = false := by
      simp [isLastSemicolon, space, closingBrace]
    rw [tidyPiecesFrom_of_noise _ _ _ rfl, tidyPiecesFrom_cons _ _ _ hrest.noise_head, ih rfl,
      hbetween, dropLastSemicolons, hspace, hnext, dropLastSemicolons]
    rfl

theorem tidyPieces_again (ps : List Piece) :
    tidyPieces (tidyPieces ps) = dropLastSemicolons (tidyPieces ps) := by
  have htidy := isTidy_tidyPieces ps
  cases hps : tidyPieces ps with
  | nil => rfl
  | cons piece rest =>
    rw [hps] at htidy
    rw [tidyPieces, if_neg (Bool.eq_false_iff.1 htidy.noise_head), htidy.tidyPiecesFrom_eq]

theorem pair_prefix_iff {α : Type} {a b c : α} {ps : List α} :
    [a, b] <+: c :: ps ↔ a = c ∧ ps.head? = some b := by
  cases ps with
  | nil => simp [List.cons_prefix_cons]
  | cons d ps => simp [List.cons_prefix_cons, eq_comm]

theorem length_dropLastSemicolons (ps : List Piece) :
    (dropLastSemicolons ps).length ≤ ps.length := by
  fun_induction dropLastSemicolons ps with
  | case1 before next rest ih =>
    rw [List.length_append, List.length_cons]
    split
    · exact Nat.le_succ_of_le (by simpa using ih)
    · simpa [Nat.add_comm] using ih
  | case2 => exact Nat.le_refl _

theorem dropLastSemicolons_eq_self_iff (ps : List Piece) :
    dropLastSemicolons ps = ps ↔ ¬ [semicolon, closingBrace] <:+: ps := by
  fun_induction dropLastSemicolons ps with
  | case1 before next rest ih =>
    rw [List.infix_cons_iff, pair_prefix_iff, List.head?_cons, Option.some.injEq, not_or, ← ih]
    by_cases hlast : isLastSemicolon before next = true
    · obtain ⟨rfl, rfl⟩ := Piece.isLastSemicolon_iff.1 hlast
      have hlength := length_dropLastSemicolons (closingBrace :: rest)
      rw [if_pos hlast, List.nil_append]
      constructor
      · intro he
        rw [he] at hlength
        exact absurd hlength (Nat.not_succ_le_self _)
      · exact fun he => absurd ⟨rfl, rfl⟩ he.1
    · have hnot : ¬ (semicolon = before ∧ next = closingBrace) := by
        rintro ⟨rfl, rfl⟩
        exact hlast (Piece.isLastSemicolon_iff.2 ⟨rfl, rfl⟩)
      rw [if_neg hlast, List.singleton_append, List.cons.injEq]
      simp [hnot]
  | case2 ps hps =>
    cases ps with
    | nil => simp
    | cons piece rest =>
      cases rest with
      | nil => simp [List.infix_cons_iff]
      | cons second rest => exact absurd rfl (hps piece second rest)

/-- A semicolon stands before a brace in the tidy form where two stood before. -/
theorem infix_tidyPiecesFrom_iff {before : Piece} (gap : Bool) (ps : List Piece)
    (h : before.isNoise = false) :
    [semicolon, closingBrace] <:+: tidyPiecesFrom before gap ps ↔
      [semicolon, semicolon, closingBrace] <:+: before :: core ps := by
  induction ps generalizing before gap with
  | nil =>
    rw [tidyPiecesFrom]
    simp [core, List.infix_cons_iff, List.cons_prefix_cons]
  | cons next rest ih =>
    by_cases hnoise : next.isNoise = true
    · rw [tidyPiecesFrom_of_noise rest before gap hnoise, core_cons_of_noise rest hnoise, ih true h]
    · have hkept := Bool.eq_false_iff.2 hnoise
      rw [core_cons rest hkept, List.infix_cons_iff, List.cons_prefix_cons, pair_prefix_iff,
        ← ih false hkept, tidyPiecesFrom_cons rest before gap hkept]
      have hhead := head?_tidyPiecesFrom next false rest
      generalize tidyPiecesFrom next false rest = tail at hhead ⊢
      by_cases hlast : isLastSemicolon before next = true
      · obtain ⟨rfl, rfl⟩ := Piece.isLastSemicolon_iff.1 hlast
        rw [if_pos hlast, Piece.between_closingBrace]
        simp [semicolon, closingBrace]
      · rw [if_neg hlast, List.append_assoc, List.singleton_append, List.infix_cons_iff]
        by_cases hs : before = semicolon
        · subst hs
          have hnext : next ≠ closingBrace := fun hn =>
            hlast (Piece.isLastSemicolon_iff.2 ⟨rfl, hn⟩)
          rw [Piece.between_semicolon, List.nil_append, pair_prefix_iff, hhead]
          simp [hnext, eq_comm]
        · have hprefix : ¬ [semicolon, closingBrace] <+: before ::
              (between before gap next ++ tail) :=
            fun hp => hs (List.cons_prefix_cons.1 hp).1.symm
          rw [or_iff_right hprefix, or_iff_right fun he => hs he.1.symm]
          rcases Piece.between_cases before gap next with ⟨hbetween, -⟩ | ⟨hbetween, -⟩
          · rw [hbetween, List.nil_append]
          · rw [hbetween, List.singleton_append, List.infix_cons_iff, or_iff_right]
            simp [List.cons_prefix_cons, semicolon, space]

theorem infix_tidyPieces_iff (ps : List Piece) :
    [semicolon, closingBrace] <:+: tidyPieces ps ↔
      [semicolon, semicolon, closingBrace] <:+: core ps := by
  induction ps with
  | nil => simp [tidyPieces, core]
  | cons piece rest ih =>
    rw [tidyPieces]
    split
    · rename_i hnoise
      rw [ih, core_cons_of_noise rest hnoise]
    · rename_i hnoise
      have hkept := Bool.eq_false_iff.2 hnoise
      rw [infix_tidyPiecesFrom_iff false rest hkept, core_cons rest hkept]

theorem sourceOfPieces_inj {ps qs : List Piece} (hp : AreRead ps) (hq : AreRead qs) :
    sourceOfPieces ps = sourceOfPieces qs ↔ ps = qs := by
  refine ⟨fun h => ?_, congrArg sourceOfPieces⟩
  rw [← pieces_sourceOf hp, h, pieces_sourceOf hq]

/-- Minifying again changes nothing exactly where no two semicolons stand before a closing brace,
with only blanks and comments between them. -/
theorem style_again_iff (s : String) :
    style (style s) = style s ↔
      ¬ [semicolon, semicolon, closingBrace] <:+: core (pieces s.toList) := by
  have hread := areRead_tidyPieces (areRead_pieces s.toList)
  rw [← String.toList_inj, toList_style (style s), pieces_style, toList_style s,
    sourceOfPieces_inj (areRead_tidyPieces hread) hread, tidyPieces_again,
    dropLastSemicolons_eq_self_iff, infix_tidyPieces_iff]

theorem style_again_differs :
    style "a\x7bx:1;;\x7d" = "a\x7bx:1;\x7d" ∧ style (style "a\x7bx:1;;\x7d") = "a\x7bx:1\x7d" :=
  ⟨by decide +kernel, by decide +kernel⟩

end StaticSite.Minify
