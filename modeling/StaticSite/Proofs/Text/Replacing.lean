import StaticSite.Proofs.Template.Splitting
import StaticSite.Proofs.Text.Entities

/-!
# Replacing in escaped texts

Replacing all occurrences of a text goes on from the left (`replaceAll_append`, `replaceAll_cons`).
So replacing one character is a map over the characters (`replaceAll_singleton`), and in an escaped
text, in which an ampersand begins an entity, an entity is found in full or not at all
(`replaceAll_escapeHtmlChar`). The two ways of escaping differ in the apostrophe only, and nothing
is lost in either (`escapes_once`).
-/

namespace StaticSite.Text

/-! ## Replacing from the left -/

section

variable {p : List Char}

theorem splitFirst_append (hp : p ≠ []) (rest : List Char) :
    splitFirst p (p ++ rest) = some ([], rest) := by
  obtain ⟨c, q, rfl⟩ := List.exists_cons_of_ne_nil hp
  have hafter : after? (c :: q) (c :: (q ++ rest)) = some rest := after?_eq_some_iff.2 rfl
  rw [List.cons_append, splitFirst, hafter]

theorem splitFirst_cons {c : Char} {s : List Char} (h : ¬ p <+: c :: s) :
    splitFirst p (c :: s) = (splitFirst p s).map fun (before, rest) => (c :: before, rest) := by
  rw [splitFirst, after?_eq_none_iff.2 h]

/-- The pieces do not depend on the bound for their number. -/
theorem piecesBetween_of_le (hp : p ≠ []) {fuel fuel' : Nat} {s : List Char} (h : s.length ≤ fuel)
    (h' : s.length ≤ fuel') : piecesBetween p fuel s = piecesBetween p fuel' s := by
  have nil (fuel : Nat) : piecesBetween p fuel [] = [[]] := by
    cases fuel <;> simp [piecesBetween, splitFirst, hp]
  induction fuel generalizing fuel' s with
  | zero =>
    obtain rfl := List.length_eq_zero_iff.1 (Nat.le_zero.1 h)
    rw [nil, nil]
  | succ fuel ih =>
    cases fuel' with
    | zero =>
      obtain rfl := List.length_eq_zero_iff.1 (Nat.le_zero.1 h')
      rw [nil, nil]
    | succ fuel' =>
      unfold piecesBetween
      cases hsplit : splitFirst p s with
      | none => rfl
      | some parts =>
        have hlength := length_rest_of_splitFirst hp hsplit
        exact congrArg (parts.1 :: ·) (ih (by omega) (by omega))

variable (hp : p ≠ []) (with_ : List Char)

include hp

theorem replaceAll_eq_of_splitFirst {s before rest : List Char}
    (h : splitFirst p s = some (before, rest)) :
    replaceAll p with_ s = before ++ with_ ++ replaceAll p with_ rest := by
  have hlength := length_rest_of_splitFirst hp h
  obtain ⟨fuel, hfuel⟩ : ∃ fuel, s.length = fuel + 1 := ⟨s.length - 1, by omega⟩
  have hpieces : piecesBetween p s.length s = before :: piecesBetween p rest.length rest := by
    rw [hfuel, piecesBetween, h]
    exact congrArg (before :: ·) (piecesBetween_of_le hp (by omega) (Nat.le_refl _))
  rw [replaceAll, if_neg hp, hpieces,
    List.intercalate_cons_of_ne_nil (piecesBetween_ne_nil p _ rest), replaceAll, if_neg hp]

theorem replaceAll_of_none {s : List Char} (h : splitFirst p s = none) :
    replaceAll p with_ s = s := by
  rw [replaceAll, if_neg hp]
  cases s.length with
  | zero => exact List.intercalate_singleton
  | succ fuel =>
    rw [piecesBetween, h]
    exact List.intercalate_singleton

theorem replaceAll_nil : replaceAll p with_ [] = [] :=
  replaceAll_of_none hp with_ (by rw [splitFirst, if_neg hp])

/-- An occurrence at the head is replaced. -/
theorem replaceAll_append (rest : List Char) :
    replaceAll p with_ (p ++ rest) = with_ ++ replaceAll p with_ rest :=
  replaceAll_eq_of_splitFirst hp with_ (splitFirst_append hp rest)

/-- A character at which no occurrence begins stays. -/
theorem replaceAll_cons {c : Char} {s : List Char} (h : ¬ p <+: c :: s) :
    replaceAll p with_ (c :: s) = c :: replaceAll p with_ s := by
  have hcons := splitFirst_cons h
  cases hs : splitFirst p s with
  | none =>
    rw [hs] at hcons
    rw [replaceAll_of_none hp with_ hcons, replaceAll_of_none hp with_ hs]
  | some parts =>
    rw [hs] at hcons
    rw [replaceAll_eq_of_splitFirst hp with_ hcons, replaceAll_eq_of_splitFirst hp with_ hs]
    rfl

/-- A text without the character that occurrences begin with stays. -/
theorem replaceAll_of_head_notMem {ahead : List Char} (h : ∀ c ∈ p.head?, c ∉ ahead)
    (rest : List Char) :
    replaceAll p with_ (ahead ++ rest) = ahead ++ replaceAll p with_ rest := by
  induction ahead with
  | nil => rfl
  | cons x ahead ih =>
    have hprefix : ¬ p <+: x :: (ahead ++ rest) := by
      obtain ⟨c, q, rfl⟩ := List.exists_cons_of_ne_nil hp
      rw [List.cons_prefix_cons]
      exact fun hx => h c rfl (hx.1 ▸ List.mem_cons_self)
    rw [List.cons_append, List.cons_append, replaceAll_cons hp with_ hprefix,
      ih fun c hc hm => h c hc (List.mem_cons_of_mem x hm)]

end

/-- Replacing one character goes through the characters. -/
theorem replaceAll_singleton (c : Char) (with_ s : List Char) :
    replaceAll [c] with_ s = replaceChar c with_ s := by
  have hc : [c] ≠ [] := List.cons_ne_nil c []
  induction s with
  | nil => exact replaceAll_nil hc with_
  | cons x s ih =>
    rw [replaceChar, List.flatMap_cons]
    by_cases hx : x = c
    · rw [if_pos hx, hx]
      exact (replaceAll_append hc with_ s).trans (congrArg _ ih)
    · have hprefix : ¬ [c] <+: x :: s := by simpa [List.cons_prefix_cons] using Ne.symm hx
      rw [if_neg hx, replaceAll_cons hc with_ hprefix, ih]
      rfl

/-! ## Escaped texts -/

/-- The entity of the apostrophe. -/
abbrev aposEntity : List Char :=
  ['&', 'a', 'p', 'o', 's', ';']

/-- What stands for a character is the entity of the apostrophe, or holds no part of it. -/
theorem replaceAll_escapeHtmlChar (c : Char) (rest : List Char) :
    replaceAll aposEntity ['\''] (escapeHtmlChar c ++ rest) =
      escapeAttributeChar c ++ replaceAll aposEntity ['\''] rest := by
  have hp : aposEntity ≠ [] := List.cons_ne_nil _ _
  -- Another entity differs behind its ampersand, and no ampersand follows.
  have other {name : List Char} (hname : '&' ∉ name) (h : ¬ aposEntity <+: '&' :: (name ++ rest)) :
      replaceAll aposEntity ['\''] ('&' :: name ++ rest) =
        '&' :: name ++ replaceAll aposEntity ['\''] rest := by
    rw [List.cons_append, replaceAll_cons hp _ h,
      replaceAll_of_head_notMem hp _ (by simpa using hname)]
    rfl
  by_cases hc : c = '\''
  · subst hc
    exact replaceAll_append hp ['\''] rest
  · rw [escapeAttributeChar, if_neg hc]
    unfold escapeHtmlChar
    split
    case h_3 => exact absurd rfl hc
    case h_6 hamp _ _ _ _ => exact replaceAll_of_head_notMem hp _ (by simpa using Ne.symm hamp) rest
    all_goals exact other (by simp) (by simp)

theorem escapeHtml_append (s t : String) : escapeHtml (s ++ t) = escapeHtml s ++ escapeHtml t := by
  simp [escapeHtml, String.ofList_append]

theorem escapeAttribute_append (s t : String) :
    escapeAttribute (s ++ t) = escapeAttribute s ++ escapeAttribute t := by
  simp [escapeAttribute_eq, String.ofList_append]

theorem decodeEntities_escapeHtml (s : String) :
    decodeEntities (escapeHtml s).toList = s.toList := by
  rw [escapeHtml, String.toList_ofList]
  induction s.toList with
  | nil => rfl
  | cons c r ih => rw [List.flatMap_cons, decodeEntities_escapeHtmlChar, ih]

/-- Escaping loses nothing and escapes nothing twice: decoding gives each escaped text back. The
four replacements of a whole value amount to one pass over its characters, which is the other way of
escaping with its apostrophes put back; and a text is escaped part by part in both ways. -/
theorem escapes_once (s t : String) :
    decodeEntities (escapeHtml s).toList = s.toList ∧
      decodeEntities (escapeAttribute s).toList = s.toList ∧
      (escapeAttribute s).toList =
        replaceAll ['"'] ['&', 'q', 'u', 'o', 't', ';'] (replaceAll ['>'] ['&', 'g', 't', ';']
          (replaceAll ['<'] ['&', 'l', 't', ';']
            (replaceAll ['&'] ['&', 'a', 'm', 'p', ';'] s.toList))) ∧
      (escapeAttribute s).toList = s.toList.flatMap escapeAttributeChar ∧
      (escapeAttribute s).toList = replaceAll aposEntity ['\''] (escapeHtml s).toList ∧
      escapeHtml (s ++ t) = escapeHtml s ++ escapeHtml t ∧
      escapeAttribute (s ++ t) = escapeAttribute s ++ escapeAttribute t := by
  have hattribute : (escapeAttribute s).toList = s.toList.flatMap escapeAttributeChar := by
    rw [escapeAttribute_eq, String.toList_ofList]
  have happly : replaceAll aposEntity ['\''] (escapeHtml s).toList =
      s.toList.flatMap escapeAttributeChar := by
    rw [escapeHtml, String.toList_ofList]
    induction s.toList with
    | nil => exact replaceAll_nil (List.cons_ne_nil _ _) _
    | cons c r ih => rw [List.flatMap_cons, replaceAll_escapeHtmlChar, ih, List.flatMap_cons]
  refine ⟨decodeEntities_escapeHtml s, decodeEntities_escapeAttribute s, ?_, hattribute,
    hattribute.trans happly.symm, escapeHtml_append s t, escapeAttribute_append s t⟩
  simp only [replaceAll_singleton, escapeAttribute, String.toList_ofList]

/-- Entities in a text are escaped like any other text. -/
example : escapeHtml "&lt; 'a' &" = "&amp;lt; &apos;a&apos; &amp;" := by
  decide

end StaticSite.Text
