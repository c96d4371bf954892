import StaticSite.Text.Escape

/-!
# Entities

Entities are replaced by their characters from the left, each once (`decodeEntities`). Replacing the
characters of an attribute's value one kind after the other escapes each character for itself
(`escapeAttribute_eq`), so nothing is escaped twice, and decoding gives the value back.
-/

namespace StaticSite.Text

/-- A text in which the entities of the five characters are replaced by them. -/
def decodeEntities : List Char → List Char
  | '&' :: 'a' :: 'm' :: 'p' :: ';' :: r => '&' :: decodeEntities r
  | '&' :: 'q' :: 'u' :: 'o' :: 't' :: ';' :: r => '"' :: decodeEntities r
  | '&' :: 'a' :: 'p' :: 'o' :: 's' :: ';' :: r => '\'' :: decodeEntities r
  | '&' :: 'l' :: 't' :: ';' :: r => '<' :: decodeEntities r
  | '&' :: 'g' :: 't' :: ';' :: r => '>' :: decodeEntities r
  | c :: r => c :: decodeEntities r
  | [] => []

/-- Decoding ends an entity at its semicolon. -/
theorem decodeEntities_escapeHtmlChar (c : Char) (r : List Char) :
    decodeEntities (escapeHtmlChar c ++ r) = c :: decodeEntities r := by
  unfold escapeHtmlChar
  split <;> try rfl
  rename_i hamp _ _ _ _
  rw [List.singleton_append, decodeEntities.eq_def]
  split <;> simp_all

/-- In a value between double quotes an apostrophe is a character like others. -/
def escapeAttributeChar (c : Char) : List Char :=
  if c = '\'' then [c] else escapeHtmlChar c

theorem decodeEntities_escapeAttributeChar (c : Char) (r : List Char) :
    decodeEntities (escapeAttributeChar c ++ r) = c :: decodeEntities r := by
  unfold escapeAttributeChar
  split
  · rename_i h
    rw [h]
    rfl
  · exact decodeEntities_escapeHtmlChar c r

theorem escapeAttributeChar_of_plain {c : Char} (hamp : c ≠ '&') (hless : c ≠ '<')
    (hgreater : c ≠ '>') (hquote : c ≠ '"') : escapeAttributeChar c = [c] := by
  unfold escapeAttributeChar escapeHtmlChar
  split
  · rfl
  · split <;> first | contradiction | rfl

theorem escapeAttribute_eq (s : String) :
    escapeAttribute s = String.ofList (s.toList.flatMap escapeAttributeChar) := by
  simp only [escapeAttribute, replaceChar, List.flatMap_assoc]
  congr 2
  funext c
  by_cases hamp : c = '&'
  · subst hamp
    rfl
  by_cases hless : c = '<'
  · subst hless
    rfl
  by_cases hgreater : c = '>'
  · subst hgreater
    rfl
  by_cases hquote : c = '"'
  · subst hquote
    rfl
  simp [escapeAttributeChar_of_plain, hamp, hless, hgreater, hquote]

theorem decodeEntities_escapeAttribute (s : String) :
    decodeEntities (escapeAttribute s).toList = s.toList := by
  rw [escapeAttribute_eq, String.toList_ofList]
  induction s.toList with
  | nil => rfl
  | cons c r ih => rw [List.flatMap_cons, decodeEntities_escapeAttributeChar, ih]

/-- An escaped value does not end at a quote of its own. -/
theorem quote_notMem_escapeAttribute (s : String) : '"' ∉ (escapeAttribute s).toList := by
  rw [escapeAttribute_eq, String.toList_ofList, List.mem_flatMap]
  rintro ⟨c, -, hc⟩
  unfold escapeAttributeChar escapeHtmlChar at hc
  split at hc
  · simp_all
  · split at hc
    all_goals simp at hc
    exact absurd hc.symm ‹¬c = '"'›

end StaticSite.Text
