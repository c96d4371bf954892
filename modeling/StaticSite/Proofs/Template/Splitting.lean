import StaticSite.Proofs.Template.Positions

/-!
# Splitting and joining texts

The pieces of a text between the occurrences of a separator give the text back when the separator is
put between them again, whether occurrences overlap or not (`Text.intercalate_splitAt`), and the
separator occurs in none of them. A separator of one character cannot overlap with anything, so
splitting also undoes joining (`Text.splitAt_intercalate`). The methods `split` and `join` of texts
and arrays inherit both (`split_and_join`).
-/

namespace StaticSite

/-! ## Pieces between separators -/

namespace Text

theorem piecesBetween_ne_nil (p : List Char) (fuel : Nat) (s : List Char) :
    piecesBetween p fuel s ≠ [] := by
  fun_cases piecesBetween p fuel s <;> simp

theorem intercalate_piecesBetween (p : List Char) (fuel : Nat) (s : List Char) :
    p.intercalate (piecesBetween p fuel s) = s := by
  fun_induction piecesBetween p fuel s with
  | case1 s => exact List.intercalate_singleton
  | case2 fuel s hnone => exact List.intercalate_singleton
  | case3 fuel s before rest hsplit ih =>
    rw [List.intercalate_cons_of_ne_nil (piecesBetween_ne_nil p _ rest), ih,
      eq_of_splitFirst hsplit]

/-- Nothing between the characters of a text. -/
theorem intercalate_characters (s : List Char) : [].intercalate (s.map ([·])) = s := by
  induction s with
  | nil => rfl
  | cons c rest ih =>
    cases rest with
    | nil => rfl
    | cons d more => exact List.intercalate_cons_cons.trans (congrArg (c :: ·) ih)

theorem intercalate_splitAt (p s : List Char) : p.intercalate (splitAt p s) = s := by
  unfold splitAt
  split
  · rename_i hp
    subst hp
    exact intercalate_characters s
  · exact intercalate_piecesBetween p s.length s

/-- What stands before the first occurrence holds no other one. -/
theorem not_infix_of_splitFirst {p s before rest : List Char} (hp : p ≠ [])
    (h : splitFirst p s = some (before, rest)) : ¬ p <:+: before := by
  rintro ⟨left, right, rfl⟩
  have hpos := List.length_pos_of_ne_nil hp
  refine not_prefix_of_splitFirst h left.length ?_ ?_
  · simp only [List.length_append]
    omega
  · rw [eq_of_splitFirst h]
    simp only [List.append_assoc, List.drop_left]
    exact List.prefix_append _ _

theorem length_rest_of_splitFirst {p s before rest : List Char} (hp : p ≠ [])
    (h : splitFirst p s = some (before, rest)) : rest.length < s.length := by
  have hpos := List.length_pos_of_ne_nil hp
  rw [eq_of_splitFirst h]
  simp only [List.length_append]
  omega

theorem not_infix_of_mem_piecesBetween {p : List Char} (hp : p ≠ []) {fuel : Nat} {s : List Char}
    (hfuel : s.length ≤ fuel) : ∀ piece ∈ piecesBetween p fuel s, ¬ p <:+: piece := by
  fun_induction piecesBetween p fuel s with
  | case1 s =>
    obtain rfl := List.length_eq_zero_iff.1 (Nat.le_zero.1 hfuel)
    simpa using hp
  | case2 fuel s hnone => exact List.forall_mem_singleton.2 (splitFirst_eq_none_iff.1 hnone)
  | case3 fuel s before rest hsplit ih =>
    have hlength := length_rest_of_splitFirst hp hsplit
    exact List.forall_mem_cons.2 ⟨not_infix_of_splitFirst hp hsplit, ih (by omega)⟩

/-- Splitting at one character is the library's splitting of lists. -/
theorem piecesBetween_singleton (c : Char) {fuel : Nat} {s : List Char} (hfuel : s.length ≤ fuel) :
    piecesBetween [c] fuel s = s.splitOn c := by
  have hc : [c] ≠ [] := List.cons_ne_nil c []
  fun_induction piecesBetween [c] fuel s with
  | case1 s =>
    obtain rfl := List.length_eq_zero_iff.1 (Nat.le_zero.1 hfuel)
    rfl
  | case2 fuel s hnone =>
    rw [List.splitOn_eq_singleton]
    rw [← List.singleton_infix_iff]
    exact splitFirst_eq_none_iff.1 hnone
  | case3 fuel s before rest hsplit ih =>
    have hlength := length_rest_of_splitFirst hc hsplit
    have hnotin : c ∉ before := by
      rw [← List.singleton_infix_iff]
      exact not_infix_of_splitFirst hc hsplit
    rw [ih (by omega), eq_of_splitFirst hsplit, List.append_assoc, List.singleton_append,
      List.splitOn_append_cons_self_of_not_mem hnotin]

theorem splitAt_intercalate (c : Char) {pieces : List (List Char)} (hpieces : pieces ≠ [])
    (h : ∀ piece ∈ pieces, c ∉ piece) : splitAt [c] ([c].intercalate pieces) = pieces := by
  rw [splitAt, if_neg (List.cons_ne_nil c []), piecesBetween_singleton c (Nat.le_refl _)]
  exact List.splitOn_intercalate c h hpieces

end Text

namespace Template

/-! ## Methods -/

/-- Splitting a text yields a new array of texts, and does nothing else. -/
def Splits (s sep : String) (pieces : List String) : Prop :=
  ∀ st : State, (callMethod (.string s) "split" [.value (.string sep)]).run.run st =
    (.ok (.array st.next (pieces.map .string)), { st with next := st.next + 1 })

/-- Joining an array of texts yields a text, and does nothing else. -/
def Joins (pieces : List String) (sep s : String) : Prop :=
  ∀ (ref : Nat) (st : State),
    (callMethod (.array ref (pieces.map .string)) "join" [.value (.string sep)]).run.run st =
      (.ok (.string s), st)

theorem splits_splitAt (s sep : String) :
    Splits s sep ((Text.splitAt sep.toList s.toList).map String.ofList) := by
  intro st
  rw [List.map_map]
  rfl

theorem joins_intercalate (pieces : List String) (sep : String) :
    Joins pieces sep (sep.intercalate pieces) := by
  intro ref st
  have houtputs : (pieces.map Value.string).map Value.toOutput = pieces := by
    rw [List.map_map]
    exact List.map_id pieces
  show (Except.ok (Value.string (sep.intercalate ((pieces.map Value.string).map Value.toOutput))),
    st) = _
  rw [houtputs]

/-- The pieces that a text is split into give the text back when they are joined, whatever the
separator is, and none of them contains a separator that is not empty. Texts that do not contain a
separator of one character come back from the text that they are joined to, if there are any. -/
theorem split_and_join :
    (∀ s sep : String, ∃ pieces, Splits s sep pieces ∧ Joins pieces sep s ∧
      (sep ≠ "" → ∀ piece ∈ pieces, ¬ sep.toList <:+: piece.toList)) ∧
    ∀ (sep : String) (pieces : List String), sep.length = 1 → pieces ≠ [] →
      (∀ piece ∈ pieces, ¬ sep.toList <:+: piece.toList) →
      ∃ s, Joins pieces sep s ∧ Splits s sep pieces := by
  refine ⟨fun s sep => ⟨_, splits_splitAt s sep, ?_, ?_⟩, fun sep pieces hsep hpieces hfree => ?_⟩
  · have hjoined : sep.intercalate ((Text.splitAt sep.toList s.toList).map String.ofList) = s := by
      rw [← String.toList_inj, String.toList_intercalate, List.map_map]
      simpa using Text.intercalate_splitAt sep.toList s.toList
    have hjoins := joins_intercalate ((Text.splitAt sep.toList s.toList).map String.ofList) sep
    rwa [hjoined] at hjoins
  · intro hsep
    have hsep : sep.toList ≠ [] := by simpa using hsep
    rw [Text.splitAt, if_neg hsep]
    intro piece hpiece
    obtain ⟨chars, hchars, rfl⟩ := List.mem_map.1 hpiece
    rw [String.toList_ofList]
    exact Text.not_infix_of_mem_piecesBetween hsep (Nat.le_refl _) chars hchars
  · obtain ⟨c, hc⟩ := List.length_eq_one_iff.1 ((String.length_toList).trans hsep)
    have hsplit : Text.splitAt sep.toList (sep.intercalate pieces).toList =
        pieces.map String.toList := by
      rw [String.toList_intercalate, hc]
      refine Text.splitAt_intercalate c (by simpa using hpieces) fun chars hchars => ?_
      obtain ⟨piece, hpiece, rfl⟩ := List.mem_map.1 hchars
      have hnot := hfree piece hpiece
      rwa [hc, List.singleton_infix_iff] at hnot
    have hsplits := splits_splitAt (sep.intercalate pieces) sep
    rw [hsplit, List.map_map] at hsplits
    exact ⟨_, joins_intercalate pieces sep, by simpa [Function.comp_def] using hsplits⟩

/-- Occurrences that overlap, and empty pieces in the middle and at both ends. -/
theorem split_and_join_of_edges :
    (∃ pieces, Splits "aaa" "aa" pieces ∧ Joins pieces "aa" "aaa" ∧
      ∀ piece ∈ pieces, ¬ "aa".toList <:+: piece.toList) ∧
    ∃ s, Joins ["", "é", "", ""] "," s ∧ Splits s "," ["", "é", "", ""] := by
  obtain ⟨apart, together⟩ := split_and_join
  obtain ⟨pieces, hsplits, hjoins, hfree⟩ := apart "aaa" "aa"
  refine ⟨⟨pieces, hsplits, hjoins, hfree (by decide)⟩,
    together "," ["", "é", "", ""] (by decide) (by decide) ?_⟩
  simp only [List.forall_mem_cons, List.not_mem_nil, false_implies, implies_true, and_true]
  decide

end Template

end StaticSite
