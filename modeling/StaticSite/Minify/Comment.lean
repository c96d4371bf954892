/-!
# Block comments

The text of a block comment up to its end, and what stands behind it. A comment that is not closed
reaches to the end of the text.
-/

namespace StaticSite.Minify

/-- Splits behind the first `*/`. -/
def splitComment : List Char → List Char × List Char
  | [] => ([], [])
  | '*' :: '/' :: r => (['*', '/'], r)
  | c :: r => (c :: (splitComment r).1, (splitComment r).2)

theorem splitComment_append (s : List Char) : (splitComment s).1 ++ (splitComment s).2 = s := by
  fun_induction splitComment s <;> simp_all

theorem splitComment_length (s : List Char) : (splitComment s).2.length ≤ s.length := by
  have h := congrArg List.length (splitComment_append s)
  simp only [List.length_append] at h
  omega

end StaticSite.Minify
