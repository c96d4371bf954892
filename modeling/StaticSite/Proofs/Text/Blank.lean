import StaticSite.Text.Blank
import StaticSite.Text.Letters

/-!
# Blanks among the characters

What can be checked of each of the twenty-five blank characters holds of all of them.
-/

namespace StaticSite.Text

/-- The code points of the blank characters. -/
def blankCodes : List Nat :=
  [9, 10, 11, 12, 13, 0x20, 0x85, 0xa0, 0x1680, 0x2000, 0x2001, 0x2002, 0x2003, 0x2004, 0x2005,
    0x2006, 0x2007, 0x2008, 0x2009, 0x200a, 0x2028, 0x2029, 0x202f, 0x205f, 0x3000]

theorem of_isBlank {P : Char → Prop} {c : Char} (hP : ∀ n ∈ blankCodes, P (Char.ofNat n))
    (h : isBlank c = true) : P c := by
  have hmem : c.toNat ∈ blankCodes := by
    simp only [isBlank, Bool.or_eq_true, Bool.and_eq_true, decide_eq_true_eq, beq_iff_eq] at h
    simp only [blankCodes, List.mem_cons, List.not_mem_nil, or_false]
    omega
  simpa using hP _ hmem

theorem not_isLetter_of_isBlank {c : Char} (h : isBlank c = true) : isLetter c = false :=
  of_isBlank (P := (isLetter · = false)) (by decide +kernel) h

theorem not_isNumeral_of_isBlank {c : Char} (h : isBlank c = true) : isNumeral c = false :=
  of_isBlank (P := (isNumeral · = false)) (by decide +kernel) h

end StaticSite.Text
