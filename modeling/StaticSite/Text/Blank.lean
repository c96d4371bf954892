/-!
# Blank characters and trimming

The blank characters are the twenty-five code points with the Unicode property White_Space. Trimming
drops them from one end or from both.
-/

namespace StaticSite.Text

/-- The Unicode property White_Space. -/
def isBlank (c : Char) : Bool :=
  let n := c.toNat
  (9 ≤ n && n ≤ 13) || n == 0x20 || n == 0x85 || n == 0xa0 || n == 0x1680 ||
    (0x2000 ≤ n && n ≤ 0x200a) || n == 0x2028 || n == 0x2029 || n == 0x202f || n == 0x205f ||
    n == 0x3000

/-- A text without the blanks in front. -/
def trimStart (s : List Char) : List Char :=
  s.dropWhile isBlank

/-- A text without the blanks at its end. -/
def trimEnd (s : List Char) : List Char :=
  (s.reverse.dropWhile isBlank).reverse

/-- A text without the blanks at its ends. -/
def trim (s : List Char) : List Char :=
  trimEnd (trimStart s)

@[simp]
theorem trimStart_nil : trimStart [] = [] := rfl

@[simp]
theorem trimEnd_nil : trimEnd [] = [] := rfl

@[simp]
theorem trim_nil : trim [] = [] := rfl

end StaticSite.Text
