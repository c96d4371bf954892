import StaticSite.Minify.Comment
import StaticSite.Text.Blank

/-!
# Minified stylesheets

Comments and blanks outside strings become one space, or nothing next to the characters that
separate by themselves and at the ends of the sheet. A semicolon before a closing brace is dropped.
Strings are copied.
-/

namespace StaticSite.Minify

/-- A string behind its opening quote, up to the closing one, and what stands behind it. -/
def splitQuoted (quote : Char) : List Char → List Char × List Char
  | [] => ([], [])
  | ['\\'] => (['\\'], [])
  | '\\' :: c :: r => ('\\' :: c :: (splitQuoted quote r).1, (splitQuoted quote r).2)
  | c :: r =>
    if c = quote then ([c], r) else (c :: (splitQuoted quote r).1, (splitQuoted quote r).2)

theorem splitQuoted_append (quote : Char) (s : List Char) :
    (splitQuoted quote s).1 ++ (splitQuoted quote s).2 = s := by
  fun_induction splitQuoted quote s <;> simp_all

theorem splitQuoted_length (quote : Char) (s : List Char) :
    (splitQuoted quote s).2.length ≤ s.length := by
  have h := congrArg List.length (splitQuoted_append quote s)
  simp only [List.length_append] at h
  omega

/-- The characters behind which a space says nothing. -/
def tightAfter (c : Char) : Bool :=
  c == '\x7b' || c == '\x7d' || c == ';' || c == ':' || c == ',' || c == '>'

/-- The characters before which a space says nothing. -/
def tightBefore (c : Char) : Bool :=
  c == '\x7b' || c == '\x7d' || c == ';' || c == ',' || c == '>'

/-- Writes the space of a gap before `c`, where `out` holds the output in reverse. -/
def spaceBefore (c : Char) (out : List Char) : List Char :=
  match out with
  | [] => []
  | last :: _ => if tightAfter last || tightBefore c then out else ' ' :: out

/-- What is written, without a semicolon at its end. -/
def dropSemicolon : List Char → List Char
  | ';' :: out => out
  | out => out

/-- The output before `c` is written. -/
def styleBefore (gap : Bool) (c : Char) (out : List Char) : List Char :=
  let out := if gap then spaceBefore c out else out
  if c = '\x7d' then dropSemicolon out else out

/-- Minifies the rest of a stylesheet; `out` holds the output in reverse and `gap` says whether
blanks or comments were passed since. -/
def styleFrom (out : List Char) (gap : Bool) : List Char → List Char
  | [] => out
  | '/' :: '*' :: r =>
    have := splitComment_length r
    styleFrom out true (splitComment r).2
  | c :: r =>
    if Text.isBlank c then styleFrom out true r
    else if c = '"' ∨ c = '\'' then
      have := splitQuoted_length c r
      styleFrom ((splitQuoted c r).1.reverse ++ c :: styleBefore gap c out) false
        (splitQuoted c r).2
    else styleFrom (c :: styleBefore gap c out) false r
termination_by s => s.length

/-- The minified form of a stylesheet. -/
def style (source : String) : String :=
  String.ofList (styleFrom [] false source.toList).reverse

end StaticSite.Minify
