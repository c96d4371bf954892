import StaticSite.Minify.Comment
import StaticSite.Text.Blank
import StaticSite.Text.Letters

/-!
# Minified scripts

Comments, indentation and blank lines go; where a line ended between two pieces of code it still
does. String, template and regular expression literals are copied. A slash opens a regular
expression unless what was written last is a value.
-/

namespace StaticSite.Minify

/-! ## Literals -/

/-- A string behind its opening quote, up to the closing one or the end of the line. -/
def splitString (quote : Char) : List Char → List Char × List Char
  | [] => ([], [])
  | ['\\'] => (['\\'], [])
  | '\\' :: c :: r => ('\\' :: c :: (splitString quote r).1, (splitString quote r).2)
  | c :: r =>
    if c = quote ∨ c = '\n' then ([c], r)
    else (c :: (splitString quote r).1, (splitString quote r).2)

theorem splitString_append (quote : Char) (s : List Char) :
    (splitString quote s).1 ++ (splitString quote s).2 = s := by
  fun_induction splitString quote s <;> simp_all

theorem splitString_length (quote : Char) (s : List Char) :
    (splitString quote s).2.length ≤ s.length := by
  have h := congrArg List.length (splitString_append quote s)
  simp only [List.length_append] at h
  omega

/-- The text of a template up to its closing backtick or the next substitution, whether a
substitution follows, and what stands behind. -/
def splitTemplate : List Char → List Char × Bool × List Char
  | [] => ([], false, [])
  | ['\\'] => (['\\'], false, [])
  | '\\' :: c :: r => ('\\' :: c :: (splitTemplate r).1, (splitTemplate r).2)
  | '$' :: '\x7b' :: r => (['$', '\x7b'], true, r)
  | c :: r =>
    if c = '\x60' then ([c], false, r) else (c :: (splitTemplate r).1, (splitTemplate r).2)

theorem splitTemplate_append (s : List Char) :
    (splitTemplate s).1 ++ (splitTemplate s).2.2 = s := by
  fun_induction splitTemplate s <;> simp_all

theorem splitTemplate_length (s : List Char) : (splitTemplate s).2.2.length ≤ s.length := by
  have h := congrArg List.length (splitTemplate_append s)
  simp only [List.length_append] at h
  omega

/-- A regular expression behind its opening slash, up to the closing one outside classes or the end
of the line. -/
def splitRegex (inClass : Bool) : List Char → List Char × List Char
  | [] => ([], [])
  | '\\' :: c :: r =>
    if c = '\n' then (['\\'], c :: r)
    else ('\\' :: c :: (splitRegex inClass r).1, (splitRegex inClass r).2)
  | c :: r =>
    if c = '\n' then ([], c :: r)
    else if c = '/' ∧ !inClass then ([c], r)
    else
      let next := if c = '[' then true else if c = ']' then false else inClass
      (c :: (splitRegex next r).1, (splitRegex next r).2)

theorem splitRegex_append (inClass : Bool) (s : List Char) :
    (splitRegex inClass s).1 ++ (splitRegex inClass s).2 = s := by
  fun_induction splitRegex inClass s <;> simp_all

theorem splitRegex_length (inClass : Bool) (s : List Char) :
    (splitRegex inClass s).2.length ≤ s.length := by
  have h := congrArg List.length (splitRegex_append inClass s)
  simp only [List.length_append] at h
  omega

/-! ## Gaps -/

/-- The blanks since the last piece of code. -/
inductive Gap where
  | none
  | blanks (run : List Char)
  | newline
deriving DecidableEq, Repr

/-- Adds a blank to a gap. -/
def Gap.add (gap : Gap) (c : Char) : Gap :=
  if c = '\n' then .newline
  else
    match gap with
    | .newline => .newline
    | .blanks run => .blanks (run ++ [c])
    | .none => .blanks [c]

/-- Writes a gap behind the output, which is held in reverse; at the start of a line it is
dropped. -/
def Gap.write (gap : Gap) (out : List Char) : List Char :=
  match out with
  | [] => out
  | last :: _ =>
    if last = '\n' then out
    else
      match gap with
      | .none => out
      | .blanks run => run.reverse ++ out
      | .newline => '\n' :: out

/-! ## Regular expressions -/

/-- Whether a character may stand in a word. -/
def isWordChar (c : Char) : Bool :=
  Text.isLetter c || Text.isNumeral c || c == '_' || c == '$'

/-- The words behind which an operand follows. -/
def operandWords : List (List Char) :=
  ["return", "typeof", "instanceof", "in", "of", "new", "delete", "void", "throw", "case", "do",
    "else", "yield", "await"].map String.toList

/-- The marks behind which an operand follows. -/
def operandMarks : List Char :=
  "(,=:[!&|?\x7b\x7d;+-*%<>~^".toList

/-- Whether a slash behind the output, which is held in reverse, opens a regular expression. -/
def opensRegex (out : List Char) : Bool :=
  let before := out.dropWhile Text.isBlank
  match before with
  | [] => true
  | last :: _ =>
    let word := before.takeWhile isWordChar
    if word = [] then operandMarks.contains last else operandWords.contains word.reverse

/-! ## Scripts -/

/-- The output in reverse, the gap behind it, the depth of open braces, and the depths at which open
substitutions go back to their templates. -/
structure Progress where
  out : List Char
  gap : Gap
  depth : Nat
  templates : List Nat

namespace Progress

/-- Nothing is written yet. -/
def start : Progress :=
  ⟨[], .none, 0, []⟩

/-- Writes the gap and then a piece of code. -/
def emit (p : Progress) (piece : List Char) : Progress :=
  { p with out := piece.reverse ++ p.gap.write p.out, gap := .none }

/-- Passes over a blank, which may be written later. -/
def pass (p : Progress) (c : Char) : Progress :=
  { p with gap := p.gap.add c }

/-- Writes template text; a substitution opens one more brace. -/
def emitTemplate (p : Progress) (piece : List Char) (opens : Bool) : Progress :=
  let p := p.emit piece
  if opens then { p with depth := p.depth + 1, templates := p.depth :: p.templates } else p

end Progress

/-- Minifies the rest of a script. -/
def scriptFrom (p : Progress) : List Char → Progress
  | [] => p
  | '/' :: '/' :: r =>
    have : (r.dropWhile (· != '\n')).length ≤ r.length := (List.dropWhile_sublist _).length_le
    scriptFrom p (r.dropWhile (· != '\n'))
  | '/' :: '*' :: r =>
    have := splitComment_length r
    scriptFrom (p.pass (if '\n' ∈ (splitComment r).1 then '\n' else ' ')) (splitComment r).2
  | c :: r =>
    if Text.isBlank c then scriptFrom (p.pass c) r
    else if c = '"' ∨ c = '\'' then
      have := splitString_length c r
      scriptFrom (p.emit (c :: (splitString c r).1)) (splitString c r).2
    else if c = '\x60' then
      have := splitTemplate_length r
      scriptFrom (p.emitTemplate (c :: (splitTemplate r).1) (splitTemplate r).2.1)
        (splitTemplate r).2.2
    else if c = '/' ∧ opensRegex p.out then
      have := splitRegex_length false r
      scriptFrom (p.emit (c :: (splitRegex false r).1)) (splitRegex false r).2
    else if c = '\x7b' then
      scriptFrom { p.emit [c] with depth := p.depth + 1 } r
    else if c = '\x7d' then
      let q := { p.emit [c] with depth := p.depth - 1 }
      if q.templates.head? = some q.depth then
        have := splitTemplate_length r
        scriptFrom
          ({ q with templates := q.templates.tail }.emitTemplate (splitTemplate r).1
            (splitTemplate r).2.1)
          (splitTemplate r).2.2
      else scriptFrom q r
    else scriptFrom (p.emit [c]) r
termination_by s => s.length

/-- The minified form of a script. -/
def script (source : String) : String :=
  String.ofList (scriptFrom .start source.toList).out.reverse

end StaticSite.Minify
