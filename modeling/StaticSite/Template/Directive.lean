import StaticSite.Text.Blank
import StaticSite.Template.Fault

/-!
# Directives

A template alternates between literal texts and directives, which stand between `<%` and `%>`; the
opener `<%%` is literal. A directive's first character says what it does and its last one how the
text behind it is trimmed. `Layout.ofSource` splits a template into texts and directives, and
`Layout.segments` trims the texts and drops the comments.
-/

namespace StaticSite.Template

/-- What the first character of a directive asks for. -/
inductive Opening where
  | escaped
  | raw
  | comment
  | trimming
  | plain
deriving DecidableEq, Repr

/-- What the end of a directive removes from the text behind it. -/
inductive Closing where
  | keep
  | newlines
  | blanks
deriving DecidableEq, Repr

/-- A directive: what it does, its code, and how it ends. -/
structure Directive where
  opening : Opening
  code : List Char
  closing : Closing
deriving DecidableEq, Repr

/-- A template as its first text and the directives, each with the text behind it. -/
structure Layout where
  head : List Char
  tail : List (Directive × List Char)
deriving DecidableEq, Repr

/-- How the value of an output directive is written. -/
inductive Writing where
  | escaped
  | raw
deriving DecidableEq, Repr

/-- A trimmed text or a directive that does something. -/
inductive Segment where
  | text (s : String)
  | output (how : Writing) (code : String)
  | statements (code : String)
deriving DecidableEq, Repr

/-! ## Splitting -/

/-- The text before the first opener and what stands behind the opener. -/
def splitOpener : List Char → Option (List Char × List Char)
  | [] => none
  | '<' :: '%' :: '%' :: r =>
    (splitOpener r).map fun (text, rest) => ('<' :: '%' :: '%' :: text, rest)
  | '<' :: '%' :: r => some ([], r)
  | c :: r => (splitOpener r).map fun (text, rest) => (c :: text, rest)

/-- The text before the first closer and what stands behind the closer. -/
def splitCloser : List Char → Option (List Char × List Char)
  | [] => none
  | '%' :: '>' :: r => some ([], r)
  | c :: r => (splitCloser r).map fun (text, rest) => (c :: text, rest)

theorem splitOpener_length {s text rest : List Char} (h : splitOpener s = some (text, rest)) :
    rest.length < s.length := by
  fun_induction splitOpener s generalizing text with
  | case1 => simp at h
  | case2 r ih =>
    obtain ⟨⟨t, u⟩, hu, he⟩ := Option.map_eq_some_iff.1 h
    cases he
    have := ih hu
    simp only [List.length_cons]
    omega
  | case3 r => cases h; simp only [List.length_cons]; omega
  | case4 c r _ _ ih =>
    obtain ⟨⟨t, u⟩, hu, he⟩ := Option.map_eq_some_iff.1 h
    cases he
    have := ih hu
    simp only [List.length_cons]
    omega

theorem splitCloser_length {s text rest : List Char} (h : splitCloser s = some (text, rest)) :
    rest.length < s.length := by
  fun_induction splitCloser s generalizing text with
  | case1 => simp at h
  | case2 r => cases h; simp only [List.length_cons]; omega
  | case3 c r _ ih =>
    obtain ⟨⟨t, u⟩, hu, he⟩ := Option.map_eq_some_iff.1 h
    cases he
    have := ih hu
    simp only [List.length_cons]
    omega

/-- Takes the closing character off the end of a directive's body. -/
def splitClosing (body : List Char) : List Char × Closing :=
  match body.getLast? with
  | some '-' => (body.dropLast, .newlines)
  | some '_' => (body.dropLast, .blanks)
  | _ => (body, .keep)

/-- Reads what stands between opener and closer. -/
def Directive.ofBody (inner : List Char) : Directive :=
  let (opening, body) := match inner with
    | '=' :: r => (Opening.escaped, r)
    | '-' :: r => (Opening.raw, r)
    | '#' :: r => (Opening.comment, r)
    | '_' :: r => (Opening.trimming, r)
    | r => (Opening.plain, r)
  let (code, closing) := splitClosing body
  ⟨opening, code, closing⟩

/-- The number of newlines in a text. -/
def newlineCount (s : List Char) : Nat :=
  s.count '\n'

/-- Splits what is left of a template, whose first line has the given number. -/
def Layout.ofRest (line : Nat) (s : List Char) : Except Malformed Layout :=
  match _ho : splitOpener s with
  | none => .ok ⟨s, []⟩
  | some (text, afterOpener) =>
    let start := line + newlineCount text
    match _hc : splitCloser afterOpener with
    | none => .error (.unclosedDirective start)
    | some (inner, rest) => do
      let layout ← Layout.ofRest (start + newlineCount inner) rest
      return ⟨text, (.ofBody inner, layout.head) :: layout.tail⟩
termination_by s.length
decreasing_by
  have := splitOpener_length _ho
  have := splitCloser_length _hc
  omega

/-- The layout of a template. -/
def Layout.ofSource (source : String) : Except Malformed Layout :=
  Layout.ofRest 1 source.toList

/-! ## Trimming -/

/-- What a closer leaves of the text behind it. -/
def Closing.trim : Closing → List Char → List Char
  | .keep, s => s
  | .newlines, s => s.dropWhile (· == '\n')
  | .blanks, s => Text.trimStart s

/-- What an opener leaves of the text in front of it. -/
def Opening.trim : Opening → List Char → List Char
  | .trimming, s => Text.trimEnd s
  | _, s => s

/-- A text as a segment, unless nothing is left of it. -/
def textSegment (s : List Char) : List Segment :=
  if s = [] then [] else [.text (String.ofList s)]

/-- What a directive stands for; a comment stands for nothing. -/
def Directive.segment (d : Directive) : List Segment :=
  match d.opening with
  | .escaped => [.output .escaped (String.ofList d.code)]
  | .raw => [.output .raw (String.ofList d.code)]
  | .comment => []
  | .trimming | .plain => [.statements (String.ofList d.code)]

/-- The segments from a text on, which stands behind a directive that ends in `before`. -/
def segmentsFrom (before : Closing) (text : List Char) :
    List (Directive × List Char) → List Segment
  | [] => textSegment (before.trim text)
  | (d, next) :: rest =>
    textSegment (before.trim (d.opening.trim text)) ++ d.segment ++ segmentsFrom d.closing next rest

/-- The segments of a template, with its texts trimmed. -/
def Layout.segments (layout : Layout) : List Segment :=
  segmentsFrom .keep layout.head layout.tail

/-- The literal texts and directives of a template. -/
def scan (source : String) : Except Malformed (List Segment) :=
  (Layout.ofSource source).map Layout.segments

end StaticSite.Template
