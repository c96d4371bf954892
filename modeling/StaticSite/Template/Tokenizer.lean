import StaticSite.Decimal.Reading
import StaticSite.Text.Blank
import StaticSite.Text.Letters
import StaticSite.Template.Fault
import StaticSite.Template.Token

/-!
# Reading tokens

Blanks and comments separate tokens. Names begin with a letter, `_` or `$`; numbers with a digit or
a point before a digit; strings stand between quotes of one kind and template strings between
backticks. Everything else is the longest mark.
-/

namespace StaticSite.Template

/-- Whether a character may begin a name. -/
def isNameStart (c : Char) : Bool :=
  Text.isLetter c || c == '_' || c == '$'

/-- Whether a character may stand in a name. -/
def isNameChar (c : Char) : Bool :=
  Text.isLetter c || Text.isNumeral c || c == '_' || c == '$'

/-! ## Comments -/

/-- What stands behind the end of a block comment. -/
def afterBlockComment : List Char → Option (List Char)
  | [] => none
  | '*' :: '/' :: r => some r
  | _ :: r => afterBlockComment r

/-! ## Numbers -/

/-- The text of a number: digits and points, then an exponent, as far as they go. -/
def numberText (s : List Char) : List Char :=
  let isDigitOrPoint (c : Char) : Bool := c.isDigit || c == '.'
  let digits := s.takeWhile isDigitOrPoint
  match s.dropWhile isDigitOrPoint with
  | [] => digits
  | e :: r =>
    if e = 'e' ∨ e = 'E' then
      match r with
      | '+' :: t => digits ++ e :: '+' :: t.takeWhile Char.isDigit
      | '-' :: t => digits ++ e :: '-' :: t.takeWhile Char.isDigit
      | t => digits ++ e :: t.takeWhile Char.isDigit
    else digits

/-- Whether a number begins here: with a digit, or with a point and a digit. -/
def startsNumber : List Char → Bool
  | [] => false
  | c :: r => c.isDigit || (c == '.' && (r.head?.map Char.isDigit).getD false)

/-! ## Strings -/

/-- The value of hexadecimal digits, which a plus sign may precede. -/
def hexCode? (s : List Char) : Option Nat :=
  let ds := match s with
    | '+' :: r => r
    | r => r
  if ds = [] then none
  else ds.foldlM (fun n c => (Json.hexValue? c).map (16 * n + ·)) 0

/-- The character that up to four hexadecimal digits name. -/
def unicodeChar? (digits : List Char) : Option Char :=
  (hexCode? digits).bind fun n => if h : n.isValidChar then some (Char.ofNatAux n h) else none

/-- Reads what stands behind a backslash. -/
def readEscape : List Char → Except Malformed (Char × List Char)
  | [] => .error .unclosedString
  | 'n' :: r => .ok ('\n', r)
  | 't' :: r => .ok ('\t', r)
  | 'r' :: r => .ok ('\r', r)
  | '0' :: r => .ok ('\x00', r)
  | 'u' :: r =>
    match unicodeChar? (r.take 4) with
    | some c => .ok (c, r.drop 4)
    | none => .error (.invalidUnicode (String.ofList (r.take 4)))
  | c :: r => .ok (c, r)

theorem readEscape_length {s rest : List Char} {c : Char} (h : readEscape s = .ok (c, rest)) :
    rest.length < s.length := by
  unfold readEscape at h
  split at h
  all_goals (try split at h)
  all_goals cases h
  all_goals simp only [List.length_cons, List.length_drop]
  all_goals omega

/-- Reads a string behind its opening quote. -/
def readString (quote : Char) (s : List Char) : Except Malformed (List Char × List Char) :=
  match s with
  | [] => .error .unclosedString
  | c :: r =>
    if c = quote then .ok ([], r)
    else if c = '\\' then
      match _h : readEscape r with
      | .error e => .error e
      | .ok (x, rest) => (readString quote rest).map fun (text, after) => (x :: text, after)
    else (readString quote r).map fun (text, after) => (c :: text, after)
termination_by s.length
decreasing_by
  · have := readEscape_length _h
    simp only [List.length_cons]
    omega
  · simp

/-! ## Substitutions -/

/-- Whether a character opens a string or a template string. -/
def isQuote (c : Char) : Bool :=
  c == '"' || c == '\'' || c == '\x60'

/-- The code of a substitution up to the brace that closes it, and what stands behind the brace.
Braces between quotes do not count. -/
def splitSubstitution (depth : Nat) (quote : Option Char) :
    List Char → Option (List Char × List Char)
  | [] => none
  | c :: r =>
    let keep (found : Option (List Char × List Char)) : Option (List Char × List Char) :=
      found.map fun (code, rest) => (c :: code, rest)
    match quote with
    | some q =>
      if c = '\\' then
        match r with
        | [] => none
        | d :: r =>
          (splitSubstitution depth quote r).map fun (code, rest) => (c :: d :: code, rest)
      else if c = q then keep (splitSubstitution depth none r)
      else keep (splitSubstitution depth quote r)
    | none =>
      if isQuote c then keep (splitSubstitution depth (some c) r)
      else if c = '\x7b' then keep (splitSubstitution (depth + 1) none r)
      else if c = '\x7d' then
        match depth with
        | 0 => some ([], r)
        | d + 1 => keep (splitSubstitution d none r)
      else keep (splitSubstitution depth none r)

/-! ## Tokens -/

/-- A text as a piece of a template string, unless it is empty. -/
def textPiece (reversed : List Char) : List Piece :=
  if reversed = [] then [] else [.text (String.ofList reversed.reverse)]

mutual

/-- Reads all tokens of a code text. -/
def tokensOf : Nat → List Char → Except Malformed (List Token)
  | 0, _ => .ok []
  | _, [] => .ok []
  | fuel + 1, c :: r =>
    let rest := c :: r
    if Text.isBlank c then tokensOf fuel r
    else if c = '/' ∧ r.head? = some '/' then tokensOf fuel (r.dropWhile (· != '\n'))
    else if c = '/' ∧ r.head? = some '*' then
      match afterBlockComment (r.drop 1) with
      | some after => tokensOf fuel after
      | none => .error .unclosedComment
    else if startsNumber rest then
      let literal := numberText rest
      match Decimal.float? literal with
      | none => .error (.invalidNumber (String.ofList literal))
      | some x => (tokensOf fuel (rest.drop literal.length)).map (.number x :: ·)
    else if isNameStart c then
      let name := rest.takeWhile isNameChar
      (tokensOf fuel (rest.dropWhile isNameChar)).map (.name (String.ofList name) :: ·)
    else if c = '"' ∨ c = '\'' then do
      let (text, after) ← readString c r
      (tokensOf fuel after).map (.string (String.ofList text) :: ·)
    else if c = '\x60' then do
      let (pieces, after) ← piecesOf fuel [] r
      (tokensOf fuel after).map (.template pieces :: ·)
    else
      match Mark.at? rest with
      | some m => (tokensOf fuel (rest.drop m.chars.length)).map (.mark m :: ·)
      | none => .error (.strayCharacter c)

/-- Reads the pieces of a template string behind its opening backtick, with the text of the piece
that is being read in reverse. -/
def piecesOf : Nat → List Char → List Char → Except Malformed (List Piece × List Char)
  | 0, _, _ => .error .unclosedTemplate
  | _, _, [] => .error .unclosedTemplate
  | fuel + 1, text, c :: r =>
    if c = '\x60' then .ok (textPiece text, r)
    else if c = '\\' then do
      let (x, after) ← readEscape r
      piecesOf fuel (x :: text) after
    else if c = '$' ∧ r.head? = some '\x7b' then
      match splitSubstitution 0 none (r.drop 1) with
      | none => .error .unclosedSubstitution
      | some (code, after) => do
        let tokens ← tokensOf fuel code
        let (pieces, rest) ← piecesOf fuel [] after
        .ok (textPiece text ++ .substitution tokens :: pieces, rest)
    else piecesOf fuel (c :: text) r

end

/-- The tokens of a code text. -/
def tokenize (code : String) : Except Malformed (List Token) :=
  tokensOf (code.toList.length + 1) code.toList

end StaticSite.Template
