/-!
# HTML inside markdown

Which texts that begin with `<` are tags, comments or addresses. Each reader takes the text behind
the `<` and gives back what stands behind the `>`.
-/

namespace StaticSite.Markdown

/-- Whether a character may stand between the parts of a tag. -/
def isGap (c : Char) : Bool :=
  c == ' ' || c == '\t' || c == '\n'

/-- What stands behind a gap. -/
def skipGap (s : List Char) : List Char :=
  s.dropWhile isGap

/-- A tag's name, and what stands behind it. -/
def tagName? (s : List Char) : Option (List Char × List Char) :=
  match s with
  | c :: _ =>
    if c.isAlpha then
      let name := s.takeWhile fun c => c.isAlphanum || c == '-'
      some (name, s.drop name.length)
    else none
  | [] => none

/-- Whether a character may begin the name of an attribute. -/
def startsAttribute (c : Char) : Bool :=
  c.isAlpha || c == '_' || c == ':'

/-- Whether a character may stand in the name of an attribute. -/
def continuesAttribute (c : Char) : Bool :=
  c.isAlphanum || c == '_' || c == ':' || c == '.' || c == '-'

/-- Whether a character may stand in a value without quotes. -/
def inBareValue (c : Char) : Bool :=
  !isGap c && c != '"' && c != '\'' && c != '=' && c != '<' && c != '>' && c != '\x60'

/-- What stands behind an attribute's value. -/
def afterValue? (s : List Char) : Option (List Char) :=
  match s with
  | '"' :: r => (r.dropWhile (· != '"')).tail?
  | '\'' :: r => (r.dropWhile (· != '\'')).tail?
  | _ =>
    let value := s.takeWhile inBareValue
    if value = [] then none else some (s.drop value.length)

/-- What stands behind the attributes of a start tag and its end. -/
def afterAttributes? : Nat → List Char → Option (List Char)
  | 0, _ => none
  | fuel + 1, s =>
    match skipGap s with
    | '>' :: r => some r
    | '/' :: '>' :: r => some r
    | c :: r =>
      if startsAttribute c ∧ s.head?.any isGap then
        let r := r.dropWhile continuesAttribute
        match skipGap r with
        | '=' :: v => (afterValue? (skipGap v)).bind (afterAttributes? fuel)
        | _ => afterAttributes? fuel r
      else none
    | [] => none

/-- What stands behind a start tag. -/
def afterStartTag? (s : List Char) : Option (List Char) :=
  (tagName? s).bind fun (_, r) => afterAttributes? (s.length + 1) r

/-- What stands behind an end tag of which the slash was read. -/
def afterEndTag? (s : List Char) : Option (List Char) :=
  (tagName? s).bind fun (_, r) =>
    match skipGap r with
    | '>' :: r => some r
    | _ => none

/-- What stands behind the first occurrence of `close`. -/
def behind? (close : List Char) : List Char → Option (List Char)
  | [] => none
  | c :: r => if (c :: r).take close.length = close then some ((c :: r).drop close.length)
    else behind? close r

/-- What stands behind a tag, a comment, an instruction, a declaration or a literal section. -/
def afterHtml? (s : List Char) : Option (List Char) :=
  match s with
  | '/' :: r => afterEndTag? r
  | '?' :: r => behind? ['?', '>'] r
  | '!' :: '-' :: '-' :: '>' :: r => some r
  | '!' :: '-' :: '-' :: '-' :: '>' :: r => some r
  | '!' :: '-' :: '-' :: r => behind? ['-', '-', '>'] r
  | '!' :: '[' :: r =>
    if r.take 6 = ['C', 'D', 'A', 'T', 'A', '['] then behind? [']', ']', '>'] (r.drop 6) else none
  | '!' :: c :: r => if c.isAlpha then behind? ['>'] r else none
  | _ => afterStartTag? s

/-! ## Addresses -/

/-- Whether a character may stand in the scheme of an address. -/
def inScheme (c : Char) : Bool :=
  c.isAlphanum || c == '+' || c == '.' || c == '-'

/-- An address with a scheme, and what stands behind it. -/
def address? (s : List Char) : Option (List Char × List Char) :=
  let scheme := s.takeWhile inScheme
  match s.drop scheme.length with
  | ':' :: r =>
    let rest := r.takeWhile fun c => !(c ≤ ' ' || c == '<' || c == '>')
    match r.drop rest.length with
    | '>' :: after =>
      if s.head?.any Char.isAlpha ∧ 2 ≤ scheme.length ∧ scheme.length ≤ 32 then
        some (scheme ++ ':' :: rest, after)
      else none
    | _ => none
  | _ => none

/-- Whether a character may stand before the `@` of a mail address. -/
def inMailName (c : Char) : Bool :=
  c.isAlphanum || ".!#$%&'*+/=?^_\x60\x7b|\x7d~-".toList.contains c

/-- Whether a label of a domain has its form. -/
def isDomainLabel (label : List Char) : Bool :=
  label != [] && label.length ≤ 63 && label.all (fun c => c.isAlphanum || c == '-') &&
    label.head? != some '-' && label.getLast? != some '-'

/-- The parts of a text between its dots. -/
def splitDots : List Char → List (List Char)
  | [] => [[]]
  | '.' :: r => [] :: splitDots r
  | c :: r =>
    match splitDots r with
    | [] => [[c]]
    | label :: labels => (c :: label) :: labels

/-- A mail address, and what stands behind it. -/
def mail? (s : List Char) : Option (List Char × List Char) :=
  let name := s.takeWhile inMailName
  match s.drop name.length with
  | '@' :: r =>
    let domain := r.takeWhile fun c => c.isAlphanum || c == '-' || c == '.'
    match r.drop domain.length with
    | '>' :: after =>
      if name ≠ [] ∧ (splitDots domain).all isDomainLabel then some (name ++ '@' :: domain, after)
      else none
    | _ => none
  | _ => none

end StaticSite.Markdown
