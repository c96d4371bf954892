/-!
# Tags

A tag is a name and attributes between angle brackets. Names are compared in lower case. A tag that
is not closed by the end of the text is no tag.
-/

namespace StaticSite.Page

/-- A start tag. Values of attributes stand as they were written. -/
structure Tag where
  name : String
  attributes : List (String × String)
  selfClosing : Bool

/-- The value of the first attribute of a name. -/
def Tag.attribute? (tag : Tag) (name : String) : Option String :=
  tag.attributes.lookup name

/-- Whether a character is white space in a tag. -/
def isSpace (c : Char) : Bool :=
  c == ' ' || c == '\t' || c == '\n' || c == '\r' || c == '\x0c'

/-- The characters that end the name of a tag. -/
def endsName (c : Char) : Bool :=
  isSpace c || c == '/' || c == '>'

/-- Whether a character opens a quoted value. -/
def isQuote (c : Char) : Bool :=
  c == '"' || c == '\''

/-- A name in lower case. -/
def lowerName (name : List Char) : String :=
  String.ofList (name.map Char.toLower)

/-- An attribute's value behind its equals sign, and what stands behind it. -/
def splitValue (s : List Char) : Option (List Char × List Char) :=
  match s.dropWhile isSpace with
  | [] => none
  | '>' :: r => some ([], '>' :: r)
  | c :: r =>
    if isQuote c then
      let value := r.takeWhile (· != c)
      match r.drop value.length with
      | [] => none
      | _ :: rest => some (value, rest)
    else
      let value := (c :: r).takeWhile fun x => !isSpace x && x != '>'
      some (value, (c :: r).drop value.length)

/-- The characters that end the name of an attribute. -/
def endsAttributeName (c : Char) : Bool :=
  endsName c || c == '='

/-- The attributes up to the end of a tag, whether a slash closes it, and what stands behind it. -/
def attributesFrom (found : List (String × String)) :
    Nat → List Char → Option (List (String × String) × Bool × List Char)
  | 0, _ => none
  | fuel + 1, s =>
    match s.dropWhile isSpace with
    | [] => none
    | '>' :: r => some (found.reverse, false, r)
    | '/' :: '>' :: r => some (found.reverse, true, r)
    | '/' :: r => attributesFrom found fuel r
    | c :: r =>
      let tail := r.takeWhile (!endsAttributeName ·)
      let name := lowerName (c :: tail)
      match (r.drop tail.length).dropWhile isSpace with
      | '=' :: r => do
        let (value, r) ← splitValue r
        attributesFrom ((name, String.ofList value) :: found) fuel r
      | r => attributesFrom ((name, "") :: found) fuel r

/-- A tag behind its opening bracket or slash, and what stands behind its end. -/
def splitTag (s : List Char) : Option (Tag × List Char) := do
  let name := s.takeWhile (!endsName ·)
  let (attributes, selfClosing, rest) ← attributesFrom [] (s.length + 1) (s.drop name.length)
  return (⟨lowerName name, attributes, selfClosing⟩, rest)

/-- Whether a text begins with a name that ends there. The name is given in lower case. -/
def beginsWithName (name : List Char) (s : List Char) : Bool :=
  (s.take name.length).map Char.toLower == name && (s.drop name.length).head?.any endsName

end StaticSite.Page
