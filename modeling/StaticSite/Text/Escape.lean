/-!
# Escaping for HTML

Five characters have a meaning in HTML. Written values escape all five; attribute values escape four
of them, by replacing one after the other, the ampersand first.
-/

namespace StaticSite.Text

/-- A character as it is written in markup. -/
def escapeHtmlChar (c : Char) : List Char :=
  match c with
  | '&' => ['&', 'a', 'm', 'p', ';']
  | '"' => ['&', 'q', 'u', 'o', 't', ';']
  | '\'' => ['&', 'a', 'p', 'o', 's', ';']
  | '<' => ['&', 'l', 't', ';']
  | '>' => ['&', 'g', 't', ';']
  | c => [c]

/-- Escapes the five characters. -/
def escapeHtml (s : String) : String :=
  String.ofList (s.toList.flatMap escapeHtmlChar)

/-- Replaces one character by a text. -/
def replaceChar (c : Char) (with_ s : List Char) : List Char :=
  s.flatMap fun x => if x = c then with_ else [x]

/-- Escapes ampersands, angle brackets and double quotes. -/
def escapeAttribute (s : String) : String :=
  String.ofList <|
    replaceChar '"' ['&', 'q', 'u', 'o', 't', ';'] <|
    replaceChar '>' ['&', 'g', 't', ';'] <|
    replaceChar '<' ['&', 'l', 't', ';'] <|
    replaceChar '&' ['&', 'a', 'm', 'p', ';'] s.toList

end StaticSite.Text
