import StaticSite.Text.Escape
import StaticSite.Text.Search

/-!
# Code blocks

Code is marked up with classes, so that one stylesheet serves all pages. Text in a language that has
no grammar here is one span of plain text.
-/

namespace StaticSite.Markdown

/-- A character as it is written in code. -/
def escapeCodeChar (c : Char) : List Char :=
  match c with
  | '&' => "&amp;".toList
  | '<' => "&lt;".toList
  | '>' => "&gt;".toList
  | '"' => "&quot;".toList
  | '\'' => "&#39;".toList
  | c => [c]

/-- The markup of code in a language, or in none. -/
def codeMarkup (language : Option String) (code : String) : String :=
  let languageClass := match language with
    | some l => " class=\"language-" ++ Text.escapeAttribute l ++ "\""
    | none => ""
  let body :=
    if code = "" then ""
    else
      "<span class=\"text plain\">" ++ String.ofList (code.toList.flatMap escapeCodeChar) ++
        "</span>"
  "<pre class=\"code\"><code" ++ languageClass ++ ">" ++ body ++ "</code></pre>\n"

/-! ## Colours -/

/-- A theme by which code is coloured: its name, the title that its stylesheet tells, and the
colours of text and background. -/
structure CodeTheme where
  name : String
  title : String
  foreground : String
  background : String
deriving DecidableEq

namespace CodeTheme

/-- The theme that is used unless there is one of the name that is asked for. -/
def standard : CodeTheme :=
  ⟨"InspiredGitHub", "GitHub", "#323232", "#ffffff"⟩

/-- All themes in the order of their names. -/
def all : List CodeTheme :=
  [standard,
    ⟨"Solarized (dark)", "Solarized (dark)", "#839496", "#002b36"⟩,
    ⟨"Solarized (light)", "Solarized (light)", "#657b83", "#fdf6e3"⟩,
    ⟨"base16-eighties.dark", "Base16 Eighties Dark", "#d3d0c8", "#2d2d2d"⟩,
    ⟨"base16-mocha.dark", "Base16 Mocha Dark", "#d0c8c6", "#3b3228"⟩,
    ⟨"base16-ocean.dark", "Base16 Ocean Dark", "#c0c5ce", "#2b303b"⟩,
    ⟨"base16-ocean.light", "Base16 Ocean Light", "#4f5b66", "#eff1f5"⟩]

/-- The theme of a name. -/
def ofName? (name : String) : Option CodeTheme :=
  all.find? (·.name = name)

/-- The theme after a choice: a name that no theme has changes nothing. -/
def choose (current : CodeTheme) (name : String) : CodeTheme :=
  (ofName? name).getD current

/-- The stylesheet of a theme. -/
def stylesheet (theme : CodeTheme) : String :=
  "/*\n * theme \"" ++ theme.title ++ "\" generated by syntect\n */\n\n.code \x7b\n color: " ++
    theme.foreground ++ ";\n background-color: " ++ theme.background ++ ";\n\x7d\n\n"

theorem choose_eq_of_ofName?_eq_none {current : CodeTheme} {name : String}
    (h : ofName? name = none) :
    current.choose name = current := by
  simp [choose, h]

end CodeTheme

end StaticSite.Markdown
