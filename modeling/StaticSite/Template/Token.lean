/-!
# Tokens

The code of directives is a list of tokens: names, numbers, strings, template strings and marks. A
template string alternates between texts and the tokens of its substitutions.
-/

namespace StaticSite.Template

/-- A punctuation mark or operator. -/
inductive Mark where
  | strictEq | strictNe | arrow | eq | ne | le | ge | andAnd | orOr | nullish
  | plusAssign | minusAssign | increment | decrement | optional
  | plus | minus | star | slash | percent | lt | gt | assign | bang | question | colon
  | dot | comma | semicolon | openParen | closeParen | openBracket | closeBracket
  | openBrace | closeBrace
deriving DecidableEq, Repr

namespace Mark

/-- The characters of a mark. -/
def chars : Mark → List Char
  | strictEq => ['=', '=', '=']
  | strictNe => ['!', '=', '=']
  | arrow => ['=', '>']
  | eq => ['=', '=']
  | ne => ['!', '=']
  | le => ['<', '=']
  | ge => ['>', '=']
  | andAnd => ['&', '&']
  | orOr => ['|', '|']
  | nullish => ['?', '?']
  | plusAssign => ['+', '=']
  | minusAssign => ['-', '=']
  | increment => ['+', '+']
  | decrement => ['-', '-']
  | optional => ['?', '.']
  | plus => ['+']
  | minus => ['-']
  | star => ['*']
  | slash => ['/']
  | percent => ['%']
  | lt => ['<']
  | gt => ['>']
  | assign => ['=']
  | bang => ['!']
  | question => ['?']
  | colon => [':']
  | dot => ['.']
  | comma => [',']
  | semicolon => [';']
  | openParen => ['(']
  | closeParen => [')']
  | openBracket => ['[']
  | closeBracket => [']']
  | openBrace => ['\x7b']
  | closeBrace => ['\x7d']

/-- The text of a mark. -/
def text (m : Mark) : String :=
  String.ofList m.chars

/-- All marks, each before those that begin it. -/
def all : List Mark :=
  [strictEq, strictNe, arrow, eq, ne, le, ge, andAnd, orOr, nullish, plusAssign, minusAssign,
    increment, decrement, optional, plus, minus, star, slash, percent, lt, gt, assign, bang,
    question, colon, dot, comma, semicolon, openParen, closeParen, openBracket, closeBracket,
    openBrace, closeBrace]

/-- The longest mark at the beginning of a text. -/
def at? (s : List Char) : Option Mark :=
  all.find? fun m => m.chars.isPrefixOf s

end Mark

mutual

/-- A word of the code. -/
inductive Token where
  | name (s : String)
  | number (x : Float)
  | string (s : String)
  | template (pieces : List Piece)
  | mark (m : Mark)

/-- A piece of a template string. -/
inductive Piece where
  | text (s : String)
  | substitution (code : List Token)

end

end StaticSite.Template
