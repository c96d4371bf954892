import StaticSite.Text.Printable

/-!
# Quoted text for messages

A message quotes a text between double quotes on one line: the quote, the backslash and the usual
control characters are escaped by a backslash, and what could not be read on a screen is written as
its code point in hexadecimal.
-/

namespace StaticSite.Text

/-- The code point in hexadecimal, between braces after `\u`. -/
def codePointEscape (c : Char) : List Char :=
  ['\\', 'u', '\x7b'] ++ Nat.toDigits 16 c.toNat ++ ['\x7d']

/-- One character of a quoted text. -/
def quoteChar (c : Char) : List Char :=
  if c == '\x00' then ['\\', '0']
  else if c == '\t' then ['\\', 't']
  else if c == '\r' then ['\\', 'r']
  else if c == '\n' then ['\\', 'n']
  else if c == '"' || c == '\\' then ['\\', c]
  else if isAttaching c || !isPrintable c then codePointEscape c
  else [c]

/-- The text between double quotes, escaped. -/
def quoted (s : String) : String :=
  String.ofList ('"' :: s.toList.flatMap quoteChar ++ ['"'])

end StaticSite.Text
