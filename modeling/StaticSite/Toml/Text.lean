import StaticSite.Json.Reader

/-!
# Strings

A basic string has escapes, a literal string has none. Either form may run over several lines
between three quotes; a newline right behind the opening quotes does not belong to it, and every
newline in it is read as a line feed.
-/

namespace StaticSite.Toml

/-- The characters that may stand in comments and strings. -/
def isPlain (c : Char) : Bool :=
  c == '\t' || (' ' ≤ c && c ≠ '\x7f')

/-- The character of a code point written in hexadecimal. -/
def codePoint? (digits : List Char) : Option Char := do
  let values ← digits.mapM Json.hexValue?
  let n := values.foldl (fun n d => 16 * n + d) 0
  if n.isValidChar then some (Char.ofNat n) else none

/-- An escape behind its backslash, and what follows it. -/
def escape? : List Char → Option (Char × List Char)
  | 'b' :: r => some ('\x08', r)
  | 't' :: r => some ('\t', r)
  | 'n' :: r => some ('\n', r)
  | 'f' :: r => some ('\x0c', r)
  | 'r' :: r => some ('\r', r)
  | '"' :: r => some ('"', r)
  | '\\' :: r => some ('\\', r)
  | 'u' :: r => if r.length < 4 then none else (codePoint? (r.take 4)).map fun c => (c, r.drop 4)
  | 'U' :: r => if r.length < 8 then none else (codePoint? (r.take 8)).map fun c => (c, r.drop 8)
  | _ => none

/-- What stands behind a newline. -/
def newline? : List Char → Option (List Char)
  | '\n' :: r => some r
  | '\r' :: '\n' :: r => some r
  | _ => none

/-- Steps over blanks and newlines. -/
def dropLines : List Char → List Char
  | '\r' :: '\n' :: r => dropLines r
  | c :: r => if c = ' ' ∨ c = '\t' ∨ c = '\n' then dropLines r else c :: r
  | [] => []

/-- What stands behind blanks. -/
def dropBlanks (s : List Char) : List Char :=
  s.dropWhile fun c => c == ' ' || c == '\t'

/-- The rest of a basic string in one line; `out` holds what was read in reverse. -/
def basic (out : List Char) : Nat → List Char → Option (List Char × List Char)
  | 0, _ => none
  | fuel + 1, s =>
    match s with
    | '"' :: r => some (out.reverse, r)
    | '\\' :: r => do
      let (c, r) ← escape? r
      basic (c :: out) fuel r
    | c :: r => if isPlain c then basic (c :: out) fuel r else none
    | [] => none

/-- The rest of a literal string in one line. -/
def literal (out : List Char) : List Char → Option (List Char × List Char)
  | [] => none
  | c :: r =>
    if c = '\'' then some (out.reverse, r)
    else if isPlain c then literal (c :: out) r
    else none

/-- The end of a string of several lines behind three quotes: two more may belong to the string. -/
def closing (quote : Char) (out : List Char) (r : List Char) : List Char × List Char :=
  let extra := ((r.take 2).takeWhile (· == quote)).length
  (out.reverse ++ List.replicate extra quote, r.drop extra)

/-- The rest of a basic string of several lines. -/
def basicLines (out : List Char) : Nat → List Char → Option (List Char × List Char)
  | 0, _ => none
  | fuel + 1, s =>
    match s with
    | '"' :: '"' :: '"' :: r => some (closing '"' out r)
    | '\\' :: r =>
      match newline? (dropBlanks r) with
      | some r => basicLines out fuel (dropLines r)
      | none => do
        let (c, r) ← escape? r
        basicLines (c :: out) fuel r
    | c :: r =>
      match newline? (c :: r) with
      | some r => basicLines ('\n' :: out) fuel r
      | none => if isPlain c then basicLines (c :: out) fuel r else none
    | [] => none

/-- The rest of a literal string of several lines. -/
def literalLines (out : List Char) : Nat → List Char → Option (List Char × List Char)
  | 0, _ => none
  | fuel + 1, s =>
    match s with
    | '\'' :: '\'' :: '\'' :: r => some (closing '\'' out r)
    | c :: r =>
      match newline? (c :: r) with
      | some r => literalLines ('\n' :: out) fuel r
      | none => if isPlain c then literalLines (c :: out) fuel r else none
    | [] => none

/-- What stands behind a newline, if there is one. -/
def dropNewline (s : List Char) : List Char :=
  (newline? s).getD s

/-- A string in one line, with its quotes. -/
def string? (s : List Char) : Option (List Char × List Char) :=
  match s with
  | '"' :: r => basic [] s.length r
  | '\'' :: r => literal [] r
  | _ => none

/-- A string of either length, with its quotes. -/
def anyString? (s : List Char) : Option (List Char × List Char) :=
  match s with
  | '"' :: '"' :: '"' :: r => basicLines [] s.length (dropNewline r)
  | '\'' :: '\'' :: '\'' :: r => literalLines [] s.length (dropNewline r)
  | _ => string? s

end StaticSite.Toml
