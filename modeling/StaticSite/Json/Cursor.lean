/-!
# Cursors

A cursor is a place in a text that is being read: what is left of it, the line, and the bytes of
that line that lie behind it. Faults are reported at the cursor or some bytes ahead of it.
-/

namespace StaticSite.Json

/-- A place in a text: what is left of it, the line, and the bytes of the line that lie behind it.
-/
structure Cursor where
  rest : List Char
  line : Nat := 1
  column : Nat := 0

/-- A line and the number of bytes read of it. -/
structure Position where
  line : Nat
  column : Nat
deriving DecidableEq, Repr

namespace Cursor

/-- The place in front of a text. -/
def start (s : String) : Cursor :=
  { rest := s.toList }

/-- The line and the column of a place. -/
def position (c : Cursor) : Position :=
  ⟨c.line, c.column⟩

/-- Steps over one character; a newline begins the next line. -/
def advance (c : Cursor) : Cursor :=
  match c.rest with
  | [] => c
  | '\n' :: r => ⟨r, c.line + 1, 0⟩
  | x :: r => ⟨r, c.line, c.column + x.utf8Size⟩

/-- The place after `n` more bytes, which may lie inside a character; at the end of the text there
is nothing ahead. -/
def ahead (c : Cursor) : Nat → Position
  | 0 => c.position
  | n + 1 =>
    match c.rest with
    | [] => c.position
    | x :: _ =>
      if x.utf8Size ≤ n + 1 then c.advance.ahead (n + 1 - x.utf8Size)
      else ⟨c.line, c.column + (n + 1)⟩
termination_by n => n
decreasing_by have := x.utf8Size_pos; omega

/-- The number of bytes that are left. -/
def bytesLeft (c : Cursor) : Nat :=
  c.rest.foldr (fun x n => x.utf8Size + n) 0

/-- Whether a character may stand between the parts of a document. -/
def isJsonBlank (x : Char) : Bool :=
  x == ' ' || x == '\n' || x == '\t' || x == '\r'

/-- Steps over blanks, where `rest` is what is left. -/
def skip (rest : List Char) (line column : Nat) : Cursor :=
  match rest with
  | [] => ⟨[], line, column⟩
  | x :: r =>
    if x == '\n' then skip r (line + 1) 0
    else if isJsonBlank x then skip r line (column + 1)
    else ⟨x :: r, line, column⟩

/-- Goes on behind blanks. -/
def skipBlanks (c : Cursor) : Cursor :=
  skip c.rest c.line c.column

/-- Steps over `n` characters. -/
def advanceBy (c : Cursor) : Nat → Cursor
  | 0 => c
  | n + 1 => c.advance.advanceBy n

end Cursor

end StaticSite.Json
