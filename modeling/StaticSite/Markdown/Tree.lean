/-!
# Markdown trees

A document is a list of blocks. The text of a paragraph, a heading or a table cell is kept as it was
written until all link definitions are known.
-/

namespace StaticSite.Markdown

/-- A part of running text. -/
inductive Inline where
  | text (s : List Char)
  | code (s : List Char)
  | math (isDisplay : Bool) (tex : List Char)
  | emphasis (inner : List Inline)
  | strong (inner : List Inline)
  | strike (inner : List Inline)
  | link (target title : List Char) (inner : List Inline)
  | image (source title : List Char) (inner : List Inline)
  | html (s : List Char)
  | softBreak
  | hardBreak
  | footnote (label : List Char)

/-- How the cells of a table's column are aligned. -/
inductive Alignment where
  | none
  | left
  | center
  | right
deriving DecidableEq

/-- A block; the items of a list are blocks of their own. -/
inductive Block where
  | paragraph (source : List Char)
  | heading (level : Nat) (source : List Char)
  | rule
  | code (info : Option (List Char)) (text : List Char)
  | html (text : List Char)
  | quote (inner : List Block)
  | list (start : Option Nat) (isTight : Bool) (items : List Block)
  | item (inner : List Block)
  | table (alignments : List Alignment) (header : List (List Char)) (rows : List (List (List Char)))
  | footnote (label : List Char) (inner : List Block)
  /-- Link definitions, of which nothing is written. -/
  | definitions

/-- Where a link definition leads. -/
structure Target where
  address : List Char
  title : List Char := []

/-- The link definitions by normalized label, and the labels that have a footnote. -/
structure References where
  links : List (List Char × Target) := []
  footnotes : List (List Char) := []

end StaticSite.Markdown
