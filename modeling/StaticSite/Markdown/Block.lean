import StaticSite.Markdown.Line

/-!
# Blocks

The lines of a document are read one by one. Every line goes on with some of the open containers,
may begin new blocks in the innermost of these, and ends the others; a line of plain text goes on
with an open paragraph also where it lacks the marks of the containers around it. A block keeps the
numbers of its first and last line, from which it is seen whether a blank line stands between two
blocks.
-/

namespace StaticSite.Markdown

/-- A block with its first and last line. An item is loose if a blank line stands between its
blocks. -/
structure Placed where
  block : Block
  first : Nat
  last : Nat
  isLoose : Bool := false

/-- A line of the source and whether a newline ends it. -/
structure SourceLine where
  text : List Char
  isEnded : Bool

/-- The block at the end of the innermost container. Lines are held in reverse. -/
inductive Leaf where
  | none
  | paragraph (lines : List (List Char))
  | fenced (mark : Char) (length indent : Nat) (info : List Char) (lines : List (List Char))
  | indented (lines : List (List Char)) (blanks : List (List Char))
  | html (stop : HtmlEnd) (lines : List (List Char))
  | table (alignments : List Alignment) (header : List (List Char)) (rows : List (List (List Char)))

/-- What a container is. -/
inductive Kind where
  | document
  | quote
  | list (marker : Marker)
  /-- The columns by which an item's lines are indented. -/
  | item (indent : Nat)
  | footnote (label : List Char)

/-- A container that is open; its blocks are held in reverse. A quote keeps the number of the last
line that holds nothing but the quote's mark. -/
structure Frame where
  kind : Kind
  blocks : List Placed := []
  first : Nat
  lastMark : Nat := 0

/-- What was read: the open containers, the innermost first, and the block that is open in it. -/
structure Draft where
  frames : List Frame := [{ kind := .document, first := 0 }]
  leaf : Leaf := .none
  leafFirst : Nat := 0
  leafLast : Nat := 0
  references : References := {}

/-- Whether a blank line stands between two of the blocks, which are in order. -/
def hasGap : List Placed → Bool
  | a :: b :: rest => decide (a.last + 1 < b.first) || hasGap (b :: rest)
  | _ => false

/-- The block of a container that is closed. -/
def Frame.close (f : Frame) : Placed :=
  let blocks := f.blocks.reverse
  let last := (f.blocks.head?.map Placed.last).getD f.first
  let inner := blocks.map Placed.block
  match f.kind with
  | .document | .quote => ⟨.quote inner, f.first, max f.lastMark last, false⟩
  | .list marker =>
    let isLoose := hasGap blocks || blocks.any (·.isLoose)
    ⟨.list marker.start? (!isLoose) inner, f.first, last, false⟩
  | .item _ => ⟨.item inner, f.first, last, hasGap blocks⟩
  | .footnote label => ⟨.footnote label inner, f.first, last, false⟩

namespace Draft

/-- Adds a finished block to the innermost open container. -/
def addBlock (d : Draft) (block : Placed) : Draft :=
  match d.frames with
  | f :: rest => { d with frames := { f with blocks := block :: f.blocks } :: rest }
  | [] => d

/-- The text of a paragraph, of which the lines are given in reverse. -/
def paragraphText (lines : List (List Char)) : List Char :=
  (Text.trimEnd (['\n'].intercalate lines.reverse))

/-- The info string of a fence, if it says anything. -/
def languageOf (info : List Char) : Option (List Char) :=
  if info = [] then Option.none else some info

/-- Closes the open block. -/
def closeLeaf (d : Draft) : Draft :=
  let place (block : Block) : Placed := ⟨block, d.leafFirst, d.leafLast, false⟩
  let closed := { d with leaf := .none }
  match d.leaf with
  | .none => d
  | .paragraph lines =>
    let text := paragraphText lines
    let (found, rest) := definitions (text.length + 1) text
    let closed := { closed with
      references := { d.references with links := d.references.links ++ found } }
    closed.addBlock (place (if rest = [] then .definitions else .paragraph rest))
  | .fenced _ _ _ info lines =>
    closed.addBlock (place (.code (languageOf info) lines.reverse.flatten))
  | .indented lines _ => closed.addBlock (place (.code Option.none lines.reverse.flatten))
  | .html _ lines => closed.addBlock (place (.html lines.reverse.flatten))
  | .table alignments header rows =>
    closed.addBlock (place (.table alignments header rows.reverse))

/-- Closes containers until `n` are open. -/
def closeTo (d : Draft) (n : Nat) : Draft :=
  go d.closeLeaf (d.frames.length - n)
where
  /-- Closes the `count` innermost containers. -/
  go (d : Draft) : Nat → Draft
    | 0 => d
    | count + 1 =>
      match d.frames with
      | f :: rest => go ({ d with frames := rest }.addBlock f.close) count
      | [] => d

/-- Opens a container on a line. -/
def openFrame (d : Draft) (line : Nat) (kind : Kind) : Draft :=
  { d with frames := { kind, first := line } :: d.frames }

/-- Opens a block of text on a line. -/
def openLeaf (d : Draft) (line : Nat) (leaf : Leaf) : Draft :=
  { d with leaf, leafFirst := line, leafLast := line }

/-- Replaces the open block by one that a line was added to. -/
def extendLeaf (d : Draft) (line : Nat) (leaf : Leaf) : Draft :=
  { d with leaf, leafLast := line }

/-- Whether a paragraph is open. -/
def isParagraph (d : Draft) : Bool :=
  match d.leaf with
  | .paragraph _ => true
  | _ => false

end Draft

/-! ## Going on with containers -/

/-- The place in a line behind the mark of a container, if the line goes on with it. -/
def continues (isEmpty : Bool) (kind : Kind) (c : Cursor) : Option Cursor :=
  match kind with
  | .document | .list _ => some c
  | .quote =>
    let inner := c.skipBlanks
    if c.indent ≤ 3 ∧ inner.rest.head? = some '>' then
      let inner := inner.drop 1
      some (if inner.indent = 0 then inner else inner.skipColumns 1)
    else none
  | .item indent =>
    if c.isBlank then (if isEmpty then none else some c.skipBlanks)
    else if indent ≤ c.indent then some (c.skipColumns indent)
    else none
  | .footnote _ =>
    if c.isBlank then some c.skipBlanks
    else if 4 ≤ c.indent then some (c.skipColumns 4)
    else none

/-- How many of the containers, given from the outermost, a line goes on with, and where it goes on.
The innermost container is empty if it has no blocks and none is open in it. -/
def continued (leafOpen : Bool) : List Frame → Cursor → Nat × Cursor
  | [], c => (0, c)
  | f :: rest, c =>
    let isEmpty := f.blocks.isEmpty && rest.isEmpty && !leafOpen
    match continues isEmpty f.kind c with
    | none => (0, c)
    | some c =>
      let (n, c) := continued leafOpen rest c
      (n + 1, c)

/-! ## Beginning blocks -/

/-- The rest of a line with its newline. -/
def withEnd (line : SourceLine) (s : List Char) : List Char :=
  if line.isEnded then s ++ ['\n'] else s

/-- The columns between a list marker and the text behind it. -/
def markerPadding (behind : Cursor) : Nat :=
  if behind.isBlank then 1
  else if behind.indent ≤ 4 then behind.indent
  else 1

/-- Begins a list item, in a list that is open or in a new one. -/
def openItem (d : Draft) (line : Nat) (marker : Marker) (indent : Nat) : Draft :=
  let inList := match d.frames with
    | { kind := .list m, .. } :: _ => m.matches marker
    | _ => false
  if inList then d.openFrame line (.item indent)
  else
    let d := match d.frames with
      | { kind := .list _, .. } :: _ => d.closeTo (d.frames.length - 1)
      | _ => d
    (d.openFrame line (.list marker)).openFrame line (.item indent)

/-- Leaves the list when the innermost container is one and no item goes on in it. -/
def leaveList (d : Draft) : Draft :=
  match d.frames with
  | { kind := .list _, .. } :: _ => d.closeTo (d.frames.length - 1)
  | _ => d

/-- What a place in a line begins. -/
inductive Start where
  /-- A container, and the place behind its mark. -/
  | container (open_ : Draft → Draft) (behind : Cursor)
  /-- A block that the line belongs to. -/
  | leaf (open_ : Draft → Draft)

/-- A list item at a place. Only an item with text, and with the number one if it has a number, ends
a paragraph. -/
def itemStart? (line : Nat) (inParagraph : Bool) (c : Cursor) : Option Start :=
  let inner := c.skipBlanks
  match marker? inner.rest with
  | none => none
  | some (marker, width) =>
    let behind := inner.drop width
    let isGap := behind.rest.head?.all fun x => x == ' ' || x == '\t'
    let interrupts := !behind.isBlank && (match marker with
      | .bullet _ => true
      | .number start _ => start == 1)
    if isGap && (!inParagraph || interrupts) then
      let padding := markerPadding behind
      let indent := c.indent + width + padding
      let behind := if behind.isBlank then behind.skipBlanks else behind.skipColumns padding
      some (.container (fun d => openItem d line marker indent) behind)
    else none

/-- A block of its own at a place that is indented by less than four columns. -/
def leafStart? (number : Nat) (line : SourceLine) (inParagraph lazy : Bool) (c : Cursor) :
    Option Start :=
  let s := c.skipBlanks.rest
  match heading? s with
  | some (level, text) =>
    some (.leaf fun d => d.addBlock ⟨.heading level text, number, number, false⟩)
  | none =>
    match fence? s with
    | some (mark, length, info) =>
      some (.leaf fun d => d.openLeaf number (.fenced mark length c.indent info []))
    | none =>
      match htmlBlock? (inParagraph || lazy) s with
      | some stop =>
        let lines := [withEnd line c.rest]
        some (.leaf fun d =>
          let d := d.openLeaf number (.html stop lines)
          if stop.isIn s then d.closeLeaf else d)
      | none => none

/-- What a place in a line begins. -/
def start? (number : Nat) (line : SourceLine) (inParagraph lazy : Bool) (c : Cursor) :
    Option Start :=
  let inner := c.skipBlanks
  if c.isBlank then none
  else if 4 ≤ c.indent then
    if inParagraph || lazy then none
    else
      let text := withEnd line (c.skipColumns 4).rest
      some (.leaf fun d => d.openLeaf number (.indented [text] []))
  else if inner.rest.head? = some '>' then
    let behind := inner.drop 1
    let behind := if behind.indent = 0 then behind else behind.skipColumns 1
    some (.container (fun d => (leaveList d).openFrame number .quote) behind)
  else
    match leafStart? number line inParagraph lazy c with
    | some start => some start
    | none =>
      if isRule inner.rest then
        some (.leaf fun d => d.addBlock ⟨.rule, number, number, false⟩)
      else
        match itemStart? number inParagraph c with
        | some start => some start
        | none =>
          (footnote? inner.rest).map fun (label, width) =>
            .container (fun d => (leaveList d).openFrame number (.footnote label))
              (inner.drop width).skipBlanks

/-- Adds a line of text behind the blocks that it began. -/
def addText (d : Draft) (number : Nat) (c : Cursor) : Draft :=
  let text := c.skipBlanks.rest
  if text = [] then d.closeLeaf
  else
    match d.leaf with
    | .paragraph [header] =>
      match table? header text with
      | some alignments => d.extendLeaf number (.table alignments (rowCells header) [])
      | none => d.extendLeaf number (.paragraph [text, header])
    | .paragraph lines => d.extendLeaf number (.paragraph (text :: lines))
    | .table alignments header rows =>
      let row := fitCells alignments.length (rowCells text)
      d.extendLeaf number (.table alignments header (row :: rows))
    | _ => (leaveList d.closeLeaf).openLeaf number (.paragraph [text])

/-- Begins the blocks that stand at a place, where `kept` containers go on, and adds what is left of
the line. `lazy` says that a paragraph is open in a container that the line does not go on with. -/
def begin (number : Nat) (line : SourceLine) (kept : Nat) :
    Nat → Bool → Draft → Cursor → Draft
  | 0, _, d, _ => d
  | fuel + 1, lazy, d, c =>
    let inParagraph := !lazy && d.isParagraph
    match start? number line inParagraph lazy c with
    | some (.container open_ behind) =>
      let d := if d.frames.length = kept then d.closeLeaf else d.closeTo kept
      let d := open_ d
      begin number line d.frames.length fuel false d behind
    | some (.leaf open_) =>
      let d := if d.frames.length = kept then d.closeLeaf else d.closeTo kept
      open_ (leaveList d)
    | none =>
      if lazy && !c.isBlank then addText d number c
      else addText (if d.frames.length = kept then d else d.closeTo kept) number c

/-! ## Going on with the open block -/

/-- The draft behind a line that goes on with the open block or ends it by itself, where `c` is the
place behind the marks of all containers. -/
def goOn? (d : Draft) (number : Nat) (line : SourceLine) (c : Cursor) : Option Draft :=
  match d.leaf with
  | .fenced mark length indent info lines =>
    if c.indent ≤ 3 ∧ closesFence mark length c.skipBlanks.rest then
      some ({ d with leafLast := number }.closeLeaf)
    else
      let text := withEnd line (c.skipColumns (min indent c.indent)).rest
      some (d.extendLeaf number (.fenced mark length indent info (text :: lines)))
  | .html stop lines =>
    match stop, c.isBlank with
    | .blank, true => some d.closeLeaf
    | _, _ =>
      let d := d.extendLeaf number (.html stop (withEnd line c.rest :: lines))
      some (if stop.isIn c.rest then d.closeLeaf else d)
  | .indented lines blanks =>
    let text := withEnd line (c.skipColumns 4).rest
    if c.isBlank then some { d with leaf := .indented lines (text :: blanks) }
    else if 4 ≤ c.indent then
      some (d.extendLeaf number (.indented (text :: (blanks ++ lines)) []))
    else none
  | .paragraph lines =>
    if c.indent ≤ 3 then
      match underline? c.skipBlanks.rest with
      | none => none
      | some level =>
        let text := Draft.paragraphText lines
        let (_, rest) := definitions (text.length + 1) text
        if rest = [] then none
        else if lines.length = 1 ∧ (table? (lines.headD []) c.skipBlanks.rest).isSome then none
        else
          let found := (definitions (text.length + 1) text).1
          let d := { d with
            leaf := .none
            references := { d.references with links := d.references.links ++ found } }
          some (d.addBlock ⟨.heading level rest, d.leafFirst, number, false⟩)
    else none
  | _ => none

/-- Notes an empty line that goes on with the innermost container; one in a quote is the quote's. -/
def Draft.markQuote (d : Draft) (number : Nat) : Draft :=
  match d.leaf, d.frames with
  | .none, { kind := .quote, blocks, first, .. } :: rest =>
    { d with frames := { kind := .quote, blocks, first, lastMark := number } :: rest }
  | _, _ => d

/-- The draft behind one more line. -/
def addLine (d : Draft) (number : Nat) (line : SourceLine) : Draft :=
  let leafOpen := match d.leaf with
    | .none => false
    | _ => true
  let (kept, c) := continued leafOpen d.frames.reverse ⟨line.text, 0⟩
  let all := kept = d.frames.length
  let added :=
    match if all then goOn? d number line c else none with
    | some d => d
    | none =>
      let lazy := !all && d.isParagraph
      begin number line kept (line.text.length + 1) lazy d c
  if c.isBlank then added.markQuote number else added

/-- Cuts a text into lines at newlines of every kind. -/
def sourceLines (line : List Char) : List Char → List SourceLine
  | [] => if line = [] then [] else [⟨line.reverse, false⟩]
  | '\r' :: '\n' :: r => ⟨line.reverse, true⟩ :: sourceLines [] r
  | c :: r =>
    if c = '\n' ∨ c = '\r' then ⟨line.reverse, true⟩ :: sourceLines [] r
    else sourceLines (c :: line) r

/-- Reads lines, of which the first has the given number. -/
def readLines (number : Nat) (d : Draft) : List SourceLine → Draft
  | [] => d.closeTo 1
  | line :: rest => readLines (number + 1) (addLine d number line) rest

mutual

/-- The labels of the footnotes among blocks. -/
def footnoteLabels : List Block → List (List Char)
  | [] => []
  | block :: rest => footnotesOf block ++ footnoteLabels rest

/-- The labels of the footnotes that a block defines. -/
def footnotesOf : Block → List (List Char)
  | .footnote label inner => label :: footnoteLabels inner
  | .quote inner => footnoteLabels inner
  | .list _ _ items => footnoteLabels items
  | .item inner => footnoteLabels inner
  | _ => []

end

/-- The blocks of a document, and what its texts refer to. -/
def read (source : List Char) : List Block × References :=
  let d := readLines 1 {} (sourceLines [] source)
  let blocks := (d.frames.flatMap (·.blocks)).reverse.map Placed.block
  (blocks, { d.references with footnotes := footnoteLabels blocks })

end StaticSite.Markdown
