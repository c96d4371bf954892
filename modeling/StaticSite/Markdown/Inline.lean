import StaticSite.Markdown.Link
import StaticSite.Text.Punctuation

/-!
# Running text

Text is read from left to right. Code, mathematics, references and HTML are taken as they come;
brackets and runs of emphasis marks are kept until it is known what they belong to.
-/

namespace StaticSite.Markdown

/-- What was read of a text. A run of marks keeps how many of them are left and how many it had as a
whole, a bracket what stood behind it. -/
inductive Token where
  | node (i : Inline)
  | run (mark : Char) (count whole : Nat) (opens closes : Bool)
  | bracket (isImage isActive : Bool) (following : List Char)

/-- A token that belongs to nothing is text. -/
def Token.plain : Token → Inline
  | node i => i
  | run mark count _ _ _ => .text (List.replicate count mark)
  | bracket isImage _ _ => .text (if isImage then ['!', '['] else ['['])

/-! ## Emphasis -/

/-- Whether a character counts as punctuation beside a run of emphasis marks. -/
def isPunctuationMark (c : Char) : Bool :=
  isMark c || Text.isPunctuation c

/-- Whether marks of this kind may stand inside a word. -/
def worksInWord (mark : Char) (count : Nat) : Bool :=
  mark == '*' || (mark == '~' && 1 < count)

/-- Whether a run of marks may open emphasis between two characters. -/
def mayOpen (mark : Char) (count : Nat) (before after : Option Char) : Bool :=
  match after with
  | none => false
  | some next =>
    if Text.isBlank next then false
    else
      match before with
      | none => true
      | some last =>
        (mark == '*' && !isPunctuationMark next) || (mark == '~' && 1 < count) ||
          (mark == '~' && last == '~' && !isPunctuationMark next) ||
          Text.isBlank last || isPunctuationMark last

/-- Whether a run of marks may close emphasis between two characters. -/
def mayClose (mark : Char) (count : Nat) (before after : Option Char) : Bool :=
  match before with
  | none => false
  | some last =>
    if Text.isBlank last then false
    else
      match after with
      | none => true
      | some next =>
        (worksInWord mark count && !isPunctuationMark last) || (mark == '~' && last == '~') ||
          Text.isBlank next || isPunctuationMark next

/-- A run that may open what a later one closes, with what stands behind and before it. -/
structure Opener where
  inner : List Token
  count : Nat
  whole : Nat
  closes : Bool
  before : List Token

/-- Whether a closing run fits an opening one. Runs of which one could do both do not fit when their
lengths add up to a multiple of three, unless both are multiples of three. -/
def fits (mark : Char) (whole : Nat) (opens : Bool) (opener : Opener) : Bool :=
  if mark = '~' then opener.whole == whole
  else !((opens || opener.closes) && (whole + opener.whole) % 3 == 0 && whole % 3 != 0)

/-- The nearest run that a run closes; `passed` holds what stands behind it, in order. -/
def findOpener (mark : Char) (whole : Nat) (opens : Bool) (passed : List Token) :
    List Token → Option Opener
  | [] => none
  | .run m count o true closes :: before =>
    let opener : Opener := ⟨passed, count, o, closes, before⟩
    if m = mark ∧ fits mark whole opens opener then some opener
    else findOpener mark whole opens (.run m count o true closes :: passed) before
  | token :: before => findOpener mark whole opens (token :: passed) before

/-- Running text between emphasis marks, of which one or two are used up on each side. -/
def wrap (mark : Char) (used : Nat) (inner : List Inline) : Inline :=
  if mark = '~' then .strike inner
  else if used = 2 then .strong inner
  else .emphasis inner

/-- The marks of two runs that belong together. -/
def usedMarks (mark : Char) (opening closing : Nat) : Nat :=
  if mark = '~' then closing else if 2 ≤ opening ∧ 2 ≤ closing then 2 else 1

/-- Gives the runs of emphasis marks their meaning; `done` holds what was passed in reverse. -/
def resolveRuns : Nat → List Token → List Token → List Inline
  | 0, done, rest => done.reverse.map Token.plain ++ rest.map Token.plain
  | _ + 1, done, [] => done.reverse.map Token.plain
  | fuel + 1, done, .run mark count whole opens closes :: rest =>
    let run := Token.run mark count whole opens closes
    match if closes then findOpener mark whole opens [] done else none with
    | none => resolveRuns fuel ((if opens then run else .node run.plain) :: done) rest
    | some opener =>
      let used := usedMarks mark opener.count count
      let left :=
        if used < opener.count then
          [Token.run mark (opener.count - used) opener.whole true opener.closes]
        else []
      let more := if used < count then [Token.run mark (count - used) whole opens closes] else []
      let node := Token.node (wrap mark used (opener.inner.map Token.plain))
      resolveRuns fuel (node :: (left ++ opener.before)) (more ++ rest)
  | fuel + 1, done, token :: rest => resolveRuns fuel (token :: done) rest

/-- The steps that a token may take: a run may lose its marks one by one. -/
def Token.steps : Token → Nat
  | run _ count _ _ _ => count + 1
  | _ => 1

/-- The steps in which the runs of a list are resolved. -/
def runSteps (tokens : List Token) : Nat :=
  tokens.foldr (fun token n => token.steps + n) 1

/-- Running text, once its runs of emphasis marks have their meaning. -/
def resolve (tokens : List Token) : List Inline :=
  resolveRuns (runSteps tokens) [] tokens

/-! ## Code and mathematics -/

/-- What stands before the first run of exactly `count` backticks, and behind it. -/
def splitTicks (count : Nat) : Nat → List Char → Option (List Char × List Char)
  | 0, _ => none
  | _ + 1, [] => none
  | fuel + 1, '\x60' :: r =>
    let ticks := ('\x60' :: r).takeWhile (· == '\x60')
    let rest := ('\x60' :: r).drop ticks.length
    if ticks.length = count then some ([], rest)
    else (splitTicks count fuel rest).map fun (s, rest) => (ticks ++ s, rest)
  | fuel + 1, c :: r => (splitTicks count fuel r).map fun (s, rest) => (c :: s, rest)

/-- The text of a code span: newlines are spaces, and one space at both ends is dropped. -/
def codeText (s : List Char) : List Char :=
  let s := s.map fun c => if c = '\n' then ' ' else c
  if s.head? = some ' ' ∧ s.getLast? = some ' ' ∧ s.any (· != ' ') then s.tail.dropLast else s

/-- What stands before the next dollar sign outside further braces, and behind it. A brace that
closes one of the `outer` braces ends the search. -/
def splitDollar (outer braces : Nat) : List Char → Option (List Char × List Char)
  | [] => none
  | '\\' :: c :: r =>
    if isMark c then (splitDollar outer braces r).map fun (t, rest) => ('\\' :: c :: t, rest)
    else (splitDollar outer braces (c :: r)).map fun (t, rest) => ('\\' :: t, rest)
  | c :: r =>
    if c = '$' ∧ braces = 0 then some ([], r)
    else if c = '\x7d' ∧ braces = 0 ∧ outer ≠ 0 then none
    else
      let braces := if c = '\x7b' then braces + 1 else if c = '\x7d' then braces - 1 else braces
      (splitDollar outer braces r).map fun (t, rest) => (c :: t, rest)
termination_by s => s.length

/-- Mathematics behind its first dollar sign, and what stands behind it. -/
def math? (outer : Nat) (s : List Char) : Option (Inline × List Char) :=
  match s with
  | [] => none
  | '$' :: r =>
    match splitDollar outer 0 r with
    | some (tex, '$' :: rest) => if tex = [] then none else some (.math true tex, rest)
    | _ => none
  | c :: _ =>
    if isGap c then none
    else
      match splitDollar outer 0 s with
      | some (tex, rest) => if tex.getLast?.all isGap then none else some (.math false tex, rest)
      | none => none

/-! ## Brackets -/

/-- The nearest bracket that is open, with what stands behind it in order, and before it. -/
def findBracket (passed : List Token) :
    List Token → Option (Bool × Bool × List Char × List Token × List Token)
  | [] => none
  | .bracket isImage isActive following :: before =>
    some (isImage, isActive, following, passed, before)
  | token :: before => findBracket (token :: passed) before

/-- Inside the text of a link there is no other link. -/
def deactivate : Token → Token
  | .bracket false _ following => .bracket false false following
  | token => token

/-- Where the text before a closing bracket leads, of which `source` is the text and `s` follows. -/
def targetOf? (refs : References) (source s : List Char) : Option (Target × List Char) :=
  let direct := match s with
    | '(' :: r => inlineTarget? r
    | _ => none
  direct.or <|
    match s with
    | '[' :: r =>
      match label? labelLimit r with
      | some (label, rest) =>
        let label := if Text.trim label = [] then source else label
        (refs.link? label).map fun target => (target, rest)
      | none => shortcut s
    | _ => shortcut s
where
  /-- The text itself is the label. -/
  shortcut (s : List Char) : Option (Target × List Char) :=
    if (label? labelLimit (source ++ [']'])).any fun (_, rest) => rest.isEmpty then
      (refs.link? source).map fun target => (target, s)
    else none

/-- A closing bracket, of which `s` follows: the tokens read so far in reverse, and what is left. -/
def closeBracket (refs : References) (tokens : List Token) (s : List Char) :
    List Token × List Char :=
  let close := Token.node (.text [']'])
  match findBracket [] tokens with
  | none => (close :: tokens, s)
  | some (isImage, isActive, following, inner, before) =>
    let source := following.take (following.length - (s.length + 1))
    let bang := if isImage then [Token.node (.text ['!'])] else []
    let mark := Token.node (Token.bracket isImage isActive following).plain
    let kept := close :: (inner.reverse ++ mark :: before)
    match source with
    | '^' :: label =>
      if refs.hasFootnote label then (.node (.footnote label) :: (bang ++ before), s) else (kept, s)
    | _ =>
      if !isActive then (kept, s)
      else
        match targetOf? refs source s with
        | none => (kept, s)
        | some (target, rest) =>
          if isImage then
            (.node (.image target.address target.title (resolve inner)) :: before, rest)
          else
            (.node (.link target.address target.title (resolve inner)) :: before.map deactivate,
              rest)

/-! ## Reading -/

/-- The characters that may mean something in running text. -/
def isSpecial (c : Char) : Bool :=
  "\\\n\x60$*_~[]!<& \x7b\x7d".toList.contains c

/-- What a `<` begins, of which `s` follows. -/
def angle? (s : List Char) : Option (Inline × List Char) :=
  match address? s with
  | some (address, rest) => some (.link address [] [.text address], rest)
  | none =>
    match mail? s with
    | some (mail, rest) =>
      some (.link ("mailto:".toList ++ mail) [] [.text mail], rest)
    | none => (afterHtml? s).map fun rest => (.html ('<' :: s.take (s.length - rest.length)), rest)

/-- The last character that was read when `rest` is left of `s`. -/
def lastRead (s rest : List Char) : Option Char :=
  (s.take (s.length - rest.length)).getLast?

/-- Reads the rest of a text behind the character `last`, where `braces` are open; `tokens` holds
what was read in reverse. -/
def readTokens (refs : References) :
    Nat → Nat → Option Char → List Token → List Char → List Token
  | 0, _, _, tokens, _ => tokens
  | _ + 1, _, _, tokens, [] => tokens
  | fuel + 1, braces, last, tokens, c :: r =>
    let take (i : Inline) (rest : List Char) :=
      readTokens refs fuel braces (lastRead (c :: r) rest) (.node i :: tokens) rest
    let literal := take (.text [c])
    match c with
    | '\\' =>
      match r with
      | '\n' :: rest => take .hardBreak rest
      | m :: rest => if isMark m then take (.text [m]) rest else literal r
      | [] => literal r
    | '\n' => take .softBreak r
    | ' ' =>
      let spaces := (c :: r).takeWhile (· == ' ')
      match (c :: r).drop spaces.length with
      | '\n' :: rest => take (if 2 ≤ spaces.length then .hardBreak else .softBreak) rest
      | rest => take (.text spaces) rest
    | '\x60' =>
      let ticks := (c :: r).takeWhile (· == '\x60')
      let rest := (c :: r).drop ticks.length
      match splitTicks ticks.length (rest.length + 1) rest with
      | some (s, rest) => take (.code (codeText s)) rest
      | none => take (.text ticks) rest
    | '$' =>
      match math? braces r with
      | some (i, rest) => take i rest
      | none => literal r
    | '[' => readTokens refs fuel braces (some c) (.bracket false true r :: tokens) r
    | '!' =>
      match r with
      | '[' :: rest =>
        readTokens refs fuel braces (some '[') (.bracket true true rest :: tokens) rest
      | _ => literal r
    | ']' =>
      let (tokens, rest) := closeBracket refs tokens r
      readTokens refs fuel braces (lastRead (c :: r) rest) tokens rest
    | '<' =>
      match angle? r with
      | some (i, rest) => take i rest
      | none => literal r
    | '&' =>
      match reference? r with
      | some (cs, rest) => take (.text cs) rest
      | none => literal r
    | _ =>
      if c = '*' ∨ c = '_' ∨ c = '~' then
        let count := ((c :: r).takeWhile (· == c)).length
        let rest := (c :: r).drop count
        let opens := mayOpen c count last rest.head?
        let closes := mayClose c count last rest.head?
        let isRun := c ≠ '~' ∨ count ≤ 2
        let token : Token :=
          if isRun then .run c count count opens closes else .node (.text (List.replicate count c))
        readTokens refs fuel braces (some c) (token :: tokens) rest
      else if c = '\x7b' then
        readTokens refs fuel (braces + 1) (some c) (.node (.text [c]) :: tokens) r
      else if c = '\x7d' then
        readTokens refs fuel (braces - 1) (some c) (.node (.text [c]) :: tokens) r
      else
        let plain := c :: r.takeWhile (!isSpecial ·)
        take (.text plain) ((c :: r).drop plain.length)

/-- The parts of a text. -/
def inlines (refs : References) (source : List Char) : List Inline :=
  resolve (readTokens refs (source.length + 1) 0 none [] source).reverse

end StaticSite.Markdown
