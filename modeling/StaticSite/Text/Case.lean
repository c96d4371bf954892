import StaticSite.Text.CaseTables

/-!
# Upper and lower case

Full case mapping of text: a character may become several. A capital sigma is lowered to its final
form when a cased letter stands before it and none after it, marks and the like apart.
-/

namespace StaticSite.Text

/-- The code point that the first matching run moves `n` to, or `n` itself. -/
def CaseRun.move (runs : List CaseRun) (n : Nat) : Nat :=
  match runs.find? fun r => r.first ≤ n && n ≤ r.last && (n - r.first) % r.step == 0 with
  | some r => (n + r.shift).toNat
  | none => n

/-- The mapped form of one character, by the sequences first and then by the runs. -/
def mapCase (sequences : List (Nat × List Nat)) (runs : List CaseRun) (c : Char) : List Char :=
  match sequences.lookup c.toNat with
  | some cs => cs.map Char.ofNat
  | none => [Char.ofNat (CaseRun.move runs c.toNat)]

/-- A character in upper case. -/
def upperChar (c : Char) : List Char :=
  if c.toNat < 128 then [c.toUpper] else mapCase upperSequences upperRuns c

/-- A character in lower case, wherever it stands. -/
def lowerChar (c : Char) : List Char :=
  if c.toNat < 128 then [c.toLower] else mapCase lowerSequences lowerRuns c

/-- Whether a character is a letter with cases. -/
def isCased (c : Char) : Bool :=
  casedRanges.has c

/-- Whether a character is passed over when the end of a word is looked for. -/
def isCaseIgnorable (c : Char) : Bool :=
  caseIgnorableRanges.has c

/-- Whether the first character that counts is cased. -/
def meetsCased (s : List Char) : Bool :=
  ((s.dropWhile isCaseIgnorable).head?.map isCased).getD false

/-- A text in upper case. -/
def upper (s : List Char) : List Char :=
  s.flatMap upperChar

/-- Lowers the rest of a text, given what stands before it in reverse. -/
def lowerFrom (before : List Char) : List Char → List Char
  | [] => []
  | c :: rest =>
    (if c == 'Σ' then
      [if meetsCased before && !meetsCased rest then 'ς' else 'σ']
    else lowerChar c) ++ lowerFrom (c :: before) rest

/-- A text in lower case. -/
def lower (s : List Char) : List Char :=
  lowerFrom [] s

@[simp]
theorem upper_nil : upper [] = [] := rfl

/-- Lower-cases the ASCII letters and leaves the rest. -/
def lowerAscii (s : List Char) : List Char :=
  s.map Char.toLower

end StaticSite.Text
