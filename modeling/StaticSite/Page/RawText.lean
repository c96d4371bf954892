import StaticSite.Page.Tag

/-!
# Raw text

The text of some elements is not markup but reaches to their end tag. A script's text may hide an
end tag between comment brackets: inside them a nested script tag hides the next end tag.
-/

namespace StaticSite.Page

/-- The text before the end tag of a name, and what stands from there. -/
def splitRaw (name : List Char) : List Char → List Char × List Char
  | [] => ([], [])
  | c :: r =>
    if c = '<' ∧ r.head? = some '/' ∧ beginsWithName name r.tail then ([], c :: r)
    else
      let (text, rest) := splitRaw name r
      (c :: text, rest)

/-- Where the text of a script stands: outside comment brackets, inside them, or inside a nested
script there. The number counts the hyphens just before, up to two. -/
inductive ScriptContext where
  | plain
  | commented (hyphens : Nat)
  | nested (hyphens : Nat)

/-- The name of the elements that hold scripts. -/
def scriptName : List Char :=
  ['s', 'c', 'r', 'i', 'p', 't']

namespace ScriptContext

/-- Whether the end tag of a script ends it here. -/
def mayEnd : ScriptContext → Bool
  | nested _ => false
  | _ => true

/-- The context behind one character, of which `rest` follows. -/
def next (context : ScriptContext) (c : Char) (rest : List Char) : ScriptContext :=
  match context with
  | plain => if c = '<' ∧ rest.take 3 = ['!', '-', '-'] then commented 0 else plain
  | commented n =>
    if c = '-' then commented (min 2 (n + 1))
    else if c = '>' ∧ n = 2 then plain
    else if c = '<' ∧ beginsWithName scriptName rest then nested 0
    else commented 0
  | nested n =>
    if c = '-' then nested (min 2 (n + 1))
    else if c = '>' ∧ n = 2 then plain
    else if c = '<' ∧ rest.head? = some '/' ∧ beginsWithName scriptName rest.tail then commented 0
    else nested 0

end ScriptContext

/-- The text of a script, and what stands from its end tag. -/
def splitScript (context : ScriptContext) : List Char → List Char × List Char
  | [] => ([], [])
  | c :: r =>
    if c = '<' ∧ context.mayEnd ∧ r.head? = some '/' ∧ beginsWithName scriptName r.tail then
      ([], c :: r)
    else
      let (text, rest) := splitScript (context.next c r) r
      (c :: text, rest)

theorem splitRaw_append (name s : List Char) : (splitRaw name s).1 ++ (splitRaw name s).2 = s := by
  induction s with
  | nil => rfl
  | cons c r ih =>
    unfold splitRaw
    split
    · rfl
    · simpa using ih

theorem splitScript_append (context : ScriptContext) (s : List Char) :
    (splitScript context s).1 ++ (splitScript context s).2 = s := by
  induction s generalizing context with
  | nil => rfl
  | cons c r ih =>
    unfold splitScript
    split
    · rfl
    · simpa using ih _

end StaticSite.Page
