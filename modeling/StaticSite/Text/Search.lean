/-!
# Searching and replacing

Occurrences of one text in another, read from the left and without overlap. The empty text occurs
before each character and at the end.
-/

namespace StaticSite.Text

/-- What is left of `s` behind `start`, if `s` begins with it. -/
def after? : List Char → List Char → Option (List Char)
  | [], s => some s
  | _ :: _, [] => none
  | x :: p, y :: s => if x = y then after? p s else none

/-- What stands before and behind the first occurrence of `p`. -/
def splitFirst (p : List Char) : List Char → Option (List Char × List Char)
  | [] => if p = [] then some ([], []) else none
  | c :: s =>
    match after? p (c :: s) with
    | some rest => some ([], rest)
    | none => (splitFirst p s).map fun (before, rest) => (c :: before, rest)

/-- Whether a text occurs in another one. -/
def occursIn (p s : List Char) : Bool :=
  (splitFirst p s).isSome

/-- The pieces of `s` between the occurrences of a text that is not empty. -/
def piecesBetween (p : List Char) : Nat → List Char → List (List Char)
  | 0, s => [s]
  | fuel + 1, s =>
    match splitFirst p s with
    | none => [s]
    | some (before, rest) => before :: piecesBetween p fuel rest

/-- Splits `s` at the occurrences of `p`, and into characters if `p` is empty. -/
def splitAt (p s : List Char) : List (List Char) :=
  if p = [] then s.map ([·]) else piecesBetween p s.length s

/-- Replaces the first occurrence of a text. -/
def replaceFirst (p with_ s : List Char) : List Char :=
  match splitFirst p s with
  | none => s
  | some (before, rest) => before ++ with_ ++ rest

/-- Replaces all occurrences of a text; the empty one occurs around every character. -/
def replaceAll (p with_ s : List Char) : List Char :=
  if p = [] then with_ ++ s.flatMap fun c => c :: with_
  else with_.intercalate (piecesBetween p s.length s)

theorem after?_eq_some_iff {p s rest : List Char} : after? p s = some rest ↔ s = p ++ rest := by
  fun_induction after? p s with
  | case1 s => simp [eq_comm]
  | case2 => simp
  | case3 p y s ih => simp [ih]
  | case4 x p y s h => simp [h, eq_comm]

theorem eq_of_splitFirst {p s before rest : List Char} (h : splitFirst p s = some (before, rest)) :
    s = before ++ p ++ rest := by
  fun_induction splitFirst p s generalizing before with
  | case1 hp => cases h; simp [hp]
  | case2 => cases h
  | case3 c s r hr => cases h; simpa using after?_eq_some_iff.1 hr
  | case4 c s _ ih =>
    obtain ⟨⟨b, r⟩, hb, he⟩ := Option.map_eq_some_iff.1 h
    cases he
    rw [ih hb]
    rfl

end StaticSite.Text
