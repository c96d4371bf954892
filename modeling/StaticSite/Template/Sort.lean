/-!
# Sorting by a computation

A stable sort whose comparison may fail and have effects. Up to twenty items are inserted one by one
from the right; longer lists are sorted in halves, which are merged.
-/

namespace StaticSite.Template

variable {α : Type} {m : Type → Type} [Monad m]

/-- Inserts an item into a sorted list that is held in reverse, comparing from its end. -/
def insertBack (less : α → α → m Bool) (x : α) : List α → m (List α)
  | [] => return [x]
  | y :: rest => do
    if ← less x y then return y :: (← insertBack less x rest)
    else return x :: y :: rest

/-- Inserts items one by one into a sorted list that is held in reverse. -/
def insertAll (less : α → α → m Bool) : List α → List α → m (List α)
  | sorted, [] => return sorted
  | sorted, x :: rest => do insertAll less (← insertBack less x sorted) rest

/-- Merges two sorted lists; of equal items the left one comes first. -/
def mergeBy (less : α → α → m Bool) : Nat → List α → List α → m (List α)
  | 0, xs, ys => return xs ++ ys
  | _, [], ys => return ys
  | _, xs, [] => return xs
  | fuel + 1, x :: xs, y :: ys => do
    if ← less y x then return y :: (← mergeBy less fuel (x :: xs) ys)
    else return x :: (← mergeBy less fuel xs (y :: ys))

/-- The length up to which items are inserted one by one. -/
def insertionLimit : Nat := 20

/-- Sorts a list of at most as many items as there is fuel. -/
def sortWithin (less : α → α → m Bool) : Nat → List α → m (List α)
  | 0, xs => return xs
  | fuel + 1, xs => do
    if xs.length ≤ insertionLimit then
      return (← insertAll less [] xs).reverse
    else
      let half := xs.length / 2
      let left ← sortWithin less fuel (xs.take half)
      let right ← sortWithin less fuel (xs.drop half)
      mergeBy less xs.length left right

/-- Sorts a list by a computed comparison, which is expected to answer as a total order does. Where
the answers are those of no total order, the standard sort may also give up with a panic. That is
left out: here it always ends, with the items in some order. -/
def sortBy (less : α → α → m Bool) (xs : List α) : m (List α) :=
  sortWithin less (xs.length + 1) xs

end StaticSite.Template
