/-!
# Sorting

Lists are sorted by insertion. Items of which each may stand before the other one keep their order.
-/

namespace StaticSite

variable {α : Type}

/-- Puts an item before the first one that it may stand before. -/
def insertSorted (before : α → α → Bool) (a : α) : List α → List α
  | [] => [a]
  | b :: rest => if before a b then a :: b :: rest else b :: insertSorted before a rest

/-- Sorts items by insertion; of items that may stand either way the earlier one comes first. -/
def sortBy (before : α → α → Bool) (items : List α) : List α :=
  items.foldr (insertSorted before) []

end StaticSite
