/-!
# Sorting by name
-/

namespace EventWrap

/-- A list in the order of the names of its entries. Entries of one name keep their order. -/
def sortedBy {α : Type} (name : α → String) (l : List α) : List α :=
  l.mergeSort fun a b => decide (name a ≤ name b)

end EventWrap
