/-!
# Free names

A name that does not clash with given ones: the preferred name itself, or with the smallest number
from one behind it that makes it free.
-/

namespace EventWrap

/-- The numbered forms of a name, one more than there are taken names. -/
def numberedNames (base : String) (taken : List String) : List String :=
  (List.range (taken.length + 1)).map fun n => base ++ toString (n + 1)

/-- Of the numbered forms one is always free, so the last alternative is never used. -/
def freeName (base : String) (taken : List String) : String :=
  if base ∈ taken then ((numberedNames base taken).find? (· ∉ taken)).getD base else base

end EventWrap
