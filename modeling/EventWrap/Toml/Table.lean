import EventWrap.Json.Value

/-!
# Tables of TOML

A document is a table of values and of further tables. A table comes from a header of its own, lies
on the way to one, or is made by a key with points. `Table.openHeader` and `Table.define` say what a
header and an entry do to a document: a key is defined once, a table gets one header at most, and
a table that has one is not reached by a key with points.
-/

namespace EventWrap.Toml

/-- How a table came to be. -/
inductive Origin where
  | header
  /-- It lies on the way to a table with a header. -/
  | passage
  | dottedKey
  deriving DecidableEq, Inhabited

/-- What a key stands for. -/
inductive Node where
  | value (j : Json)
  | table (origin : Origin) (entries : List (String × Node))
  deriving Inhabited

structure Table where
  origin : Origin := .header
  entries : List (String × Node) := []
  deriving Inhabited

namespace Table

/-- The entries with a key set, in place of what it stood for. -/
def set (entries : List (String × Node)) (key : String) (node : Node) : List (String × Node) :=
  match entries with
  | [] => [(key, node)]
  | (k, n) :: rest => if k = key then (key, node) :: rest else (k, n) :: set rest key node

/-- Changes the table at the end of a path. Tables that are missing on the way are made with an
origin, and tables that are there have to let it through. -/
def change (made : Origin) (passable : Origin → Bool) (act : Table → Option Table) :
    List String → Table → Option Table
  | [], t => act t
  | key :: rest, t => do
    let inner : Table ← match t.entries.lookup key with
      | none => some { origin := made }
      | some (.value _) => none
      | some (.table origin entries) => if passable origin then some { origin, entries } else none
    let inner ← change made passable act rest inner
    return { t with entries := set t.entries key (.table inner.origin inner.entries) }

/-- Changes the table at the end of a path of headers. -/
def changeAt (path : List String) (act : Table → Option Table) (t : Table) : Option Table :=
  change .passage (fun _ => true) act path t

/-- A document after a header. -/
def openHeader (path : List String) (t : Table) : Option Table := do
  let key ← path.getLast?
  t.changeAt path.dropLast fun above => do
    let entries ← match above.entries.lookup key with
      | none => some []
      | some (.table .passage entries) => some entries
      | some _ => none
    return { above with entries := set above.entries key (.table .header entries) }

/-- A table after an entry with a key of several parts. -/
def define (path : List String) (value : Json) (t : Table) : Option Table := do
  let key ← path.getLast?
  let act (above : Table) : Option Table :=
    let mixed := decide (above.origin = .dottedKey) == path.dropLast.isEmpty
    if mixed || (above.entries.lookup key).isSome then none
    else some { above with entries := set above.entries key (.value value) }
  change .dottedKey (· ≠ .header) act path.dropLast t

mutual

def nodeJson : Node → Json
  | .value j => j
  | .table _ entries => .obj (entriesJson entries)

def entriesJson : List (String × Node) → List (Option String × Json)
  | [] => []
  | (key, node) :: rest => (some key, nodeJson node) :: entriesJson rest

end

def toJson (t : Table) : Json := .obj (entriesJson t.entries)

end Table

end EventWrap.Toml
