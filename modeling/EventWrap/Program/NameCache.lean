import EventWrap.Program.Basic

/-!
# Remembered names

Qualified names that were asked for once are kept. A name is made from the remembered name of the
type around it, so that siblings share the work.
-/

namespace EventWrap

/-- Places and their qualified names, the latest first. -/
abbrev NameCache := List (TypeId × String)

namespace NameCache

/-- The qualified name of a type, looked up or made within a number of levels and then kept. -/
def nameWithin (p : Program) : Nat → TypeId → NameCache → String × NameCache
  | 0, _, cache => ("", cache)
  | levels + 1, id, cache =>
    match cache.lookup id with
    | some name => (name, cache)
    | none =>
      let d := p.declaration id
      match d.container with
      | some outer =>
        let (outerName, cache) := nameWithin p levels outer cache
        let name := outerName ++ "." ++ d.name
        (name, (id, name) :: cache)
      | none =>
        let name := qualify d.namespaceName d.name
        (name, (id, name) :: cache)

def qualifiedName (p : Program) (id : TypeId) (cache : NameCache) : String × NameCache :=
  nameWithin p (id + 1) id cache

/-- The names of several types, each asked for in turn. -/
def qualifiedNames (p : Program) : List TypeId → NameCache → List String × NameCache
  | [], cache => ([], cache)
  | id :: rest, cache =>
    let (name, cache) := qualifiedName p id cache
    let (names, cache) := qualifiedNames p rest cache
    (name :: names, cache)

end NameCache

/-- Every type of a program with its metadata name and its qualified name. -/
def Program.names (p : Program) : List (String × String) :=
  let ids := List.range p.size
  (ids.map p.metadataName).zip (NameCache.qualifiedNames p ids []).1

end EventWrap
