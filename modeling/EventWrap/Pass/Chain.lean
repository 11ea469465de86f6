import EventWrap.Events.Consulted
import EventWrap.Pass.Request
import EventWrap.Wrapper.Synthesis

/-!
# Chains of wrappers

The wrappers that answer a request. An instance request is answered by a chain: wrappers for the
ancestors with events, the root first, and then for the type itself, leaving out the links that have
one already. A static request is answered by one wrapper.
-/

namespace EventWrap

/-- The types that have an instance wrapper, with what it exposes. -/
abbrev Exposure := List (TypeId × List String)

namespace Program

variable (p : Program) (s : Settings)

/-- The parent of a type's wrapper: that of the nearest ancestor with events. -/
def parentWrapper? (known : Exposure) (id : TypeId) : Option ParentWrapper :=
  (p.ancestorsWithEvents id false).head?.map fun (ancestor, arguments) =>
    { type := ancestor, arguments := arguments, exposed := (known.lookup ancestor).getD [] }

/-- The wrapper of a link. It may be empty where it hands on what its parent offers. -/
def linkWrapper? (known : Exposure) (id : TypeId) : Option Wrapper :=
  let parent := p.parentWrapper? known id
  p.synthesize s
    { events := p.collect id false false, mode := .ofInstance, parent := parent, evenEmpty := parent.isSome }

/-- The links of an instance request, the root first. -/
def links (id : TypeId) : List TypeId := (p.ancestorsWithEvents id false).reverse.map (·.1) ++ [id]

/-- Wrappers for those links that have none yet. -/
def linkWrappers : Exposure → List TypeId → List Wrapper
  | _, [] => []
  | known, link :: rest =>
    if (known.lookup link).isSome then linkWrappers known rest
    else match p.linkWrapper? s known link with
      | some w => w :: linkWrappers ((link, w.exposed) :: known) rest
      | none => linkWrappers known rest

/-- The wrappers that an instance request still needs, or nothing where no event can be offered. -/
def instanceWrappers? (known : Exposure) (id : TypeId) : Option (List Wrapper) :=
  if (p.collect id false false).isEmpty && (p.ancestorsWithEvents id false).isEmpty then none
  else some (p.linkWrappers s known (p.links id))

def staticWrapper? (id : TypeId) : Option Wrapper :=
  p.synthesize s { events := p.collect id true true, mode := .ofStatics }

def wrappersFor? (known : Exposure) (r : Request) : Option (List Wrapper) :=
  match r.mode with
  | .ofInstance => p.instanceWrappers? s known r.type
  | .ofStatics => (p.staticWrapper? s r.type).map ([·])

/-! ## Damage -/

/-- The delegates consulted for a request, in order. -/
def consultedFor? (known : Exposure) (r : Request) : List TypeRef :=
  match r.mode with
  | .ofStatics => p.consultedByCollecting r.type true true
  | .ofInstance =>
    let missing := (p.links r.type).filter fun link => (known.lookup link).isNone
    p.consultedByAncestry r.type false ++ p.consultedByCollecting r.type false false ++
      missing.flatMap fun link =>
        (if link = r.type then [] else p.consultedByCollecting link false false) ++
          p.consultedByAncestry link false

end Program

/-- What is said of delegates whose signature cannot be read. -/
abbrev Damage := TypeId → Option String

namespace Damage

/-- What is said of the delegate that a reference names, through one nullable mark. -/
def of? (damage : Damage) (delegate : TypeRef) : Option String :=
  delegate.stripNullable.namedType?.bind damage

/-- What stops the answer to a request: the first consulted delegate that cannot be read. -/
def stopping? (damage : Damage) (p : Program) (known : Exposure) (r : Request) : Option String :=
  (p.consultedFor? known r).findSome? damage.of?

end Damage

end EventWrap
