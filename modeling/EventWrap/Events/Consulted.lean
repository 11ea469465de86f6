import EventWrap.Events.Collected

/-!
# Delegates consulted

Which delegates have their signature looked up, and in which order, while events are collected. A
program whose metadata is damaged fails at the first consulted delegate that cannot be read.
-/

namespace EventWrap.Program

/-- The delegates consulted for events that are candidates. -/
def consultedFor (isStatic : Bool) (events : List SeenEvent) : List TypeRef :=
  (events.filter fun e => isCandidate isStatic e.event).map (·.delegate)

/-- The entries up to the first one of a kind, that one included. -/
def throughFirst {α : Type} (found : α → Bool) : List α → List α
  | [] => []
  | a :: rest => if found a then [a] else a :: throughFirst found rest

/-- The delegates consulted to find out whether a type declares an eligible event. -/
def consultedByEligibility (p : Program) (id : TypeId) (isStatic : Bool) : List TypeRef :=
  let events := (p.distinctEvents id).map fun e => (⟨id, e, e.delegate⟩ : SeenEvent)
  consultedFor isStatic
    (throughFirst (fun e => (p.describe? isStatic id e.event e.delegate).isSome) events)

def consultedByAncestry (p : Program) (id : TypeId) (isStatic : Bool) : List TypeRef :=
  (p.baseChain id).flatMap fun base => p.consultedByEligibility base.1 isStatic

/-- The delegates consulted by collecting, the walk over the ancestors first. -/
def consultedByCollecting (p : Program) (id : TypeId) (inherited isStatic : Bool) : List TypeRef :=
  (if inherited then p.consultedByAncestry id isStatic else []) ++
    consultedFor isStatic (p.visibleEvents id inherited isStatic)

end EventWrap.Program
