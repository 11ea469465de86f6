import EventWrap.Events.Ancestry
import EventWrap.Sorting

/-!
# Collected events

The eligible events of a type and, when asked for, of its ancestors, in the order of their names.
Names are taken from the most derived type upward: the first declaration of a name hides all later
ones, whether or not it is eligible itself.
-/

namespace EventWrap

/-- A type with its eligible events, by name. -/
structure TypeEvents where
  type : TypeId
  events : List EventDescriptor
  deriving Inhabited

namespace TypeEvents

def names (t : TypeEvents) : List String := t.events.map (·.name)

def isEmpty (t : TypeEvents) : Bool := t.events.isEmpty

def get? (t : TypeEvents) (name : String) : Option EventDescriptor := t.events.find? (·.name == name)

end TypeEvents

namespace Program

/-- An event declaration with the type that declares it and its delegate as seen from below. -/
structure SeenEvent where
  declaringType : TypeId
  event : EventDeclaration
  delegate : TypeRef

/-- The events of a constructed type. -/
def eventsSeen (p : Program) (type : Constructed) : List SeenEvent :=
  let d := p.declaration type.1
  d.events.map fun e => ⟨type.1, e, e.delegate.substitute d.parameterNames type.2⟩

/-- A type and, when asked for, its ancestors with events. -/
def collectedTypes (p : Program) (id : TypeId) (inherited isStatic : Bool) : List Constructed :=
  (id, (p.declaration id).ownArguments) :: if inherited then p.ancestorsWithEvents id isStatic else []

/-- The first declaration of every name, most derived type first. -/
def visibleEvents (p : Program) (id : TypeId) (inherited isStatic : Bool) : List SeenEvent :=
  Occurrence.firsts (·.event.name) [] ((p.collectedTypes id inherited isStatic).flatMap p.eventsSeen)

def collect (p : Program) (id : TypeId) (inherited isStatic : Bool) : TypeEvents where
  type := id
  events := sortedBy (·.name) ((p.visibleEvents id inherited isStatic).filterMap fun e =>
    p.describe? isStatic e.declaringType e.event e.delegate)

end Program

end EventWrap
