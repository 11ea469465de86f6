import EventWrap.Command.Help
import EventWrap.Generator

/-!
# Inspecting a program

The requests of a program with the events that each of them exposes, inherited ones included.
-/

namespace EventWrap

open Json

structure InspectedEvent where
  name : String
  declaredBy : String
  shape : ArgumentShape
  element : String
  obsolescence : Option String
  deriving DecidableEq, Inhabited

structure InspectedRequest where
  typeName : String
  mode : WrapperMode
  location : Location
  events : List InspectedEvent
  deriving DecidableEq, Inhabited

structure Inspection where
  path : String
  requests : List InspectedRequest
  duplicates : Nat
  deriving DecidableEq, Inhabited

/-! ## Inspecting -/

namespace Program

variable (p : Program) (s : Settings)

def inspectEvent (e : EventDescriptor) : InspectedEvent :=
  let shape := p.classify e.signature s.collapsePlainEventArgs
  { name := e.name
    declaredBy := p.qualifiedName e.declaringType
    shape := shape.shape
    element := p.elementText s.reactive shape.element
    obsolescence := e.obsolescence.map (·.message) }

/-- All events that a request exposes. -/
def inspectedEvents (r : Request) : TypeEvents := p.collect r.type true r.mode.isStatic

def inspectRequest (r : Request) : InspectedRequest where
  typeName := p.qualifiedName r.type
  mode := r.mode
  location := r.location
  events := (p.inspectedEvents r).events.map (p.inspectEvent s)

/-- Whether a request is for a type of the given name, simple or qualified. -/
def isNamed (name : String) (r : Request) : Bool :=
  name == p.qualifiedName r.type || name == (p.declaration r.type).name

/-- The inspection of a program, of all requests or of those for types of a name. -/
def inspect (path : String) (typeName : Option String) : Except PassError Inspection := do
  let requests ← p.discover s
  let shown := match typeName with
    | some name => requests.toList.filter (p.isNamed name)
    | none => requests.toList
  return { path := path, requests := shown.map (p.inspectRequest s), duplicates := requests.repeated.length }

end Program

/-! ## Showing -/

namespace InspectedEvent

def toJson (e : InspectedEvent) : Json :=
  record ([("name", text e.name), ("declared_by", text e.declaredBy), ("shape", text e.shape.word),
    ("element", text e.element)] ++ match e.obsolescence with
      | some message => [("obsolete", text message)]
      | none => [])

/-- The line of an event; a declaring type other than the requested one is told. -/
def toText (typeName : String) (e : InspectedEvent) : String :=
  "  " ++ Command.HelpEntry.padded 24 e.name ++ " " ++ Command.HelpEntry.padded 12 e.shape.toText ++ " " ++ e.element ++
    (if e.declaredBy = typeName then "" else "  (from " ++ e.declaredBy ++ ")") ++
    (match e.obsolescence with
      | some message => "  [obsolete: " ++ message ++ "]"
      | none => "") ++ "\n"

end InspectedEvent

namespace InspectedRequest

def toJson (r : InspectedRequest) : Json :=
  record [("type_name", text r.typeName), ("mode", text r.mode.word), ("location", text r.location.toText),
    ("events", .arr (r.events.map (·.toJson)))]

def toText (r : InspectedRequest) : String :=
  "\n" ++ r.typeName ++ " [" ++ r.mode.word ++ "] at " ++ r.location.toText ++ "\n" ++
    if r.events.isEmpty then "  (no eligible events)\n"
    else String.join (r.events.map (·.toText r.typeName))

end InspectedRequest

namespace Inspection

def toJson (i : Inspection) : Json :=
  record [("path", text i.path), ("requests", .arr (i.requests.map (·.toJson))), ("duplicates", nat i.duplicates)]

def toText (i : Inspection) : String :=
  "Model: " ++ i.path ++ "\nRequests: " ++ toString i.requests.length ++ " (" ++ toString i.duplicates ++
    " duplicates)\n" ++ String.join (i.requests.map (·.toText))

end Inspection

end EventWrap
