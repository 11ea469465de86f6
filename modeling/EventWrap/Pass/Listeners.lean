import EventWrap.Pass.Event

/-!
# Listeners

Collectors keep the events that they are told of: those that pass a filter, until a capacity is
reached. `Listeners` holds all collectors ever made, and the registrations of those that are told
of events now.
-/

namespace EventWrap

structure Collector where
  capacity : Nat := 100
  /-- The event types that are let through; all of them without a filter. -/
  filter : Option (List String) := none
  events : List PassEvent := []
  deriving DecidableEq, Inhabited

namespace Collector

def lets (c : Collector) (e : PassEvent) : Bool :=
  match c.filter with
  | none => true
  | some names => names.contains e.typeName

/-- Keeps an event that passes the filter while there is room. -/
def receive (e : PassEvent) (c : Collector) : Collector :=
  if c.lets e && decide (c.events.length < c.capacity) then { c with events := c.events ++ [e] } else c

def clear (c : Collector) : Collector := { c with events := [] }

def typeNames (c : Collector) : List String := c.events.map (·.typeName)

end Collector

structure Listeners where
  collectors : List Collector := []
  /-- Places of collectors; one may be registered several times. -/
  registered : List Nat := []
  deriving DecidableEq, Inhabited

namespace Listeners

/-- Registers the collector at a place once more. -/
def register (place : Nat) (l : Listeners) : Listeners := { l with registered := l.registered ++ [place] }

/-- Adds a collector and registers it. -/
def subscribe (c : Collector) (l : Listeners) : Listeners :=
  { collectors := l.collectors ++ [c], registered := l.registered ++ [l.collectors.length] }

def unsubscribeAll (l : Listeners) : Listeners := { l with registered := [] }

/-- Tells every registration of an event, in order. -/
def emit (e : PassEvent) (l : Listeners) : Listeners :=
  { l with collectors := l.registered.foldl (fun all place => all.modify place (·.receive e)) l.collectors }

/-- Empties the collector at a place. -/
def clear (place : Nat) (l : Listeners) : Listeners := { l with collectors := l.collectors.modify place (·.clear) }

def collector? (l : Listeners) (place : Nat) : Option Collector := l.collectors[place]?

def count (l : Listeners) : Nat := l.registered.length

def toText (l : Listeners) : String :=
  "EventDispatcher \x7b subscriber_count: " ++ toString l.count ++ " \x7d"

end Listeners

end EventWrap
