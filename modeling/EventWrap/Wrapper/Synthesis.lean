import EventWrap.Code.Layout
import EventWrap.Events.Collected
import EventWrap.Wrapper.Naming
import EventWrap.Wrapper.Property

/-!
# Wrapper classes

The class that offers the events of a type. An instance wrapper holds an object of the type, and
derives from the wrapper of the nearest ancestor with events; its properties hide those of the same
name which that wrapper exposes. A static wrapper holds nothing and derives from nothing.
-/

namespace EventWrap

open Code

/-- Distinct names in order. -/
def sortedNames (names : List String) : List String := sortedBy id (Occurrence.firsts id [] names)

/-- The wrapper that an instance wrapper derives from. -/
structure ParentWrapper where
  type : TypeId
  /-- The parent's arguments in terms of the child's parameters. -/
  arguments : List TypeRef
  /-- What the parent and its own parents expose. -/
  exposed : List String
  deriving Inhabited

/-- What a wrapper is to be built from. -/
structure WrapperPlan where
  events : TypeEvents
  mode : WrapperMode
  parent : Option ParentWrapper := none
  /-- Whether a wrapper without events of its own is wanted. -/
  evenEmpty : Bool := false
  deriving Inhabited

structure Wrapper where
  source : TypeId
  mode : WrapperMode
  name : String
  namespaceName : String
  fileName : String
  parent : Option ParentWrapper
  /-- The events that the wrapper has properties for. -/
  events : List String
  declaration : ClassBlock
  deriving Inhabited

/-- The comment at the head of every generated unit. -/
def generatedMark : String := "<auto-generated />"

def Settings.emptyUnit (s : Settings) : SourceUnit :=
  { comments := [generatedMark], nullable := s.emitNullableDirective }

namespace Wrapper

def inherited (w : Wrapper) : List String := (w.parent.map (·.exposed)).getD []

/-- All events that can be reached through the wrapper. -/
def exposed (w : Wrapper) : List String := sortedNames (w.events ++ w.inherited)

def unit (s : Settings) (w : Wrapper) : SourceUnit := s.emptyUnit.addClass w.namespaceName w.declaration

def render (s : Settings) (w : Wrapper) : String := (w.unit s).render

end Wrapper

namespace Program

variable (p : Program)

def wrapperConstructor (s : Settings) (id : TypeId) (derived : Bool) : Constructor where
  doc := s.document {
    summary := "Initializes a new instance of the " ++ seeCref (p.wrapperName id) ++ " class."
    params := [("data", "The class that is being wrapped.")] }
  modifiers := [.publicAccess]
  name := p.wrapperName id
  parameters := [{ type := p.definitionText id, name := "data" }]
  baseArguments := if derived then some [.name "data"] else none
  body := [.expression (.assign (.name "_data") .set (.name "data"))]

/-- The members with which an instance wrapper holds its object. -/
def holdingMembers (s : Settings) (id : TypeId) (derived : Bool) : List Member :=
  [.field { modifiers := [.privateAccess, .readOnly], type := p.definitionText id, name := "_data" },
    .constructor (p.wrapperConstructor s id derived)]

/-- Where the events of a type are reached from inside its wrapper. -/
def eventTarget (id : TypeId) : WrapperMode → Expr
  | .ofInstance => .name "_data"
  | .ofStatics => .name (p.definitionText id)

def wrapperSummary (id : TypeId) : WrapperMode → String
  | .ofInstance => "Observable wrappers for the events of the " ++ seeCref (p.cref id) ++ " class."
  | .ofStatics => "Observable wrappers for the static events of the " ++ seeCref (p.cref id) ++ " class."

def wrapperClass (s : Settings) (mode : WrapperMode) (parent : Option ParentWrapper) (t : TypeEvents) : ClassBlock :=
  let id := t.type
  let parameters := p.typeParametersInScope id
  let inherited := (parent.map (·.exposed)).getD []
  { doc := s.document { summary := p.wrapperSummary id mode }
    attributes := obsoleteUses (p.declaration id).obsolescence?
    modifiers := .internalAccess :: ((if mode.isStatic then [.staticMember] else []) ++ [.partialType])
    name := p.wrapperName id
    typeParameters := parameters.map fun q => escape q.name
    base := parent.map fun w => p.wrapperText w.type w.arguments
    constraints := p.constraints parameters
    members := (if mode.isStatic then [] else p.holdingMembers s id parent.isSome) ++
      t.events.map fun e => .property (p.eventProperty s mode (p.eventTarget id mode) (inherited.contains e.name) e) }

/-- The wrapper of a plan, unless there is nothing to offer and an empty one is not wanted. -/
def synthesize (s : Settings) (plan : WrapperPlan) : Option Wrapper :=
  let id := plan.events.type
  if plan.events.isEmpty && !plan.evenEmpty then none
  else
    let parent := if plan.mode.isStatic then none else plan.parent
    some {
      source := id
      mode := plan.mode
      name := p.wrapperName id
      namespaceName := p.wrapperNamespace id
      fileName := p.hintName id plan.mode
      parent := parent
      events := plan.events.names
      declaration := p.wrapperClass s plan.mode parent plan.events }

end Program

end EventWrap
