import EventWrap.Wrapper.Synthesis

/-!
# Factory methods

Extension methods that make a wrapper from an object, one for every instance wrapper. They are
gathered in one partial class, in the order of the names of the types that they extend.
-/

namespace EventWrap

open Code

structure FactoryMethod where
  source : TypeId
  /-- The metadata name of the extended type. -/
  sortKey : String
  declaration : Method
  deriving Inhabited

/-- The file that all factory methods of a pass are written to. -/
def extensionsFileName : String := "ObservableGeneratorExtensions.FoundEvents.SourceGenerated.cs"

namespace Program

variable (p : Program)

def factoryDeclaration (s : Settings) (id : TypeId) : Method :=
  let parameters := p.typeParametersInScope id
  let wrapper := p.wrapperText id (p.declaration id).ownArguments
  { doc := s.document {
      summary := "A wrapper class which wraps all the events contained within the " ++ seeCref (p.cref id) ++
        " class."
      params := [("item", "The instance to wrap.")] }
    attributes := obsoleteUses (p.declaration id).obsolescence?
    modifiers := [.publicAccess, .staticMember]
    returnType := wrapper
    name := s.factoryMethod
    typeParameters := parameters.map fun q => escape q.name
    parameters := [{ isReceiver := true, type := p.definitionText id, name := "item" }]
    constraints := p.constraints parameters
    body := .expression (.create wrapper [.name "item"]) }

/-- The factory method for a wrapper. Static wrappers are reached by their name and have none. -/
def factory? (s : Settings) (w : Wrapper) : Option FactoryMethod :=
  match w.mode with
  | .ofStatics => none
  | .ofInstance =>
    some { source := w.source, sortKey := p.metadataName w.source, declaration := p.factoryDeclaration s w.source }

end Program

namespace Settings

/-- The class of the factory methods. -/
def extensionsClassOf (s : Settings) (factories : List FactoryMethod) : ClassBlock where
  doc := s.document { summary := "Extension methods exposing the events of wrapped types as observables." }
  modifiers := [.internalAccess, .staticMember, .partialType]
  name := s.extensionsClass
  members := (sortedBy (·.sortKey) factories).map fun f => .method f.declaration

def extensionsUnit (s : Settings) (factories : List FactoryMethod) : Option SourceUnit :=
  if factories.isEmpty then none
  else some (s.emptyUnit.addClass s.extensionsNamespace (s.extensionsClassOf factories))

def renderExtensions (s : Settings) (factories : List FactoryMethod) : Option String :=
  (s.extensionsUnit factories).map (·.render)

end Settings

end EventWrap
