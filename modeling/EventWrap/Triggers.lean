import EventWrap.Document.Loading
import EventWrap.Wrapper.Synthesis

/-!
# Triggers

The declarations through which code asks for wrappers: a holder class with the extension method
whose calls ask for instance wrappers, and the marker attribute that asks for static ones. They
can be declared in a program and written as a unit.
-/

namespace EventWrap

open Code

/-! ## In a program -/

/-- The places of the triggers in a program. -/
structure TriggerTypes where
  holder : TypeId
  marker : TypeId
  deriving DecidableEq, Inhabited

namespace Settings

def holderDeclaration (s : Settings) : Declaration where
  namespaceName := s.extensionsNamespace
  name := s.extensionsClass
  accessibility := .assembly
  isStatic := true

def markerDeclaration (s : Settings) : Declaration where
  namespaceName := s.extensionsNamespace
  name := s.staticAttribute
  accessibility := .assembly
  isSealed := true

end Settings

namespace Loading

/-- The type of a name, declared now unless it is there already. -/
def ensure (name : String) (d : Declaration) : Loading TypeId := do
  match (← get).resolve? name with
  | some id => return id
  | none => add d

def installTriggers (s : Settings) : Loading TriggerTypes := do
  let holder ← ensure s.holderName s.holderDeclaration
  let marker ← ensure s.markerName s.markerDeclaration
  return { holder, marker }

end Loading

/-! ## As a unit -/

namespace Settings

/-- The file that the triggers are written to. -/
def triggersFileName : String := "ObservableGeneratorExtensions.SourceGenerated.cs"

/-- The extension method that calls bind to where no wrapper was made. -/
def fallbackMethod (s : Settings) : Method where
  doc := s.document {
    summary := "Gets observable wrappers for the events of the item."
    params := [("item", "The instance whose events are wrapped.")] }
  modifiers := [.publicAccess, .staticMember]
  returnType := "object"
  name := s.factoryMethod
  typeParameters := ["T"]
  parameters := [{ isReceiver := true, type := "T", name := "item" }]
  body := .expression (.raise (.create "global::System.InvalidOperationException"
    [.string "The observable events generator did not produce a wrapper for this type."]))

def holderClass (s : Settings) : ClassBlock where
  doc := s.document { summary := "Extension methods to generate observables for the events of a type." }
  modifiers := [.internalAccess, .staticMember, .partialType]
  name := s.extensionsClass
  members := [.method s.fallbackMethod]

def markerConstructor (s : Settings) : Constructor where
  doc := s.document {
    summary := "Initializes a new instance of the " ++ seeCref s.staticAttribute ++ " class."
    params := [("type", "The static type to wrap.")] }
  modifiers := [.publicAccess]
  name := s.staticAttribute
  parameters := [{ type := "global::System.Type", name := "type" }]
  body := [.expression (.assign (.name "Type") .set (.name "type"))]

def markerProperty (s : Settings) : Property where
  doc := s.document { summary := "Gets the static type to wrap." }
  modifiers := [.publicAccess]
  type := "global::System.Type"
  name := "Type"
  getter := .automatic

def markerClass (s : Settings) : ClassBlock where
  doc := s.document { summary := "Requests observable wrappers for the static events of a type." }
  attributes := [{
    name := "global::System.AttributeUsage"
    arguments := [.name "global::System.AttributeTargets.Assembly",
      .assign (.name "AllowMultiple") .set (.boolean true)] }]
  modifiers := [.internalAccess, .sealedType]
  name := s.staticAttribute
  base := some "global::System.Attribute"
  members := [.constructor s.markerConstructor, .property s.markerProperty]

def triggersUnit (s : Settings) : SourceUnit :=
  (s.emptyUnit.addClass s.extensionsNamespace s.holderClass).addClass s.extensionsNamespace s.markerClass

def renderTriggers (s : Settings) : String := s.triggersUnit.render

end Settings

end EventWrap
