import EventWrap.Code.Tree
import EventWrap.Code.TypeText
import EventWrap.Events.Shape
import EventWrap.Settings
import EventWrap.Text.Blank
import EventWrap.Wrapper.FreeName
import EventWrap.Wrapper.Mode

/-!
# Properties of wrappers

The property that offers one event as an observable. Its getter creates an observable which, on
subscription, adds a local handler to the event and, when the subscription ends, removes the same
handler again.
-/

namespace EventWrap

open Code

/-! ## Parts shared by generated declarations -/

/-- A reference to a declaration in documentation. -/
def seeCref (cref : String) : String := "<see cref=\"" ++ cref ++ "\" />"

/-- Repeats the obsolescence of a source declaration, unless its message is blank. -/
def obsoleteUses (o : Option Obsolescence) : List AttributeUse :=
  match o with
  | some o =>
    if Text.isBlankText o.message then []
    else [{ name := "global::System.ObsoleteAttribute", arguments := [.string o.message, .boolean o.isError] }]
  | none => []

/-- Documentation, where the settings ask for it. -/
def Settings.document (s : Settings) (doc : Doc) : Option Doc := if s.emitDocumentation then some doc else none

namespace Program

variable (p : Program)

/-- The bounds of a type parameter in the order in which they are written. -/
def boundTexts (q : TypeParameter) : List String :=
  (if q.isReference then ["class"] else if q.isValue then ["struct"] else []) ++
    q.bounds.map p.typeText ++ if q.hasConstructor && !q.isValue then ["new()"] else []

/-- The constraints of the type parameters that have any. -/
def constraints (parameters : List TypeParameter) : List Constraint :=
  (parameters.filter (·.isConstrained)).map fun q => ⟨escape q.name, p.boundTexts q⟩

/-! ## Elements and handlers -/

/-- The element type of an observable, as written. -/
def elementText (reactive : ReactiveNames) : Element → String
  | .unit => reactive.unit
  | .type type => p.typeText type
  | .tuple items =>
    "(" ++ ", ".intercalate (items.map fun q => p.typeText q.type ++ " " ++ escape q.name) ++ ")"

def forwardedValue (reactive : ReactiveNames) : Forwarding → Expr
  | .unit => .name reactive.unitDefault
  | .parameter name => .name (escape name)
  | .tuple names => .tuple (names.map fun name => .name (escape name))

def handlerFormals (signature : Signature) : List Formal :=
  signature.parameters.map fun q => { type := p.typeText q.type, name := escape q.name }

def handlerResult (e : EventDescriptor) : String :=
  match e.returnKind with
  | .void => "void"
  | .task | .valueTask => p.typeText e.signature.result

/-- What the handler does after it has handed the value on. -/
def handlerBody (kind : ReturnKind) (forward : Expr) : Body :=
  match kind with
  | .void => .expression forward
  | .task =>
    .block [.expression forward, .result (.name "global::System.Threading.Tasks.Task.CompletedTask")]
  | .valueTask => .block [.expression forward, .result (.name "default")]

/-! ## Properties -/

/-- The getter for an event that is reached through `access`. -/
def observableOf (s : Settings) (access : Expr) (e : EventDescriptor) : Expr :=
  let shape := p.classify e.signature s.collapsePlainEventArgs
  let formals := p.handlerFormals e.signature
  let taken := formals.map (·.name)
  let observer := freeName "obs" taken
  let handler := freeName "Handler" taken
  let forward : Expr := .call (.member (.name observer) "OnNext") [] [forwardedValue s.reactive shape.forwarding]
  .call (.name s.reactive.create) [p.elementText s.reactive shape.element] [
    .lambda [observer] (.block [
      .localFunction (p.handlerResult e) handler formals (handlerBody e.returnKind forward),
      .expression (.assign access .add (.name handler)),
      .result (.call (.name s.reactive.disposableCreate) [] [
        .lambda [] (.expression (.assign access .subtract (.name handler)))])])]

/-- The property for an event of `target`; `hides` says whether a parent wrapper offers one of the
same name. -/
def eventProperty (s : Settings) (mode : WrapperMode) (target : Expr) (hides : Bool) (e : EventDescriptor) :
    Property where
  doc := s.document {
    summary := "Gets an observable which signals when the " ++
      seeCref (p.cref e.declaringType ++ "." ++ e.name) ++ " event triggers." }
  attributes := obsoleteUses e.obsolescence
  modifiers := .publicAccess :: ((if mode.isStatic then [.staticMember] else []) ++
    if hides then [.hiding] else [])
  type := s.reactive.observable ++ "<" ++
    p.elementText s.reactive (p.classify e.signature s.collapsePlainEventArgs).element ++ ">"
  name := escape e.name
  getter := .expression (p.observableOf s (.member target (escape e.name)) e)

end Program

end EventWrap
