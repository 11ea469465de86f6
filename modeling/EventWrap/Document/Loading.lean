import EventWrap.Document.Basic
import EventWrap.Program.CoreLibrary

/-!
# Loading a document

The types of a document are declared first, by header, so that references resolve in any order;
then each type is completed, and the attributes and invocations are added. A document that fails
leaves the program with what was added before the failure.
-/

namespace EventWrap

/-- Why a document could not be taken into a program. -/
inductive LoadError where
  | unknownType (name context : String)
  | duplicateType (name : String)
  | namelessType
  | delegateWithoutSignature (name : String)
  | argumentCount (name : String) (expected given : Nat) (context : String)
  /-- The document could not be read from its file. -/
  | unreadable (cause : String)
  /-- The document's text is no document; the cause is worded by whoever read it. -/
  | malformed (cause : String)
  deriving DecidableEq, Inhabited

namespace LoadError

def message : LoadError → String
  | unknownType name context => "Unknown type '" ++ name ++ "' referenced from " ++ context
  | duplicateType name => "Duplicate type: " ++ name
  | namelessType => "Invalid model document: type declared without a name"
  | delegateWithoutSignature name =>
    "Invalid model document: delegate '" ++ name ++ "' has no invoke signature"
  | argumentCount name expected given context =>
    "Invalid model document: '" ++ name ++ "' expects " ++ toString expected ++ " type arguments but " ++
      toString given ++ " were given in " ++ context
  | unreadable cause => "IO error: " ++ cause
  | malformed cause => "JSON error: " ++ cause

end LoadError

namespace Document

/-! ## Resolving references -/

def resolveName (p : Program) (context name : String) : Except LoadError TypeId :=
  match p.resolve? name with
  | some id => .ok id
  | none => .error (.unknownType name context)

/-- A plain name is a type parameter in scope, else a keyword, else a metadata name. -/
def resolvePlain (p : Program) (scope : List String) (context name : String) : Except LoadError TypeRef :=
  if name ∈ scope then .ok (.parameter name)
  else match BuiltIn.ofKeyword? name with
    | some b => (.named · []) <$> resolveName p context ("System." ++ b.systemName)
    | none => (.named · []) <$> resolveName p context name

mutual

def resolveReference (p : Program) (scope : List String) (context : String) :
    Reference → Except LoadError TypeRef
  | .name name => resolvePlain p scope context name
  | .generic name arguments => do
    let id ← resolveName p context name
    let arity := (p.declaration id).arity
    if arity ≠ arguments.length then throw (.argumentCount name arity arguments.length context)
    return .named id (← resolveReferences p scope context arguments)
  | .array element rank => do
    return .array (← resolveReference p scope context element) (max rank 1)
  | .nullable inner => do
    return .nullable (← resolveReference p scope context inner)

def resolveReferences (p : Program) (scope : List String) (context : String) :
    List Reference → Except LoadError (List TypeRef)
  | [] => return []
  | r :: rest => do
    let first ← resolveReference p scope context r
    return first :: (← resolveReferences p scope context rest)

end

section Resolving

variable (p : Program) (scope : List String) (context : String)

def resolveArgument : ArgumentEntry → Except LoadError Attribute.Argument
  | .flag value => return .flag value
  | .number value => return .number value
  | .text value => return .text value
  | .typeOf type => return .typeOf (← resolveReference p scope context type)
  | .null => return .null

def resolveAttribute (a : AttributeEntry) : Except LoadError Attribute := do
  return {
    className := a.name
    arguments := ← a.arguments.mapM (resolveArgument p scope context)
    location := a.location }

def resolveParameter (q : ParameterEntry) : Except LoadError Parameter := do
  return { name := q.name, type := ← resolveReference p scope context q.type }

def resolveSignature (s : SignatureEntry) : Except LoadError Signature := do
  let result ← resolveReference p scope context (s.result.getD (.name "void"))
  return { result := result, parameters := ← s.parameters.mapM (resolveParameter p scope context) }

def resolveTypeParameter (q : TypeParameterEntry) : Except LoadError TypeParameter := do
  return {
    name := q.name
    isReference := q.isReference
    isValue := q.isValue
    hasConstructor := q.hasConstructor
    bounds := ← resolveReferences p scope context q.bounds }

def resolveEvent (e : EventEntry) : Except LoadError EventDeclaration := do
  let delegate ← resolveReference p scope context e.delegate
  return {
    name := e.name
    delegate := delegate
    accessibility := e.accessibility
    isStatic := e.isStatic
    attributes := ← e.attributes.mapM (resolveAttribute p scope context) }

end Resolving

/-! ## Declaring and completing types -/

/-- What a declaration receives once all types are declared. -/
structure Details where
  typeParameters : List TypeParameter
  base : Option TypeRef
  events : List EventDeclaration
  attributes : List Attribute
  invoke : Option Signature

def Details.addTo (details : Details) (d : Declaration) : Declaration :=
  { d with
    typeParameters := details.typeParameters
    base := details.base
    events := details.events
    attributes := details.attributes
    invoke := details.invoke }

/-- The declaration of a type without what refers to other types. -/
def TypeEntry.header (t : TypeEntry) (container : Option TypeId) : Declaration where
  kind := t.kind
  namespaceName := t.namespaceName
  name := t.name
  container := container
  accessibility := t.accessibility
  isStatic := t.isStatic
  isAbstract := t.isAbstract
  isSealed := t.isSealed
  typeParameters := t.typeParameters.map fun q => { name := q.name }
  location := t.location

def resolveDetails (p : Program) (id : TypeId) (t : TypeEntry) : Except LoadError Details := do
  let scope := (p.typeParametersInScope id).map (·.name)
  let typeParameters ← t.typeParameters.mapM (resolveTypeParameter p scope t.name)
  let base ← t.base.mapM (resolveReference p scope t.name)
  let events ← t.events.mapM (resolveEvent p scope t.name)
  let attributes ← t.attributes.mapM (resolveAttribute p scope t.name)
  let invoke ← t.invoke.mapM (resolveSignature p scope t.name)
  return { typeParameters, base, events, attributes, invoke }

def resolveInvocation (p : Program) (i : InvocationEntry) : Except LoadError Invocation := do
  let context := "invocation of '" ++ i.method ++ "'"
  let container ← i.container.mapM (resolveName p context)
  let typeArguments ← i.typeArguments.mapM (resolveReference p [] context)
  return { method := i.method, container, typeArguments, location := i.location }

end Document

/-! ## Loading -/

/-- A step that grows a program and may fail, keeping what it has added. -/
abbrev Loading (α : Type) := EStateM LoadError Program α

namespace Loading

/-- An answer that the program as it stands gives. -/
def ask {α : Type} (question : Program → Except LoadError α) : Loading α := fun p =>
  match question p with
  | .ok a => .ok a p
  | .error e => .error e p

def add (d : Declaration) : Loading TypeId := fun p =>
  match p.add d with
  | .ok (id, p) => .ok id p
  | .error name => .error (.duplicateType name) p

open Document

def declareType (t : TypeEntry) : Loading TypeId := do
  if t.name.isEmpty then throw .namelessType
  if t.kind = .delegateType ∧ t.invoke.isNone then throw (.delegateWithoutSignature t.name)
  let container ← ask fun p => t.container.mapM (resolveName p t.name)
  add (t.header container)

def completeType (t : TypeEntry) (id : TypeId) : Loading Unit := do
  let details ← ask fun p => resolveDetails p id t
  modify fun p => p.update id details.addTo

def addAssemblyAttribute (a : AttributeEntry) : Loading Unit := do
  let resolved ← ask fun p => resolveAttribute p [] "assembly" a
  modify (·.addAssemblyAttribute resolved)

def addInvocation (i : InvocationEntry) : Loading Unit := do
  let invocation ← ask fun p => resolveInvocation p i
  modify (·.addInvocation invocation)

def loadDocument (d : Document) : Loading Unit := do
  let ids ← d.types.mapM declareType
  (d.types.zip ids).forM fun (t, id) => completeType t id
  d.assemblyAttributes.forM addAssemblyAttribute
  d.invocations.forM addInvocation

end Loading

/-- The program that a document describes on top of the core library. -/
def Program.ofDocument (d : Document) : Except LoadError Program :=
  match Loading.loadDocument d Program.withCoreLibrary with
  | .ok _ p => .ok p
  | .error e _ => .error e

end EventWrap
