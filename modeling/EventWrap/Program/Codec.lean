import EventWrap.Document.Codec
import EventWrap.Json.Access
import EventWrap.Program.Basic

/-!
# Parts of a program as JSON

References, signatures, attributes and declarations, with types given by metadata name. Reading
them takes the program in which the names are looked up, and fails with a name that it does not
have.
-/

namespace EventWrap

open Json

/-- The result of reading: a value, or the name that could not be found. -/
abbrev Named (α : Type) := Except String α

namespace Program

variable (p : Program)

/-! ## Writing -/

def idJson (id : TypeId) : Json := text (p.metadataName id)

mutual

def refJson : TypeRef → Json
  | .named id arguments => record [("named", p.idJson id), ("args", .arr (refsJson arguments))]
  | .parameter name => record [("param", text name)]
  | .array element rank => record [("array", refJson element), ("rank", nat rank.toNat)]
  | .nullable inner => record [("nullable", refJson inner)]

def refsJson : List TypeRef → List Json
  | [] => []
  | r :: rest => refJson r :: refsJson rest

end

def argumentJson : Attribute.Argument → Json
  | .text value => text value
  | .flag value => .bool value
  | .number value => int value.toInt
  | .typeOf type => record [("type", p.refJson type)]
  | .null => .null

def attributeJson (a : Attribute) : Json :=
  record [("name", text a.className), ("args", .arr (a.arguments.map p.argumentJson)),
    ("location", a.location.toJson), ("type_argument", ofOption p.refJson a.typeArgument?)]

def parameterJson (q : Parameter) : Json := record [("name", text q.name), ("type", p.refJson q.type)]

def signatureJson (s : Signature) : Json :=
  record [("return", p.refJson s.result), ("parameters", .arr (s.parameters.map p.parameterJson))]

def typeParameterJson (q : TypeParameter) : Json :=
  record [("name", text q.name), ("class", .bool q.isReference), ("struct", .bool q.isValue),
    ("new", .bool q.hasConstructor), ("types", .arr (q.bounds.map p.refJson)),
    ("constrained", .bool q.isConstrained)]

def obsolescenceJson : Option Obsolescence → Json :=
  ofOption fun o => record [("message", text o.message), ("is_error", .bool o.isError)]

def eventJson (e : EventDeclaration) : Json :=
  record [("name", text e.name), ("type", p.refJson e.delegate), ("accessibility", text e.accessibility.word),
    ("is_static", .bool e.isStatic), ("attributes", .arr (e.attributes.map p.attributeJson)),
    ("obsolete", obsolescenceJson e.obsolescence?)]

def declarationFields (d : Declaration) : List (String × Json) :=
  [("kind", text d.kind.word), ("namespace", text d.namespaceName), ("name", text d.name),
    ("containing", ofOption p.idJson d.container), ("accessibility", text d.accessibility.word),
    ("is_static", .bool d.isStatic), ("is_abstract", .bool d.isAbstract), ("is_sealed", .bool d.isSealed),
    ("type_parameters", .arr (d.typeParameters.map p.typeParameterJson)), ("base", ofOption p.refJson d.base),
    ("events", .arr (d.events.map p.eventJson)), ("attributes", .arr (d.attributes.map p.attributeJson)),
    ("invoke", ofOption p.signatureJson d.invoke), ("special", ofOption (fun b => text b.systemName) d.builtIn),
    ("location", d.location.toJson), ("arity", nat d.arity), ("is_generic", .bool d.isGeneric),
    ("metadata_simple_name", text d.simpleName), ("obsolete", obsolescenceJson d.obsolescence?)]

def invocationJson (i : Invocation) : Json :=
  record [("method", text i.method), ("containing", ofOption p.idJson i.container),
    ("type_arguments", .arr (i.typeArguments.map p.refJson)), ("location", i.location.toJson)]

def coreJson (c : CoreTypes) : Json :=
  record <| List.map (fun (name, id) => (name, p.idJson id))
    [("object", c.object), ("void", c.void), ("string", c.string), ("boolean", c.boolean), ("int32", c.int32),
      ("int64", c.int64), ("double", c.double), ("event_args", c.eventArgs), ("event_handler", c.eventHandler),
      ("event_handler_t", c.eventHandlerOf1), ("action", c.action), ("action_t1", c.actionOf1),
      ("action_t2", c.actionOf2), ("action_t3", c.actionOf3), ("func_t1", c.funcOf1), ("task", c.task),
      ("task_t1", c.taskOf1), ("value_task", c.valueTask), ("obsolete_attribute", c.obsoleteAttribute),
      ("property_changed_event_args", c.propertyChangedEventArgs),
      ("property_changed_event_handler", c.propertyChangedEventHandler)]

/-! ## Reading -/

def find (name : String) : Named TypeId :=
  match p.resolve? name with
  | some id => .ok id
  | none => .error name

/-- A reference in a value with at most so many levels. A text is a type without arguments. -/
def readRefWithin : Nat → Json → Named TypeRef
  | _, .str name => do return .named (← p.find (name.getD "")) []
  | 0, _ => .error ""
  | levels + 1, j =>
    match j.field? "named", j.field? "param", j.field? "array" with
    | some name, _, _ => do
      let id ← p.find name.asText
      return .named id (← (j.itemsOf "args").mapM (readRefWithin levels))
    | none, some name, _ => return .parameter name.asText
    | none, none, some element => do
      return .array (← readRefWithin levels element) (UInt32.ofNat (j.natOf "rank" 1))
    | none, none, none => do return .nullable (← readRefWithin levels (j.field "nullable"))

def readRef (j : Json) : Named TypeRef := p.readRefWithin (j.depth + 1) j

def readRefs (j : Json) (name : String) : Named (List TypeRef) := (j.itemsOf name).mapM p.readRef

def readContainer (j : Json) : Named (Option TypeId) := ((j.given? "containing").bind (·.asText?)).mapM p.find

def readLocation (j : Json) : Location :=
  let l := j.field "location"
  ⟨l.textOf "file", UInt32.ofNat (l.natOf "line" 0), UInt32.ofNat (l.natOf "column" 0)⟩

def readArgument : Json → Named Attribute.Argument
  | .bool b => return .flag b
  | .num (.int n) => return .number (Int64.ofInt n)
  | .str t => return .text (t.getD "")
  | .obj fields => do return .typeOf (← p.readRef ((Json.obj fields).field "type"))
  | _ => return .null

def readAttribute (j : Json) : Named Attribute :=
  match j.itemsOf "obsolete" with
  | [message, isError] => return Obsolescence.toAttribute ⟨message.asText, isError.asFlag⟩
  | _ => do
    return {
      className := j.textOf "name"
      arguments := ← (j.itemsOf "args").mapM p.readArgument
      location := readLocation j }

def readTypeParameter (j : Json) : Named TypeParameter :=
  match j with
  | .str name => return { name := name.getD "" }
  | _ => do
    return {
      name := j.textOf "name"
      isReference := j.flagOf "class" false
      isValue := j.flagOf "struct" false
      hasConstructor := j.flagOf "new" false
      bounds := ← p.readRefs j "types" }

def readParameter (j : Json) : Named Parameter := do
  return { name := j.textOf "name", type := ← p.readRef (j.field "type") }

def readSignature (j : Json) : Named Signature := do
  let parameters ← (j.itemsOf "parameters").mapM p.readParameter
  return { result := ← p.readRef (j.field "return"), parameters := parameters }

def readAccessibility (j : Json) : Accessibility :=
  (Accessibility.words.lookup (j.textOf "accessibility")).getD .everyone

def readEvent (j : Json) : Named EventDeclaration := do
  return {
    name := j.textOf "name"
    delegate := ← p.readRef (j.field "type")
    accessibility := readAccessibility j
    isStatic := j.flagOf "is_static" false
    attributes := ← (j.itemsOf "attributes").mapM p.readAttribute }

def readDeclaration (j : Json) : Named Declaration := do
  let invoke ← (j.given? "invoke").mapM p.readSignature
  return {
    kind := (TypeKind.words.lookup (j.textOf "kind")).getD .classType
    namespaceName := j.textOf "namespace"
    name := j.textOf "name"
    container := ← p.readContainer j
    accessibility := readAccessibility j
    isStatic := j.flagOf "is_static" false
    isAbstract := j.flagOf "is_abstract" false
    isSealed := j.flagOf "is_sealed" false
    typeParameters := ← (j.itemsOf "type_parameters").mapM p.readTypeParameter
    base := ← (j.given? "base").mapM p.readRef
    events := ← (j.itemsOf "events").mapM p.readEvent
    attributes := ← (j.itemsOf "attributes").mapM p.readAttribute
    invoke := invoke
    builtIn := BuiltIn.ofSystemName? (j.textOf "special")
    location := readLocation j }

def readInvocation (j : Json) : Named Invocation := do
  return {
    method := j.textOf "method"
    container := ← p.readContainer j
    typeArguments := ← p.readRefs j "type_arguments"
    location := readLocation j }

end Program

end EventWrap
