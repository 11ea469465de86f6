import EventWrap.Document.Basic
import EventWrap.Json.Reader
import EventWrap.Location.Codec

/-!
# Documents as JSON

Encoders and decoders beside each other, record by record. Optional parts that are absent are left
out, and every other field is written. A reference or an attribute argument has no tag: its form is
the first one whose fields all decode, and it is taken in whole before the forms are tried.
-/

namespace EventWrap

open Json Json.Decoder

/-! ## Words -/

def TypeKind.words : List (String × TypeKind) :=
  [("class", .classType), ("struct", .structType), ("interface", .interfaceType),
    ("delegate", .delegateType), ("enum", .enumType)]

def TypeKind.word : TypeKind → String
  | .classType => "class"
  | .structType => "struct"
  | .interfaceType => "interface"
  | .delegateType => "delegate"
  | .enumType => "enum"

def Accessibility.words : List (String × Accessibility) :=
  [("public", .everyone), ("internal", .assembly), ("protected", .family),
    ("protected_internal", .familyOrAssembly), ("private_protected", .familyAndAssembly), ("private", .oneself)]

def Accessibility.word : Accessibility → String
  | .everyone => "public"
  | .assembly => "internal"
  | .family => "protected"
  | .familyOrAssembly => "protected_internal"
  | .familyAndAssembly => "private_protected"
  | .oneself => "private"

theorem TypeKind.lookup_word (k : TypeKind) : words.lookup k.word = some k := by cases k <;> rfl

theorem Accessibility.lookup_word (a : Accessibility) : words.lookup a.word = some a := by cases a <;> rfl

namespace Document

/-- The fields of a record that are present. -/
def present (fields : List (String × Option Json)) : Json :=
  record (fields.filterMap fun (key, value) => value.map (key, ·))

/-! ## References -/

mutual

def Reference.toJson : Reference → Json
  | .name plain => text plain
  | .generic definition arguments => record [("name", text definition), ("arguments", .arr (Reference.toJsonAll arguments))]
  | .array element rank => record [("array", element.toJson), ("rank", nat rank.toNat)]
  | .nullable inner => record [("nullable", inner.toJson)]

def Reference.toJsonAll : List Reference → List Json
  | [] => []
  | r :: rest => r.toJson :: Reference.toJsonAll rest

end

/-- A reference in a value with at most so many levels. -/
def Reference.ofLevels? : Nat → Json → Option Reference
  | _, .str t => t.map .name
  | levels + 1, .obj fields =>
    let generic : Option Reference :=
      match fieldsOf ["name", "arguments"] fields with
      | some [some (.str (some definition)), some (.arr items)] =>
        (items.mapM (Reference.ofLevels? levels)).map (.generic definition)
      | _ => none
    let array : Option Reference :=
      match fieldsOf ["array", "rank"] fields with
      | some [some element, rank] => do
        return .array (← Reference.ofLevels? levels element) (← withDefault 1 word32 0 rank)
      | _ => none
    let nullable : Option Reference :=
      match fieldsOf ["nullable"] fields with
      | some [some inner] => (Reference.ofLevels? levels inner).map .nullable
      | _ => none
    generic <|> array <|> nullable
  | _, _ => none

def Reference.decoder : Decoder Reference := fun room j =>
  if readable room j then Reference.ofLevels? room j else none

/-! ## Attributes -/

def ArgumentEntry.toJson : ArgumentEntry → Json
  | .flag value => .bool value
  | .number value => .num (.int value.toInt)
  | .text value => Json.text value
  | .typeOf type => record [("type", type.toJson)]
  | .null => .null

def ArgumentEntry.ofLevels? : Nat → Json → Option ArgumentEntry
  | _, .bool value => some (.flag value)
  | room, .num n => (integer64 room (.num n)).map .number
  | _, .str t => t.map .text
  | _, .null => some .null
  | levels + 1, .obj fields =>
    match fieldsOf ["type"] fields with
    | some [some type] => (Reference.ofLevels? levels type).map .typeOf
    | _ => none
  | _, _ => none

def ArgumentEntry.decoder : Decoder ArgumentEntry := fun room j =>
  if readable room j then ArgumentEntry.ofLevels? room j else none

def AttributeEntry.toJson (a : AttributeEntry) : Json :=
  record [("name", text a.name), ("arguments", .arr (a.arguments.map (·.toJson))), ("location", a.location.toJson)]

def AttributeEntry.decoder : Decoder AttributeEntry :=
  Decoder.record ["name", "arguments", "location"] fun room fields => match fields with
    | [name, arguments, location] => do
      return {
        name := ← required string room name
        arguments := ← withDefault [] (list ArgumentEntry.decoder) room arguments
        location := ← withDefault {} Location.decoder room location }
    | _ => none

/-! ## Signatures -/

def ParameterEntry.toJson (p : ParameterEntry) : Json := record [("name", text p.name), ("type", p.type.toJson)]

def ParameterEntry.decoder : Decoder ParameterEntry :=
  Decoder.record ["name", "type"] fun room fields => match fields with
    | [name, type] => do
      return { name := ← required string room name, type := ← required Reference.decoder room type }
    | _ => none

def SignatureEntry.toJson (s : SignatureEntry) : Json :=
  present [("return", s.result.map (·.toJson)), ("parameters", some (.arr (s.parameters.map (·.toJson))))]

def SignatureEntry.decoder : Decoder SignatureEntry :=
  Decoder.record ["return", "parameters"] fun room fields => match fields with
    | [result, parameters] => do
      return {
        result := ← maybe Reference.decoder room result
        parameters := ← withDefault [] (list ParameterEntry.decoder) room parameters }
    | _ => none

/-! ## Types -/

def TypeParameterEntry.toJson (p : TypeParameterEntry) : Json :=
  record [("name", text p.name), ("reference_type", .bool p.isReference), ("value_type", .bool p.isValue),
    ("constructor", .bool p.hasConstructor), ("types", .arr (p.bounds.map (·.toJson)))]

def TypeParameterEntry.decoder : Decoder TypeParameterEntry :=
  Decoder.record ["name", "reference_type", "value_type", "constructor", "types"] fun room fields =>
    match fields with
    | [name, isReference, isValue, hasConstructor, bounds] => do
      return {
        name := ← required string room name
        isReference := ← withDefault false boolean room isReference
        isValue := ← withDefault false boolean room isValue
        hasConstructor := ← withDefault false boolean room hasConstructor
        bounds := ← withDefault [] (list Reference.decoder) room bounds }
    | _ => none

def EventEntry.toJson (e : EventEntry) : Json :=
  record [("name", text e.name), ("type", e.delegate.toJson), ("accessibility", text e.accessibility.word),
    ("is_static", .bool e.isStatic), ("attributes", .arr (e.attributes.map (·.toJson)))]

def EventEntry.decoder : Decoder EventEntry :=
  Decoder.record ["name", "type", "accessibility", "is_static", "attributes"] fun room fields =>
    match fields with
    | [name, delegate, accessibility, isStatic, attributes] => do
      return {
        name := ← required string room name
        delegate := ← required Reference.decoder room delegate
        accessibility := ← withDefault .everyone (word Accessibility.words) room accessibility
        isStatic := ← withDefault false boolean room isStatic
        attributes := ← withDefault [] (list AttributeEntry.decoder) room attributes }
    | _ => none

def TypeEntry.toJson (t : TypeEntry) : Json :=
  present [("namespace", some (text t.namespaceName)), ("name", some (text t.name)),
    ("containing_type", t.container.map text), ("kind", some (text t.kind.word)),
    ("accessibility", some (text t.accessibility.word)), ("is_static", some (.bool t.isStatic)),
    ("is_abstract", some (.bool t.isAbstract)), ("is_sealed", some (.bool t.isSealed)),
    ("type_parameters", some (.arr (t.typeParameters.map (·.toJson)))), ("base", t.base.map (·.toJson)),
    ("events", some (.arr (t.events.map (·.toJson)))), ("attributes", some (.arr (t.attributes.map (·.toJson)))),
    ("invoke", t.invoke.map (·.toJson)), ("location", some t.location.toJson)]

def TypeEntry.decoder : Decoder TypeEntry :=
  Decoder.record ["namespace", "name", "containing_type", "kind", "accessibility", "is_static", "is_abstract",
      "is_sealed", "type_parameters", "base", "events", "attributes", "invoke", "location"] fun room fields =>
    match fields with
    | [namespaceName, name, container, kind, accessibility, isStatic, isAbstract, isSealed, typeParameters, base,
        events, attributes, invoke, location] => do
      return {
        namespaceName := ← withDefault "" string room namespaceName
        name := ← required string room name
        container := ← maybe string room container
        kind := ← withDefault .classType (word TypeKind.words) room kind
        accessibility := ← withDefault .everyone (word Accessibility.words) room accessibility
        isStatic := ← withDefault false boolean room isStatic
        isAbstract := ← withDefault false boolean room isAbstract
        isSealed := ← withDefault false boolean room isSealed
        typeParameters := ← withDefault [] (list TypeParameterEntry.decoder) room typeParameters
        base := ← maybe Reference.decoder room base
        events := ← withDefault [] (list EventEntry.decoder) room events
        attributes := ← withDefault [] (list AttributeEntry.decoder) room attributes
        invoke := ← maybe SignatureEntry.decoder room invoke
        location := ← withDefault {} Location.decoder room location }
    | _ => none

def InvocationEntry.toJson (i : InvocationEntry) : Json :=
  present [("method", some (text i.method)), ("containing_type", i.container.map text),
    ("type_arguments", some (.arr (i.typeArguments.map (·.toJson)))), ("location", some i.location.toJson)]

def InvocationEntry.decoder : Decoder InvocationEntry :=
  Decoder.record ["method", "containing_type", "type_arguments", "location"] fun room fields =>
    match fields with
    | [method, container, typeArguments, location] => do
      return {
        method := ← required string room method
        container := ← maybe string room container
        typeArguments := ← withDefault [] (list Reference.decoder) room typeArguments
        location := ← withDefault {} Location.decoder room location }
    | _ => none

/-! ## Documents -/

def toJson (d : Document) : Json :=
  record [("types", .arr (d.types.map (·.toJson))),
    ("assembly_attributes", .arr (d.assemblyAttributes.map (·.toJson))),
    ("invocations", .arr (d.invocations.map (·.toJson)))]

def decoder : Decoder Document :=
  Decoder.record ["types", "assembly_attributes", "invocations"] fun room fields => match fields with
    | [types, assemblyAttributes, invocations] => do
      return {
        types := ← withDefault [] (list TypeEntry.decoder) room types
        assemblyAttributes := ← withDefault [] (list AttributeEntry.decoder) room assemblyAttributes
        invocations := ← withDefault [] (list InvocationEntry.decoder) room invocations }
    | _ => none

/-- How many levels a text may nest in what is decoded. -/
def levelLimit : Nat := 127

def ofJson? (j : Json) : Option Document := j.decode decoder

def parse? (text : String) : Option Document := (Json.parse? text).bind (decoder levelLimit)

end Document

end EventWrap
