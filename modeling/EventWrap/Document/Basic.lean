import EventWrap.Program.Declaration

/-!
# Documents

A document describes types, attributes and invocations by name: a type is referred to by metadata
name, by keyword or as a type parameter in scope, and may be described after the references to it.
-/

namespace EventWrap

/-- A type reference as written. -/
inductive Document.Reference where
  | name (name : String)
  | generic (name : String) (arguments : List Document.Reference)
  | array (element : Document.Reference) (rank : UInt32)
  | nullable (inner : Document.Reference)
  deriving Inhabited

namespace Document

structure TypeParameterEntry where
  name : String
  isReference : Bool := false
  isValue : Bool := false
  hasConstructor : Bool := false
  bounds : List Reference := []
  deriving Inhabited

/-- A positional argument of an attribute as written. -/
inductive ArgumentEntry where
  | flag (value : Bool)
  | number (value : Int64)
  | text (value : String)
  | typeOf (type : Reference)
  | null
  deriving Inhabited

structure AttributeEntry where
  name : String
  arguments : List ArgumentEntry := []
  location : Location := {}
  deriving Inhabited

structure ParameterEntry where
  name : String
  type : Reference
  deriving Inhabited

/-- A signature without a result returns `void`. -/
structure SignatureEntry where
  result : Option Reference := none
  parameters : List ParameterEntry := []
  deriving Inhabited

structure EventEntry where
  name : String
  delegate : Reference
  accessibility : Accessibility := .everyone
  isStatic : Bool := false
  attributes : List AttributeEntry := []
  deriving Inhabited

structure TypeEntry where
  namespaceName : String := ""
  name : String
  container : Option String := none
  kind : TypeKind := .classType
  accessibility : Accessibility := .everyone
  isStatic : Bool := false
  isAbstract : Bool := false
  isSealed : Bool := false
  typeParameters : List TypeParameterEntry := []
  base : Option Reference := none
  events : List EventEntry := []
  attributes : List AttributeEntry := []
  invoke : Option SignatureEntry := none
  location : Location := {}
  deriving Inhabited

structure InvocationEntry where
  method : String
  container : Option String := none
  typeArguments : List Reference := []
  location : Location := {}
  deriving Inhabited

end Document

structure Document where
  types : List Document.TypeEntry := []
  assemblyAttributes : List Document.AttributeEntry := []
  invocations : List Document.InvocationEntry := []
  deriving Inhabited

end EventWrap
