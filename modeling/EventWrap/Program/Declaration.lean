import EventWrap.Location
import EventWrap.Program.BuiltIn
import EventWrap.Program.TypeRef

/-!
# Declarations

What a program declares: types with their parameters, base, events and attributes, and the
invocations that it contains.
-/

namespace EventWrap

inductive TypeKind where
  | classType | structType | interfaceType | delegateType | enumType
  deriving DecidableEq, Inhabited

inductive Accessibility where
  | everyone | assembly | family | familyOrAssembly | familyAndAssembly | oneself
  deriving DecidableEq, Inhabited

/-! ## Attributes -/

/-- A positional argument of an attribute. -/
inductive Attribute.Argument where
  | text (value : String)
  | flag (value : Bool)
  | number (value : Int64)
  | typeOf (type : TypeRef)
  | null
  deriving Inhabited

def Attribute.Argument.text? : Attribute.Argument → Option String
  | .text value => some value
  | _ => none

def Attribute.Argument.flag? : Attribute.Argument → Option Bool
  | .flag value => some value
  | _ => none

/-- An attribute application, its class given by metadata name. -/
structure Attribute where
  className : String
  arguments : List Attribute.Argument := []
  location : Location := {}
  deriving Inhabited

/-- The type that the attribute's first argument is the `typeof` of. -/
def Attribute.typeArgument? (a : Attribute) : Option TypeRef :=
  match a.arguments with
  | .typeOf type :: _ => some type
  | _ => none

structure Obsolescence where
  message : String
  isError : Bool
  deriving DecidableEq, Inhabited

namespace Obsolescence

def attributeName : String := "System.ObsoleteAttribute"

/-- The attribute that declares something obsolete. -/
def toAttribute (o : Obsolescence) : Attribute where
  className := attributeName
  arguments := [.text o.message, .flag o.isError]

/-- What the first attribute of the obsolescence class says. A message that is no text is empty,
and only a second argument `true` makes an error. -/
def ofAttributes? (attributes : List Attribute) : Option Obsolescence :=
  (attributes.find? (·.className == attributeName)).map fun (a : Attribute) =>
    { message := (a.arguments[0]?.bind (·.text?)).getD ""
      isError := (a.arguments[1]?.bind (·.flag?)).getD false }

end Obsolescence

/-! ## Types -/

structure EventDeclaration where
  name : String
  delegate : TypeRef
  accessibility : Accessibility := .everyone
  isStatic : Bool := false
  attributes : List Attribute := []
  deriving Inhabited

def EventDeclaration.obsolescence? (e : EventDeclaration) : Option Obsolescence :=
  Obsolescence.ofAttributes? e.attributes

structure Declaration where
  kind : TypeKind := .classType
  namespaceName : String := ""
  name : String := ""
  container : Option TypeId := none
  accessibility : Accessibility := .everyone
  isStatic : Bool := false
  isAbstract : Bool := false
  isSealed : Bool := false
  typeParameters : List TypeParameter := []
  base : Option TypeRef := none
  events : List EventDeclaration := []
  attributes : List Attribute := []
  invoke : Option Signature := none
  builtIn : Option BuiltIn := none
  location : Location := {}
  deriving Inhabited

namespace Declaration

def arity (d : Declaration) : Nat := d.typeParameters.length

def isGeneric (d : Declaration) : Bool := !d.typeParameters.isEmpty

/-- The name, followed by a backtick and the arity for a generic type. -/
def simpleName (d : Declaration) : String :=
  if d.isGeneric then d.name ++ "`" ++ toString d.arity else d.name

def parameterNames (d : Declaration) : List String := d.typeParameters.map (·.name)

/-- The type's own parameters as arguments. -/
def ownArguments (d : Declaration) : List TypeRef := d.parameterNames.map .parameter

def obsolescence? (d : Declaration) : Option Obsolescence := Obsolescence.ofAttributes? d.attributes

end Declaration

/-- An invocation in the program's code. No container means that the call did not bind. -/
structure Invocation where
  method : String
  container : Option TypeId := none
  typeArguments : List TypeRef := []
  location : Location := {}
  deriving Inhabited

end EventWrap
