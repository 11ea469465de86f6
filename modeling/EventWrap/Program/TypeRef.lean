/-!
# Type references

A reference names a declared type with its arguments, a type parameter in scope, an array or a
nullable type. `TypeRef.substitute` replaces type parameters by arguments, all at once.
-/

namespace EventWrap

/-- The position of a type in its program. -/
abbrev TypeId := Nat

inductive TypeRef where
  | named (type : TypeId) (arguments : List TypeRef)
  | parameter (name : String)
  | array (element : TypeRef) (rank : UInt32)
  | nullable (inner : TypeRef)
  deriving Inhabited

namespace TypeRef

/-- The declared type that is referred to, when there is one. -/
def namedType? : TypeRef → Option TypeId
  | .named type _ => some type
  | _ => none

def typeArguments : TypeRef → List TypeRef
  | .named _ arguments => arguments
  | _ => []

def isConstructed : TypeRef → Bool
  | .named _ (_ :: _) => true
  | _ => false

/-- The reference without its outermost nullable mark. -/
def stripNullable : TypeRef → TypeRef
  | .nullable inner => inner
  | r => r

/-! ## Substitution -/

/-- The argument that stands at the first place of a name among the parameters. -/
def argumentFor? (parameters : List String) (arguments : List TypeRef) (name : String) : Option TypeRef :=
  (parameters.zip arguments).lookup name

mutual

/-- Parameters without an argument stay as they are. -/
def substitute (parameters : List String) (arguments : List TypeRef) : TypeRef → TypeRef
  | .named type args => .named type (substituteAll parameters arguments args)
  | .parameter name => (argumentFor? parameters arguments name).getD (.parameter name)
  | .array element rank => .array (substitute parameters arguments element) rank
  | .nullable inner => .nullable (substitute parameters arguments inner)

def substituteAll (parameters : List String) (arguments : List TypeRef) : List TypeRef → List TypeRef
  | [] => []
  | r :: rest => substitute parameters arguments r :: substituteAll parameters arguments rest

end

theorem substituteAll_eq_map (parameters : List String) (arguments refs : List TypeRef) :
    substituteAll parameters arguments refs = refs.map (substitute parameters arguments) := by
  induction refs with
  | nil => rfl
  | cons r rest ih => simp [substituteAll, ih]

mutual

/-- The names of the type parameters that a reference mentions, from left to right. -/
def parameters : TypeRef → List String
  | .named _ arguments => parametersOfAll arguments
  | .parameter name => [name]
  | .array element _ => element.parameters
  | .nullable inner => inner.parameters

def parametersOfAll : List TypeRef → List String
  | [] => []
  | r :: rest => r.parameters ++ parametersOfAll rest

end

theorem parametersOfAll_eq_flatMap (refs : List TypeRef) :
    parametersOfAll refs = refs.flatMap parameters := by
  induction refs with
  | nil => rfl
  | cons r rest ih => simp [parametersOfAll, ih]

end TypeRef

/-- A type parameter with its constraints. -/
structure TypeParameter where
  name : String
  isReference : Bool := false
  isValue : Bool := false
  hasConstructor : Bool := false
  bounds : List TypeRef := []
  deriving Inhabited

def TypeParameter.isConstrained (p : TypeParameter) : Bool :=
  p.isReference || p.isValue || p.hasConstructor || !p.bounds.isEmpty

/-! ## Signatures -/

structure Parameter where
  name : String
  type : TypeRef
  deriving Inhabited

structure Signature where
  result : TypeRef
  parameters : List Parameter
  deriving Inhabited

def Parameter.substitute (names : List String) (arguments : List TypeRef) (p : Parameter) : Parameter :=
  { p with type := p.type.substitute names arguments }

def Signature.substitute (names : List String) (arguments : List TypeRef) (s : Signature) : Signature where
  result := s.result.substitute names arguments
  parameters := s.parameters.map (·.substitute names arguments)

end EventWrap
