import EventWrap.Program.Nesting

/-!
# Programs

A program is an arena of declarations with an index from metadata names to places, together with
the assembly's attributes and the invocations found in its code. Programs only grow: a new
declaration takes the next place, and it may be nested only in a type already there.
-/

namespace EventWrap

/-- The places of the core library's types that signatures commonly mention. -/
structure CoreTypes where
  object : TypeId
  void : TypeId
  string : TypeId
  boolean : TypeId
  int32 : TypeId
  int64 : TypeId
  double : TypeId
  eventArgs : TypeId
  eventHandler : TypeId
  eventHandlerOf1 : TypeId
  action : TypeId
  actionOf1 : TypeId
  actionOf2 : TypeId
  actionOf3 : TypeId
  funcOf1 : TypeId
  task : TypeId
  taskOf1 : TypeId
  valueTask : TypeId
  obsoleteAttribute : TypeId
  propertyChangedEventArgs : TypeId
  propertyChangedEventHandler : TypeId
  deriving DecidableEq, Inhabited

structure Program where
  types : Array Declaration := #[]
  /-- Metadata names and the places they stand for, the latest first. -/
  index : List (String × TypeId) := []
  assemblyAttributes : List Attribute := []
  invocations : List Invocation := []
  core : Option CoreTypes := none
  deriving Inhabited

namespace Program

/-! ## Looking up -/

def size (p : Program) : Nat := p.types.size

/-- The declaration at a place; an empty one outside the arena. -/
def declaration (p : Program) (id : TypeId) : Declaration := p.types.getD id {}

def resolve? (p : Program) (metadataName : String) : Option TypeId := p.index.lookup metadataName

def contains (p : Program) (metadataName : String) : Bool := (p.resolve? metadataName).isSome

/-- The declarations around a type, innermost first, up to a number of levels. -/
def nestingFrom (p : Program) : Nat → TypeId → List Declaration
  | 0, _ => []
  | levels + 1, id =>
    let d := p.declaration id
    d :: match d.container with
      | some outer => nestingFrom p levels outer
      | none => []

/-- A type is nested in types that were declared before it, so its place bounds the levels. -/
def nesting (p : Program) (id : TypeId) : Nesting := (p.nestingFrom (id + 1) id).reverse

/-- The nesting of a declaration that has no place yet. -/
def nestingOf (p : Program) (d : Declaration) : Nesting :=
  match d.container with
  | some outer => p.nesting outer ++ [d]
  | none => [d]

def metadataName (p : Program) (id : TypeId) : String := (p.nesting id).metadataName

def qualifiedName (p : Program) (id : TypeId) : String := (p.nesting id).qualifiedName

def typeParametersInScope (p : Program) (id : TypeId) : List TypeParameter := (p.nesting id).typeParameters

/-- The latest type declared as a built-in one. -/
def builtInType? (p : Program) (b : BuiltIn) : Option TypeId :=
  (List.range p.size).reverse.find? fun id => (p.declaration id).builtIn == some b

/-- Whether a reference names a built-in type, whatever its arguments. -/
def isBuiltIn (p : Program) (r : TypeRef) (b : BuiltIn) : Bool :=
  match r.namedType? with
  | some id => (p.declaration id).builtIn == some b
  | none => false

def baseType? (p : Program) (id : TypeId) : Option TypeId := (p.declaration id).base.bind (·.namedType?)

/-- The signature of a delegate type, which may be nullable, with its arguments in place of the
delegate's parameters. -/
def signature? (p : Program) (delegate : TypeRef) : Option Signature :=
  match delegate.stripNullable with
  | .named id arguments =>
    let d := p.declaration id
    d.invoke.map (·.substitute d.parameterNames arguments)
  | _ => none

def toText (p : Program) : String :=
  "ProgramModel \x7b types: " ++ toString p.size ++ ", assembly_attributes: " ++
    toString p.assemblyAttributes.length ++ ", invocations: " ++ toString p.invocations.length ++ " \x7d"

/-! ## Growing -/

/-- Adds a declaration at the next place, whether or not its name is taken. -/
def push (p : Program) (d : Declaration) : Program :=
  { p with
    types := p.types.push d
    index := ((p.nestingOf d).metadataName, p.size) :: p.index }

/-- Adds a declaration under a new name, or says which name is taken. -/
def add (p : Program) (d : Declaration) : Except String (TypeId × Program) :=
  let name := (p.nestingOf d).metadataName
  if p.contains name then .error name else .ok (p.size, p.push d)

def update (p : Program) (id : TypeId) (change : Declaration → Declaration) : Program :=
  { p with types := p.types.modify id change }

def addAssemblyAttribute (p : Program) (a : Attribute) : Program :=
  { p with assemblyAttributes := p.assemblyAttributes ++ [a] }

def addInvocation (p : Program) (i : Invocation) : Program :=
  { p with invocations := p.invocations ++ [i] }

end Program

end EventWrap
