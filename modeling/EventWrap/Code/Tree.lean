/-!
# Trees of code

The declarations, statements and expressions that generated code consists of. Types are carried as
written; structure above them is kept, so that code can be inspected before it is laid out.
-/

namespace EventWrap.Code

/-! ## Expressions and statements -/

inductive AssignOp where
  | set | add | subtract
  deriving DecidableEq, Inhabited

def AssignOp.token : AssignOp → String
  | .set => "="
  | .add => "+="
  | .subtract => "-="

/-- A formal parameter; a receiver is the first parameter of an extension method. -/
structure Formal where
  isReceiver : Bool := false
  type : String
  name : String
  deriving DecidableEq, Inhabited

mutual

inductive Expr where
  /-- A name as written, simple or qualified. -/
  | name (text : String)
  | string (value : String)
  | boolean (value : Bool)
  | member (target : Expr) (name : String)
  | call (target : Expr) (typeArguments : List String) (arguments : List Expr)
  | create (type : String) (arguments : List Expr)
  | lambda (parameters : List String) (body : Body)
  | tuple (items : List Expr)
  | assign (target : Expr) (op : AssignOp) (value : Expr)
  | raise (exception : Expr)

inductive Statement where
  | expression (e : Expr)
  | result (e : Expr)
  | localFunction (returnType name : String) (parameters : List Formal) (body : Body)

/-- What a lambda, a local function or a method does. -/
inductive Body where
  | expression (e : Expr)
  | block (statements : List Statement)

end

instance : Inhabited Expr := ⟨.name ""⟩
instance : Inhabited Body := ⟨.block []⟩
instance : Inhabited Statement := ⟨.result default⟩

/-! ## Declarations -/

inductive Modifier where
  | publicAccess | internalAccess | privateAccess | hiding | staticMember | sealedType | readOnly | partialType
  deriving DecidableEq, Inhabited

def Modifier.keyword : Modifier → String
  | .publicAccess => "public"
  | .internalAccess => "internal"
  | .privateAccess => "private"
  | .hiding => "new"
  | .staticMember => "static"
  | .sealedType => "sealed"
  | .readOnly => "readonly"
  | .partialType => "partial"

def Modifier.all : List Modifier :=
  [.publicAccess, .internalAccess, .privateAccess, .hiding, .staticMember, .sealedType, .readOnly, .partialType]

/-- A documentation comment; the texts may hold markup. -/
structure Doc where
  summary : String
  params : List (String × String) := []
  deriving DecidableEq, Inhabited

structure AttributeUse where
  name : String
  arguments : List Expr := []
  deriving Inhabited

/-- The constraints on one type parameter. -/
structure Constraint where
  parameter : String
  bounds : List String
  deriving DecidableEq, Inhabited

structure Field where
  modifiers : List Modifier := []
  type : String
  name : String
  deriving DecidableEq, Inhabited

structure Constructor where
  doc : Option Doc := none
  modifiers : List Modifier := []
  name : String
  parameters : List Formal := []
  /-- What is handed to the constructor of the base class, when it is named. -/
  baseArguments : Option (List Expr) := none
  body : List Statement := []
  deriving Inhabited

inductive Getter where
  | expression (e : Expr)
  /-- An automatic getter. -/
  | automatic
  deriving Inhabited

structure Property where
  doc : Option Doc := none
  attributes : List AttributeUse := []
  modifiers : List Modifier := []
  type : String
  name : String
  getter : Getter
  deriving Inhabited

structure Method where
  doc : Option Doc := none
  attributes : List AttributeUse := []
  modifiers : List Modifier := []
  returnType : String
  name : String
  typeParameters : List String := []
  parameters : List Formal := []
  constraints : List Constraint := []
  body : Body
  deriving Inhabited

inductive Member where
  | field (f : Field)
  | constructor (c : Constructor)
  | property (p : Property)
  | method (m : Method)
  deriving Inhabited

structure ClassBlock where
  doc : Option Doc := none
  attributes : List AttributeUse := []
  modifiers : List Modifier := []
  name : String
  typeParameters : List String := []
  base : Option String := none
  constraints : List Constraint := []
  members : List Member := []
  deriving Inhabited

namespace ClassBlock

def fields (c : ClassBlock) : List Field :=
  c.members.filterMap fun | .field f => some f | _ => none

def constructors (c : ClassBlock) : List Constructor :=
  c.members.filterMap fun | .constructor k => some k | _ => none

def properties (c : ClassBlock) : List Property :=
  c.members.filterMap fun | .property p => some p | _ => none

def methods (c : ClassBlock) : List Method :=
  c.members.filterMap fun | .method m => some m | _ => none

def property? (c : ClassBlock) (name : String) : Option Property := c.properties.find? (·.name == name)

def hasModifier (c : ClassBlock) (m : Modifier) : Bool := c.modifiers.contains m

end ClassBlock

/-! ## Units -/

structure NamespaceBlock where
  name : String
  classes : List ClassBlock
  deriving Inhabited

/-- A source file: comments, a directive, classes grouped by namespace, then those of no namespace. -/
structure SourceUnit where
  comments : List String := []
  nullable : Bool := false
  namespaces : List NamespaceBlock := []
  globals : List ClassBlock := []
  deriving Inhabited

namespace SourceUnit

/-- Adds a class to the first block of a namespace, or in a new block at the end. -/
def addToNamespace (name : String) (c : ClassBlock) : List NamespaceBlock → List NamespaceBlock
  | [] => [⟨name, [c]⟩]
  | block :: rest =>
    if block.name = name then { block with classes := block.classes ++ [c] } :: rest
    else block :: addToNamespace name c rest

theorem addToNamespace_cons (name : String) (c : ClassBlock) (block : NamespaceBlock)
    (rest : List NamespaceBlock) :
    addToNamespace name c (block :: rest) =
      if block.name = name then { block with classes := block.classes ++ [c] } :: rest
      else block :: addToNamespace name c rest := rfl

def addClass (u : SourceUnit) (namespaceName : String) (c : ClassBlock) : SourceUnit :=
  if namespaceName.isEmpty then { u with globals := u.globals ++ [c] }
  else { u with namespaces := addToNamespace namespaceName c u.namespaces }

/-- All classes in the order of the text. -/
def classes (u : SourceUnit) : List ClassBlock := u.namespaces.flatMap (·.classes) ++ u.globals

end SourceUnit

/-! ## Walking over expressions -/

mutual

/-- An expression and all expressions inside it, each before its parts. -/
def Expr.walk : Expr → List Expr
  | .name text => [.name text]
  | .string value => [.string value]
  | .boolean value => [.boolean value]
  | .member target name => .member target name :: target.walk
  | .call target types arguments => .call target types arguments :: (target.walk ++ walkAll arguments)
  | .create type arguments => .create type arguments :: walkAll arguments
  | .lambda parameters body => .lambda parameters body :: body.walk
  | .tuple items => .tuple items :: walkAll items
  | .assign target op value => .assign target op value :: (target.walk ++ value.walk)
  | .raise exception => .raise exception :: exception.walk

def walkAll : List Expr → List Expr
  | [] => []
  | e :: rest => e.walk ++ walkAll rest

def Statement.walk : Statement → List Expr
  | .expression e => e.walk
  | .result e => e.walk
  | .localFunction _ _ _ body => body.walk

def walkStatements : List Statement → List Expr
  | [] => []
  | s :: rest => s.walk ++ walkStatements rest

def Body.walk : Body → List Expr
  | .expression e => e.walk
  | .block statements => walkStatements statements

end

end EventWrap.Code
