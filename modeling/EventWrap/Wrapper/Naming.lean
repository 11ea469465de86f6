import EventWrap.Code.TypeText
import EventWrap.Wrapper.Mode

/-!
# Names of wrappers

A wrapper is named after its type and the types around it, lives in the namespace of the outermost
one, and is written to a file whose name tells the type, its parameters and the mode.
-/

namespace EventWrap.Program

/-- An outer type's share of a wrapper name. A generic one adds its arity. -/
def wrapperNameLevel (d : Declaration) : String :=
  if d.isGeneric then d.name ++ "_" ++ toString d.arity else d.name

def wrapperName (p : Program) (id : TypeId) : String :=
  "Rx" ++ String.join ((p.nesting id).dropLast.map wrapperNameLevel) ++ (p.declaration id).name ++ "Events"

def wrapperNamespace (p : Program) (id : TypeId) : String := (p.nesting id).namespaceName

/-- The wrapper class in full, given the type's own arguments. The parameters of the types around
come first, open. -/
def wrapperText (p : Program) (id : TypeId) (arguments : List TypeRef) : String :=
  let outer := (Nesting.typeParameters (p.nesting id).dropLast).map fun q => TypeRef.parameter q.name
  "global::" ++ qualify (p.wrapperNamespace id) (p.wrapperName id) ++
    argumentsText (p.typeTexts (outer ++ arguments))

/-- A level of a hint name: the name, then the parameters, each after a dash. -/
def hintLevel (d : Declaration) : String := d.name ++ String.join (d.parameterNames.map ("-" ++ ·))

/-- The name of the file that a wrapper is written to. -/
def hintName (p : Program) (id : TypeId) (mode : WrapperMode) : String :=
  let path := p.nesting id
  "SourceClass" ++ path.pathText (path.map hintLevel) ++ "-" ++ mode.fileSuffix ++ "Events.SourceGenerated.cs"

end EventWrap.Program
