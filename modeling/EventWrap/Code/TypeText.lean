import EventWrap.Code.Identifier
import EventWrap.Program.Basic

/-!
# Types in code

How a type reference is written: built-in types by keyword, all other named types in full from the
global namespace, with the types around them open over their own parameters.
-/

namespace EventWrap

/-- The levels of a path, each with a text of its own, after the namespace. -/
def Nesting.pathText (path : Nesting) (levelTexts : List String) : String :=
  qualify path.namespaceName (".".intercalate levelTexts)

namespace Program

/-- Arguments in angle brackets, or nothing without arguments. -/
def argumentsText (arguments : List String) : String :=
  if arguments.isEmpty then "" else "<" ++ ", ".intercalate arguments ++ ">"

/-- A declaration's name with its own parameters as arguments. -/
def openText (d : Declaration) : String := d.name ++ argumentsText (d.parameterNames.map Code.escape)

/-- A named type, given the texts of its own arguments. -/
def namedText (p : Program) (id : TypeId) (arguments : List String) : String :=
  let path := p.nesting id
  "global::" ++ path.pathText
    (path.dropLast.map openText ++ [(p.declaration id).name ++ argumentsText arguments])

/-- The brackets of an array type: a comma less than its rank. -/
def rankText (rank : UInt32) : String := "[" ++ String.ofList (List.replicate (rank.toNat - 1) ',') ++ "]"

mutual

def typeText (p : Program) : TypeRef → String
  | .named id arguments => match (p.declaration id).builtIn with
    | some b => b.keyword
    | none => p.namedText id (typeTexts p arguments)
  | .parameter name => Code.escape name
  | .array element rank => typeText p element ++ rankText rank
  | .nullable inner => typeText p inner ++ "?"

def typeTexts (p : Program) : List TypeRef → List String
  | [] => []
  | r :: rest => typeText p r :: typeTexts p rest

end

/-- A declared type over its own parameters. -/
def definitionText (p : Program) (id : TypeId) : String :=
  p.typeText (.named id (p.declaration id).ownArguments)

/-- A level of a reference in documentation, where braces hold the parameters. -/
def crefLevel (d : Declaration) : String :=
  if d.isGeneric then d.name ++ "\x7b" ++ ", ".intercalate d.parameterNames ++ "\x7d" else d.name

/-- A declared type as documentation refers to it. -/
def cref (p : Program) (id : TypeId) : String :=
  let path := p.nesting id
  "global::" ++ path.pathText (path.map crefLevel)

end Program

end EventWrap
