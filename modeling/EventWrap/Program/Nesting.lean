import EventWrap.Program.Declaration

/-!
# Nesting of types

A type is seen through the declarations around it, from the outermost one to its own. Its names
are read off this path; the namespace is that of the outermost declaration.
-/

namespace EventWrap

abbrev Nesting := List Declaration

/-- A name inside a namespace, which may be the global one. -/
def qualify (namespaceName name : String) : String :=
  if namespaceName.isEmpty then name else namespaceName ++ "." ++ name

namespace Nesting

def namespaceName (path : Nesting) : String := (path.head?.map (·.namespaceName)).getD ""

/-- The name that identifies a type in its program: nested levels follow a plus sign. -/
def metadataName (path : Nesting) : String :=
  qualify path.namespaceName ("+".intercalate (path.map (·.simpleName)))

/-- The name as written in code, without type arguments. -/
def qualifiedName (path : Nesting) : String :=
  qualify path.namespaceName (".".intercalate (path.map (·.name)))

/-- The type parameters visible inside the innermost type, outermost first. -/
def typeParameters (path : Nesting) : List TypeParameter := path.flatMap (·.typeParameters)

end Nesting

end EventWrap
