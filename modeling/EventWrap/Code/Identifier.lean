/-!
# Identifiers

The reserved words of C#, and how a name that is one of them is written. Words that are reserved
only in some contexts may name things as they are.
-/

namespace EventWrap.Code

def reservedWords : List String :=
  ["abstract", "as", "base", "bool", "break", "byte", "case", "catch", "char", "checked", "class",
    "const", "continue", "decimal", "default", "delegate", "do", "double", "else", "enum", "event",
    "explicit", "extern", "false", "finally", "fixed", "float", "for", "foreach", "goto", "if",
    "implicit", "in", "int", "interface", "internal", "is", "lock", "long", "namespace", "new",
    "null", "object", "operator", "out", "override", "params", "private", "protected", "public",
    "readonly", "ref", "return", "sbyte", "sealed", "short", "sizeof", "stackalloc", "static",
    "string", "struct", "switch", "this", "throw", "true", "try", "typeof", "uint", "ulong",
    "unchecked", "unsafe", "ushort", "using", "virtual", "void", "volatile", "while"]

def isReserved (name : String) : Bool := reservedWords.contains name

/-- A name as it is written in code: a reserved word is marked by an at sign. -/
def escape (name : String) : String := if isReserved name then "@" ++ name else name

end EventWrap.Code
