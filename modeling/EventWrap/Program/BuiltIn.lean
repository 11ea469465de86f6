/-!
# Built-in types

The types of namespace `System` that C# writes as a keyword.
-/

namespace EventWrap

inductive BuiltIn where
  | object | void | boolean | char | sbyte | byte | int16 | uint16 | int32 | uint32
  | int64 | uint64 | single | double | decimal | string
  deriving DecidableEq, Inhabited

namespace BuiltIn

/-- All of them, in the order of their declaration in the core library. -/
def all : List BuiltIn :=
  [.object, .void, .boolean, .char, .sbyte, .byte, .int16, .uint16, .int32, .uint32,
    .int64, .uint64, .single, .double, .decimal, .string]

def keyword : BuiltIn → String
  | .object => "object"
  | .void => "void"
  | .boolean => "bool"
  | .char => "char"
  | .sbyte => "sbyte"
  | .byte => "byte"
  | .int16 => "short"
  | .uint16 => "ushort"
  | .int32 => "int"
  | .uint32 => "uint"
  | .int64 => "long"
  | .uint64 => "ulong"
  | .single => "float"
  | .double => "double"
  | .decimal => "decimal"
  | .string => "string"

/-- The simple name in namespace `System`. -/
def systemName : BuiltIn → String
  | .object => "Object"
  | .void => "Void"
  | .boolean => "Boolean"
  | .char => "Char"
  | .sbyte => "SByte"
  | .byte => "Byte"
  | .int16 => "Int16"
  | .uint16 => "UInt16"
  | .int32 => "Int32"
  | .uint32 => "UInt32"
  | .int64 => "Int64"
  | .uint64 => "UInt64"
  | .single => "Single"
  | .double => "Double"
  | .decimal => "Decimal"
  | .string => "String"

def ofKeyword? (word : String) : Option BuiltIn := all.find? (·.keyword == word)

def ofSystemName? (name : String) : Option BuiltIn := all.find? (·.systemName == name)

def isValueType : BuiltIn → Bool
  | .object | .string => false
  | _ => true

theorem mem_all (b : BuiltIn) : b ∈ all := by cases b <;> decide

theorem ofKeyword?_keyword (b : BuiltIn) : ofKeyword? b.keyword = some b := by cases b <;> rfl

end BuiltIn

end EventWrap
