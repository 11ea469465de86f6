/-!
# Source locations
-/

namespace EventWrap

/-- A place in a source file, lines and columns counted from one. An empty file name is no place. -/
structure Location where
  file : String := ""
  line : UInt32 := 0
  column : UInt32 := 0
  deriving DecidableEq, Inhabited

namespace Location

def isUnknown (l : Location) : Bool := l.file.isEmpty

def toText (l : Location) : String :=
  if l.isUnknown then "<unknown>"
  else l.file ++ "(" ++ toString l.line.toNat ++ "," ++ toString l.column.toNat ++ ")"

end Location

end EventWrap
