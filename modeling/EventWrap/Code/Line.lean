/-!
# Lines of code

A line is a text at a level of indentation. A fragment is text that may run over several lines: it
continues the line it is put on, and the lines after that one stand at levels of their own.
-/

namespace EventWrap.Code

structure Line where
  level : Nat
  text : String
  deriving DecidableEq, Inhabited

namespace Line

/-- The line with nothing on it. -/
def empty : Line := ⟨0, ""⟩

def indentation (level : Nat) : String := String.ofList (List.replicate (4 * level) ' ')

/-- The line as written, four blanks a level, with its end. -/
def toText (l : Line) : String := indentation l.level ++ l.text ++ "\n"

def textOf (lines : List Line) : String := String.join (lines.map toText)

end Line

structure Fragment where
  head : String
  rest : List Line := []
  deriving DecidableEq, Inhabited

namespace Fragment

/-- Puts text at the end of the last of some lines. -/
def extendLast (lines : List Line) (text : String) : List Line :=
  match lines.getLast? with
  | none => []
  | some last => lines.dropLast ++ [{ last with text := last.text ++ text }]

/-- The second fragment continues the last line of the first. -/
def append (a b : Fragment) : Fragment :=
  match a.rest with
  | [] => ⟨a.head ++ b.head, b.rest⟩
  | rest => ⟨a.head, extendLast rest b.head ++ b.rest⟩

instance : Append Fragment := ⟨append⟩

/-- Text on one line. -/
def ofText (text : String) : Fragment := ⟨text, []⟩

instance : Coe String Fragment := ⟨ofText⟩

/-- Fragments with a comma between any two. -/
def commaSeparated : List Fragment → Fragment
  | [] => ofText ""
  | [f] => f
  | f :: rest => f ++ (ofText ", " ++ commaSeparated rest)

/-- The lines of a fragment that starts a line. -/
def toLines (level : Nat) (f : Fragment) : List Line := ⟨level, f.head⟩ :: f.rest

/-- The text of a fragment, without an end of its last line. -/
def toText (f : Fragment) : String :=
  f.head ++ String.join (f.rest.map fun l => "\n" ++ Line.indentation l.level ++ l.text)

end Fragment

end EventWrap.Code
