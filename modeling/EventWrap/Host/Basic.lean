import EventWrap.Pass.Event
import EventWrap.Text.Blank

/-!
# Hosts

A host takes the units of a pass under their hint names, or refuses them, is told of diagnostics
and events, and may want the pass to stop.
-/

namespace EventWrap

/-- Why a host did not take a unit. -/
inductive HostError where
  | io (cause : String)
  | invalidFileName (name reason : String)
  | cancelled
  deriving DecidableEq, Inhabited

def HostError.message : HostError → String
  | io cause => "IO error: " ++ cause
  | invalidFileName name reason => "Invalid file name '" ++ name ++ "': " ++ reason
  | cancelled => "Generation cancelled by host"

/-- What a pass asks of a host, whose state has type `σ`. -/
structure Host (σ : Type) where
  offer : String → String → σ → Except HostError Unit × σ
  report : Diagnostic → σ → σ
  /-- Tells of an event of the pass. -/
  notify : PassEvent → σ → σ
  cancelled : σ → Bool

/-! ## Hint names -/

namespace HintName

def isSeparator (c : Char) : Bool := c == '/' || c == '\\' || c == ':'

def isForbidden (c : Char) : Bool :=
  Text.isControl c || c == '"' || c == '<' || c == '>' || c == '|' || c == '?' || c == '*'

def endsInCs (name : List Char) : Bool := name.reverse.take 3 == ['s', 'c', '.']

/-- What makes a hint name unfit for a file name, if anything does. -/
def fault? (name : String) : Option String :=
  let chars := name.toList
  if Text.isBlankText name then some "name is empty"
  else if chars.any isSeparator then some "name contains a path separator"
  else if chars.head? = some '.' then some "name starts with '.'"
  else if chars.any isForbidden then some "name contains a reserved character"
  else if !endsInCs chars then some "name must end with '.cs'"
  else none

/-- A hint name is accepted when it is a plain file name that ends in `.cs`. -/
def validate (name : String) : Except HostError Unit :=
  match fault? name with
  | some reason => .error (.invalidFileName name reason)
  | none => .ok ()

end HintName

/-- The refusal of a second unit under one name. -/
def HostError.alreadyAdded (name : String) : HostError := .invalidFileName name "hint name was already added"

end EventWrap
