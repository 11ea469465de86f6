import EventWrap.Occurrence
import EventWrap.Program.Basic
import EventWrap.Settings
import EventWrap.Sorting
import EventWrap.Wrapper.Mode

/-!
# Requests

What a program asks to have wrapped: instance wrappers by calls of the factory method, static ones
by attributes of the assembly. Of several requests for one type and mode the first counts, and the
requests are answered in the order of the types' names, static ones first.
-/

namespace EventWrap

structure Request where
  type : TypeId
  mode : WrapperMode
  location : Location
  deriving DecidableEq, Inhabited

structure Requests where
  ofInstances : List Request := []
  ofStatics : List Request := []
  /-- The requests that an earlier one for the same type and mode made needless. -/
  repeated : List Request := []
  deriving DecidableEq, Inhabited

namespace Requests

/-- The requests in the order in which they are answered. -/
def toList (r : Requests) : List Request := r.ofStatics ++ r.ofInstances

def isEmpty (r : Requests) : Bool := r.toList.isEmpty

end Requests

/-- Why a pass came to no end. -/
inductive PassError where
  /-- No class holds the factory method, so that no call can have bound to it. -/
  | missingHolder (name : String)
  | cancelled
  deriving DecidableEq, Inhabited

def PassError.message : PassError → String
  | missingHolder name => "Cannot find the extension method holder '" ++ name ++ "'"
  | cancelled => "Generation was cancelled"

namespace Program

variable (p : Program) (s : Settings)

/-- What an invocation asks for, when it is a call of the holder's factory method on a declared type. -/
def instanceRequest? (holder : TypeId) (i : Invocation) : Option Request :=
  if i.method = s.factoryMethod ∧ i.container = some holder then
    match i.typeArguments with
    | [argument] => argument.stripNullable.namedType?.map fun id => ⟨id, .ofInstance, i.location⟩
    | _ => none
  else none

/-- What an attribute of the assembly asks for, when it is the marker with a declared type. -/
def staticRequest? (a : Attribute) : Option Request :=
  if a.className = s.markerName then
    (a.typeArgument?.bind (·.namedType?)).map fun id => ⟨id, .ofStatics, a.location⟩
  else none

/-- The first request for every type, in the order of the types' names. -/
def firstRequests (requests : List Request) : List Request :=
  sortedBy (fun r => p.metadataName r.type) (Occurrence.firsts (fun r => p.metadataName r.type) [] requests)

def repeatedRequests (requests : List Request) : List Request :=
  Occurrence.repeats (fun r => p.metadataName r.type) [] requests

/-- All requests that a program makes. -/
def discover : Except PassError Requests :=
  match p.resolve? s.holderName with
  | none => .error (.missingHolder s.holderName)
  | some holder =>
    let ofInstances := p.invocations.filterMap (instanceRequest? s holder)
    let ofStatics := p.assemblyAttributes.filterMap (staticRequest? s)
    .ok {
      ofInstances := p.firstRequests ofInstances
      ofStatics := p.firstRequests ofStatics
      repeated := p.repeatedRequests ofInstances ++ p.repeatedRequests ofStatics }

end Program

end EventWrap
