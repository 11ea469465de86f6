import EventWrap.Command.Inspection

/-!
# Validating a program

Warnings about triggers that ask for nothing and about requests without events. A program that
cannot be loaded is invalid, and with `strict` so is one with warnings.
-/

namespace EventWrap

open Json

inductive Warning where
  /-- A call of the factory method's name binds elsewhere. -/
  | unboundCall (location : Location) (method holder : String)
  | argumentCount (location : Location) (method : String) (given : Nat)
  /-- The marker's first argument is no type. -/
  | untypedMarker (location : Location) (marker : String)
  | noRequests
  | noEvents (location : Location) (typeName : String) (mode : WrapperMode)
  deriving DecidableEq, Inhabited

def Warning.toText : Warning → String
  | unboundCall location method holder => location.toText ++ ": '" ++ method ++ "' call does not bind to " ++ holder
  | argumentCount location method given =>
    location.toText ++ ": '" ++ method ++ "' call has " ++ toString given ++ " type arguments, expected 1"
  | untypedMarker location marker => location.toText ++ ": " ++ marker ++ " has no typeof argument"
  | noRequests => "Model contains no wrap requests"
  | noEvents location typeName mode =>
    location.toText ++ ": type '" ++ typeName ++ "' does not have any public " ++ mode.word ++ " events to wrap"

structure Validation where
  isValid : Bool := true
  path : String
  types : Nat := 0
  instanceRequests : Nat := 0
  staticRequests : Nat := 0
  warnings : List Warning := []
  errors : List String := []
  deriving DecidableEq, Inhabited

/-! ## Checks -/

namespace Program

variable (p : Program) (s : Settings)

def callWarning? (i : Invocation) : Option Warning :=
  if i.method ≠ s.factoryMethod then none
  else if i.container ≠ p.resolve? s.holderName then some (.unboundCall i.location i.method s.holderName)
  else if i.typeArguments.length ≠ 1 then some (.argumentCount i.location i.method i.typeArguments.length)
  else none

def markerWarning? (a : Attribute) : Option Warning :=
  if a.className = s.markerName ∧ a.typeArgument?.isNone then some (.untypedMarker a.location s.staticAttribute)
  else none

def requestWarning? (r : Request) : Option Warning :=
  if (p.inspectedEvents r).isEmpty then some (.noEvents r.location (p.qualifiedName r.type) r.mode) else none

/-- The warnings about triggers, whether or not requests can be discovered. -/
def triggerWarnings : List Warning :=
  p.invocations.filterMap (p.callWarning? s) ++ p.assemblyAttributes.filterMap (markerWarning? s)

def requestWarnings (r : Requests) : List Warning :=
  (if r.isEmpty then [.noRequests] else []) ++ r.toList.filterMap p.requestWarning?

def validate (path : String) : Validation :=
  match p.discover s with
  | .ok r => {
      path := path
      types := p.size
      instanceRequests := r.ofInstances.length
      staticRequests := r.ofStatics.length
      warnings := p.triggerWarnings s ++ p.requestWarnings r }
  | .error e => {
      isValid := false, path := path, types := p.size, warnings := p.triggerWarnings s, errors := [e.message] }

end Program

namespace Validation

/-- A program that could not be loaded. -/
def ofError (path message : String) : Validation := { isValid := false, path := path, errors := [message] }

/-- With `strict`, warnings count as errors. -/
def judged (strict : Bool) (v : Validation) : Validation :=
  { v with isValid := v.isValid && !(strict && !v.warnings.isEmpty) }

/-! ## Showing -/

def toJson (v : Validation) : Json :=
  record [("valid", .bool v.isValid), ("path", text v.path), ("types", nat v.types),
    ("instance_requests", nat v.instanceRequests), ("static_requests", nat v.staticRequests),
    ("warnings", .arr (v.warnings.map fun w => text w.toText)), ("errors", .arr (v.errors.map text))]

def toText (v : Validation) : String :=
  (if v.isValid then
    "Model is valid: " ++ v.path ++ "\n  Types: " ++ toString v.types ++ "\n  Instance requests: " ++
      toString v.instanceRequests ++ "\n  Static requests: " ++ toString v.staticRequests ++ "\n"
  else
    "Model is INVALID: " ++ v.path ++ "\n" ++ String.join (v.errors.map fun e => "  Error: " ++ e ++ "\n")) ++
  if v.warnings.isEmpty then ""
  else "\nWarnings:\n" ++ String.join (v.warnings.map fun w => "  - " ++ w.toText ++ "\n")

end Validation

end EventWrap
