import EventWrap.Program.CoreLibrary

/-!
# Eligible events

An event can be offered as an observable when it is public, has the staticness asked for, and its
delegate's signature returns nothing, a task or a value task. `describe?` says so and gives what is
known of the event.
-/

namespace EventWrap

/-- How the handlers of an event complete. -/
inductive ReturnKind where
  | void | task | valueTask
  deriving DecidableEq, Inhabited

structure EventDescriptor where
  name : String
  declaringType : TypeId
  /-- The delegate as seen from the type whose events are collected. -/
  delegate : TypeRef
  signature : Signature
  returnKind : ReturnKind
  isStatic : Bool
  obsolescence : Option Obsolescence
  deriving Inhabited

namespace Program

/-- The completion that a return type stands for. A constructed type stands for none. -/
def returnKind? (p : Program) (result : TypeRef) : Option ReturnKind :=
  if p.isBuiltIn result .void then some .void
  else match result with
    | .named id [] =>
      let name := p.metadataName id
      if name = CoreLibrary.taskName then some .task
      else if name = CoreLibrary.valueTaskName then some .valueTask
      else none
    | _ => none

/-- Whether an event is public and has the staticness asked for. -/
def isCandidate (isStatic : Bool) (e : EventDeclaration) : Bool :=
  e.accessibility = .everyone && e.isStatic == isStatic

/-- An event with its delegate as seen from the collecting type, when it is eligible. -/
def describe? (p : Program) (isStatic : Bool) (declaringType : TypeId) (e : EventDeclaration)
    (delegate : TypeRef) : Option EventDescriptor := do
  if isCandidate isStatic e then
    let signature ← p.signature? delegate
    if signature.result.isConstructed then none
    else
      let returnKind ← p.returnKind? signature.result
      return {
        name := e.name
        declaringType := declaringType
        delegate := delegate
        signature := signature
        returnKind := returnKind
        isStatic := e.isStatic
        obsolescence := e.obsolescence? }
  else none

end Program

end EventWrap
