import EventWrap.Events.Descriptor
import EventWrap.Occurrence

/-!
# Ancestors with events

The base chain of a type lists the types reached by following base types, each with its arguments
as seen from the start. It stops before a type that was already met, so that it is finite on every
program, and the number of types bounds its length.
-/

namespace EventWrap.Program

/-- A type with the arguments it is constructed with. -/
abbrev Constructed := TypeId × List TypeRef

/-! ## The base chain -/

/-- The base of a type, with arguments as seen from the type's own arguments. -/
def baseSeenFrom (p : Program) (current : Constructed) : Option Constructed :=
  let d := p.declaration current.1
  match d.base with
  | some (.named base arguments) =>
    some (base, TypeRef.substituteAll d.parameterNames current.2 arguments)
  | _ => none

def baseChainFrom (p : Program) : Nat → List TypeId → Constructed → List Constructed
  | 0, _, _ => []
  | steps + 1, met, current =>
    match p.baseSeenFrom current with
    | some base => if base.1 ∈ met then [] else base :: baseChainFrom p steps (base.1 :: met) base
    | none => []

/-- The bases of a type, nearest first. -/
def baseChain (p : Program) (id : TypeId) : List Constructed :=
  p.baseChainFrom (p.size + 1) [id] (id, (p.declaration id).ownArguments)

/-! ## Eligibility of a type's own events -/

/-- The events of a type whose name no earlier event of the type has. -/
def distinctEvents (p : Program) (id : TypeId) : List EventDeclaration :=
  Occurrence.firsts (·.name) [] (p.declaration id).events

/-- Whether a type itself declares an eligible event. -/
def hasEligibleEvents (p : Program) (id : TypeId) (isStatic : Bool) : Bool :=
  (p.distinctEvents id).any fun e => (p.describe? isStatic id e e.delegate).isSome

/-- The bases of a type that declare eligible events, nearest first. -/
def ancestorsWithEvents (p : Program) (id : TypeId) (isStatic : Bool) : List Constructed :=
  (p.baseChain id).filter fun base => p.hasEligibleEvents base.1 isStatic

end EventWrap.Program
