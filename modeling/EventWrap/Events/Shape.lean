import EventWrap.Events.Descriptor

/-!
# Shapes of signatures

How the arguments of a handler become the one value of an observable: which element type it has,
and what a handler forwards. A sender is left out; an argument that is plain `EventArgs` carries
nothing and may be collapsed to the unit.
-/

namespace EventWrap

inductive ArgumentShape where
  /-- No parameters. -/
  | empty
  /-- Two parameters, the first an object. -/
  | senderAndArgument
  /-- One parameter. -/
  | single
  /-- All else. -/
  | multiple
  deriving DecidableEq, Inhabited

def ArgumentShape.toText : ArgumentShape → String
  | .empty => "empty"
  | .senderAndArgument => "sender+arg"
  | .single => "single"
  | .multiple => "multi"

/-- The word for a shape in JSON. -/
def ArgumentShape.word : ArgumentShape → String
  | .empty => "empty"
  | .senderAndArgument => "sender_and_single_arg"
  | .single => "single_arg"
  | .multiple => "multi_arg"

/-- The element type of an observable. -/
inductive Element where
  | unit
  | type (type : TypeRef)
  | tuple (items : List Parameter)
  deriving Inhabited

/-- What a handler hands on. -/
inductive Forwarding where
  | unit
  | parameter (name : String)
  | tuple (names : List String)
  deriving DecidableEq, Inhabited

structure Classification where
  shape : ArgumentShape
  element : Element
  forwarding : Forwarding
  deriving Inhabited

namespace Program

/-- Whether a type is `EventArgs` itself, neither constructed nor nullable. -/
def isPlainEventArgs (p : Program) : TypeRef → Bool
  | .named id [] => p.metadataName id == CoreLibrary.eventArgsName
  | _ => false

def isSender (p : Program) (q : Parameter) : Bool := p.isBuiltIn q.type.stripNullable .object

def classify (p : Program) (s : Signature) (collapse : Bool) : Classification :=
  match s.parameters with
  | [] => ⟨.empty, .unit, .unit⟩
  | [q] => ⟨.single, .type q.type, .parameter q.name⟩
  | [sender, argument] =>
    if p.isSender sender then
      if collapse && p.isPlainEventArgs argument.type then ⟨.senderAndArgument, .unit, .unit⟩
      else ⟨.senderAndArgument, .type argument.type, .parameter argument.name⟩
    else ⟨.multiple, .tuple [sender, argument], .tuple [sender.name, argument.name]⟩
  | many => ⟨.multiple, .tuple many, .tuple (many.map (·.name))⟩

end Program

end EventWrap
