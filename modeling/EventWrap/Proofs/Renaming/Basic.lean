import EventWrap.Events.Collected
import EventWrap.Pass.Request
import EventWrap.Proofs.Program.TypeRef

/-!
# Renaming of places

The places that types have in their program can be renamed in everything that mentions them.
Renaming replaces places only: names, texts and locations stay, and it commutes with
substitution.
-/

namespace EventWrap

variable (σ : TypeId → TypeId)

/-! ## References -/

namespace TypeRef

mutual

/-- The reference with every place renamed. -/
def rename : TypeRef → TypeRef
  | .named type arguments => .named (σ type) (renameAll arguments)
  | .parameter name => .parameter name
  | .array element rank => .array (rename element) rank
  | .nullable inner => .nullable (rename inner)

def renameAll : List TypeRef → List TypeRef
  | [] => []
  | r :: rest => rename r :: renameAll rest

end

theorem renameAll_eq_map (refs : List TypeRef) : renameAll σ refs = refs.map (rename σ) := by
  induction refs with
  | nil => rfl
  | cons r rest ih => rw [renameAll, ih, List.map_cons]

mutual

theorem rename_id : ∀ r : TypeRef, r.rename id = r
  | .named type arguments => by rw [rename, renameAll_id arguments, id]
  | .parameter name => rfl
  | .array element rank => by rw [rename, rename_id element]
  | .nullable inner => by rw [rename, rename_id inner]

theorem renameAll_id : ∀ refs : List TypeRef, renameAll id refs = refs
  | [] => rfl
  | r :: rest => by rw [renameAll, rename_id r, renameAll_id rest]

end

@[simp] theorem namedType?_rename (r : TypeRef) : (r.rename σ).namedType? = r.namedType?.map σ := by
  cases r <;> rfl

@[simp] theorem isConstructed_rename (r : TypeRef) :
    (r.rename σ).isConstructed = r.isConstructed := by
  cases r with
  | named type arguments => cases arguments <;> rfl
  | parameter => rfl
  | array => rfl
  | nullable => rfl

@[simp] theorem stripNullable_rename (r : TypeRef) :
    (r.rename σ).stripNullable = r.stripNullable.rename σ := by
  cases r <;> rfl

mutual

theorem rename_substitute (parameters : List String) (arguments : List TypeRef) :
    ∀ r : TypeRef, (substitute parameters arguments r).rename σ =
      substitute parameters (arguments.map (rename σ)) (r.rename σ)
  | .named type args => by
    rw [substitute, rename, rename, substitute, renameAll_substituteAll parameters arguments args]
  | .parameter name => by
    rw [substitute, rename, substitute, argumentFor?_map]
    cases argumentFor? parameters arguments name <;> rfl
  | .array element rank => by
    rw [substitute, rename, rename, substitute, rename_substitute parameters arguments element]
  | .nullable inner => by
    rw [substitute, rename, rename, substitute, rename_substitute parameters arguments inner]

theorem renameAll_substituteAll (parameters : List String) (arguments : List TypeRef) :
    ∀ refs : List TypeRef, renameAll σ (substituteAll parameters arguments refs) =
      substituteAll parameters (arguments.map (rename σ)) (renameAll σ refs)
  | [] => rfl
  | r :: rest => by
    rw [substituteAll, renameAll, renameAll, substituteAll,
      rename_substitute parameters arguments r, renameAll_substituteAll parameters arguments rest]

end

end TypeRef

/-! ## Signatures and attributes -/

def TypeParameter.rename (q : TypeParameter) : TypeParameter :=
  { q with bounds := q.bounds.map (·.rename σ) }

def Parameter.rename (q : Parameter) : Parameter := { q with type := q.type.rename σ }

def Signature.rename (s : Signature) : Signature where
  result := s.result.rename σ
  parameters := s.parameters.map (·.rename σ)

theorem Signature.rename_substitute (names : List String) (arguments : List TypeRef)
    (s : Signature) :
    (s.substitute names arguments).rename σ =
      (s.rename σ).substitute names (arguments.map (·.rename σ)) := by
  simp only [Signature.substitute, Signature.rename, TypeRef.rename_substitute, List.map_map,
    Function.comp_def, Parameter.substitute, Parameter.rename]

def Attribute.Argument.rename : Attribute.Argument → Attribute.Argument
  | .typeOf type => .typeOf (type.rename σ)
  | a => a

def Attribute.rename (a : Attribute) : Attribute :=
  { a with arguments := a.arguments.map (·.rename σ) }

@[simp] theorem Attribute.Argument.text?_rename (a : Attribute.Argument) :
    (a.rename σ).text? = a.text? := by
  cases a <;> rfl

@[simp] theorem Attribute.Argument.flag?_rename (a : Attribute.Argument) :
    (a.rename σ).flag? = a.flag? := by
  cases a <;> rfl

theorem Attribute.typeArgument?_rename (a : Attribute) :
    (a.rename σ).typeArgument? = a.typeArgument?.map (·.rename σ) := by
  rcases a with ⟨className, _ | ⟨first, rest⟩, location⟩
  · rfl
  · cases first <;> rfl

/-- What attributes say of obsolescence mentions no places. -/
theorem Obsolescence.ofAttributes?_rename (attributes : List Attribute) :
    ofAttributes? (attributes.map (·.rename σ)) = ofAttributes? attributes := by
  unfold ofAttributes?
  rw [List.find?_map, Option.map_map]
  apply Option.map_congr
  intro a _
  simp only [Attribute.rename, List.getElem?_map, Option.bind_map, Function.comp_def,
    Attribute.Argument.text?_rename, Attribute.Argument.flag?_rename]

/-! ## Declarations -/

def EventDeclaration.rename (e : EventDeclaration) : EventDeclaration :=
  { e with delegate := e.delegate.rename σ, attributes := e.attributes.map (·.rename σ) }

theorem EventDeclaration.obsolescence?_rename (e : EventDeclaration) :
    (e.rename σ).obsolescence? = e.obsolescence? :=
  Obsolescence.ofAttributes?_rename σ e.attributes

def Declaration.rename (d : Declaration) : Declaration :=
  { d with
    container := d.container.map σ
    typeParameters := d.typeParameters.map (·.rename σ)
    base := d.base.map (·.rename σ)
    events := d.events.map (·.rename σ)
    attributes := d.attributes.map (·.rename σ)
    invoke := d.invoke.map (·.rename σ) }

def Invocation.rename (i : Invocation) : Invocation :=
  { i with container := i.container.map σ, typeArguments := i.typeArguments.map (·.rename σ) }

def Request.rename (r : Request) : Request := { r with type := σ r.type }

/-! ## Renaming nothing -/

section Identity

/-- A list is kept when each of its entries is. -/
theorem map_eq_self {α : Type} {f : α → α} (hf : ∀ a, f a = a) (l : List α) : l.map f = l := by
  rw [funext hf]
  exact List.map_id l

theorem optionMap_eq_self {α : Type} {f : α → α} (hf : ∀ a, f a = a) (o : Option α) :
    o.map f = o := by
  rw [funext hf]
  exact Option.map_id'

theorem TypeParameter.rename_id (q : TypeParameter) : q.rename id = q := by
  rw [rename, map_eq_self TypeRef.rename_id]

theorem Parameter.rename_id (q : Parameter) : q.rename id = q := by rw [rename, TypeRef.rename_id]

theorem Signature.rename_id (s : Signature) : s.rename id = s := by
  rw [rename, TypeRef.rename_id, map_eq_self Parameter.rename_id]

theorem Attribute.Argument.rename_id (a : Attribute.Argument) : a.rename id = a := by
  cases a with
  | typeOf r => rw [rename, TypeRef.rename_id]
  | text | flag | number | null => rfl

theorem Attribute.rename_id (a : Attribute) : a.rename id = a := by
  rw [rename, map_eq_self Argument.rename_id]

theorem EventDeclaration.rename_id (e : EventDeclaration) : e.rename id = e := by
  rw [rename, TypeRef.rename_id, map_eq_self Attribute.rename_id]

theorem Invocation.rename_id (i : Invocation) : i.rename id = i := by
  rw [rename, map_eq_self TypeRef.rename_id, Option.map_id_fun, id]

end Identity

/-! ## Events -/

def EventDescriptor.rename (e : EventDescriptor) : EventDescriptor :=
  { e with
    declaringType := σ e.declaringType
    delegate := e.delegate.rename σ
    signature := e.signature.rename σ }

def TypeEvents.rename (t : TypeEvents) : TypeEvents where
  type := σ t.type
  events := t.events.map (·.rename σ)

@[simp] theorem TypeEvents.names_rename (t : TypeEvents) : (t.rename σ).names = t.names := by
  simp only [names, rename, List.map_map, Function.comp_def, EventDescriptor.rename]

@[simp] theorem TypeEvents.isEmpty_rename (t : TypeEvents) : (t.rename σ).isEmpty = t.isEmpty := by
  simp only [isEmpty, rename, List.isEmpty_map]

/-- A type with its arguments, renamed. -/
def Program.Constructed.rename (c : Program.Constructed) : Program.Constructed :=
  (σ c.1, c.2.map (·.rename σ))

end EventWrap
