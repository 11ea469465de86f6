import EventWrap.Events.Ancestry
import EventWrap.Proofs.Document.Scoping
import EventWrap.Proofs.Program.TypeRef

/-!
# Applied references

A substitution leaves a type parameter in place where it has no argument for it, and a type that is
nested in a generic one is written with the parameters of that one open. Neither happens where every
named type has all of its arguments and no type around it is generic: what is seen through such a
reference mentions the type parameters that the reference mentions. Where there is an argument for
every parameter that a reference mentions, substitution in the result is substitution in the
arguments.
-/

namespace EventWrap

namespace Program

/-- The names of the type parameters in scope of a type. -/
def scopeNames (p : Program) (id : TypeId) : List String :=
  (p.typeParametersInScope id).map (·.name)

/-- The names of the type parameters of the types around a type. -/
def outerNames (p : Program) (id : TypeId) : List String :=
  (Nesting.typeParameters (p.nesting id).dropLast).map (·.name)

/-- The path to a type ends with its own declaration. -/
theorem nesting_eq_dropLast_append (p : Program) (id : TypeId) :
    p.nesting id = (p.nesting id).dropLast ++ [p.declaration id] := by
  rw [nesting, nestingFrom_succ, List.reverse_cons, List.dropLast_concat]

theorem scopeNames_eq (p : Program) (id : TypeId) :
    p.scopeNames id = p.outerNames id ++ (p.declaration id).parameterNames := by
  rw [scopeNames, typeParametersInScope, nesting_eq_dropLast_append, Nesting.typeParameters,
    List.flatMap_append, List.map_append, List.flatMap_singleton]
  rfl

theorem parameterNames_subset_scopeNames (p : Program) (id : TypeId) :
    (p.declaration id).parameterNames ⊆ p.scopeNames id := by
  rw [scopeNames_eq]
  exact List.subset_append_right _ _

/-- In scope of a type are the parameters in scope of the type around it, and its own. -/
theorem typeParametersInScope_eq {p : Program} (h : p.OuterFirst) (id : TypeId) :
    p.typeParametersInScope id =
      (p.declaration id).container.toList.flatMap p.typeParametersInScope ++
        (p.declaration id).typeParameters := by
  rw [typeParametersInScope, nesting_eq h, nestingOf]
  cases (p.declaration id).container with
  | none =>
    rw [Nesting.typeParameters, List.flatMap_singleton, Option.toList_none, List.flatMap_nil,
      List.nil_append]
  | some outer =>
    rw [Nesting.typeParameters, List.flatMap_append, List.flatMap_singleton, Option.toList_some,
      List.flatMap_singleton]
    rfl

theorem scopeNames_subset_of_container {p : Program} (h : p.OuterFirst) {id outer : TypeId}
    (hc : (p.declaration id).container = some outer) : p.scopeNames outer ⊆ p.scopeNames id := by
  rw [scopeNames, scopeNames, typeParametersInScope_eq h id, hc, Option.toList_some,
    List.flatMap_singleton, List.map_append]
  exact List.subset_append_left _ _

theorem outerNames_eq_nil {p : Program} {id : TypeId}
    (h : ∀ outer ∈ (p.nesting id).dropLast, outer.isGeneric = false) : p.outerNames id = [] := by
  rw [outerNames, Nesting.typeParameters, List.map_eq_nil_iff, List.flatMap_eq_nil_iff]
  intro outer houter
  simpa [Declaration.isGeneric] using h outer houter

end Program

namespace TypeRef

variable {p : Program} {names : List String}

/-! ## Applied types -/

/-- Every type that a reference names has all of its arguments, and is not nested in a generic
type. -/
inductive Applied (p : Program) : TypeRef → Prop
  | named {type : TypeId} {arguments : List TypeRef}
      (all : arguments.length = (p.declaration type).arity)
      (plain : ∀ outer ∈ (p.nesting type).dropLast, outer.isGeneric = false)
      (among : ∀ r ∈ arguments, r.Applied p) : Applied p (.named type arguments)
  | parameter (name : String) : Applied p (.parameter name)
  | array {element : TypeRef} (rank : UInt32) (inner : element.Applied p) :
      Applied p (.array element rank)
  | nullable {inner : TypeRef} (marked : inner.Applied p) : Applied p (.nullable inner)

theorem applied_named_iff {type : TypeId} {arguments : List TypeRef} :
    (named type arguments).Applied p ↔ arguments.length = (p.declaration type).arity ∧
      (∀ outer ∈ (p.nesting type).dropLast, outer.isGeneric = false) ∧
      ∀ r ∈ arguments, r.Applied p := by
  constructor
  · rintro (⟨all, plain, among⟩ | _)
    exact ⟨all, plain, among⟩
  · rintro ⟨all, plain, among⟩
    exact .named all plain among

theorem applied_array_iff {element : TypeRef} {rank : UInt32} :
    (array element rank).Applied p ↔ element.Applied p := by
  constructor
  · rintro (_ | _ | ⟨_, inner⟩)
    exact inner
  · exact .array rank

theorem applied_nullable_iff {inner : TypeRef} :
    (nullable inner).Applied p ↔ inner.Applied p := by
  constructor
  · rintro (_ | _ | _ | ⟨marked⟩)
    exact marked
  · exact .nullable

mutual

def decideApplied (p : Program) : (r : TypeRef) → Decidable (r.Applied p)
  | .named _ arguments =>
    haveI := decideAllApplied p arguments
    decidable_of_iff _ applied_named_iff.symm
  | .parameter name => .isTrue (.parameter name)
  | .array element _ =>
    haveI := decideApplied p element
    decidable_of_iff _ applied_array_iff.symm
  | .nullable inner =>
    haveI := decideApplied p inner
    decidable_of_iff _ applied_nullable_iff.symm

def decideAllApplied (p : Program) : (refs : List TypeRef) → Decidable (∀ r ∈ refs, r.Applied p)
  | [] => .isTrue (List.forall_mem_nil _)
  | r :: rest =>
    haveI := decideApplied p r
    haveI := decideAllApplied p rest
    decidable_of_iff _ List.forall_mem_cons.symm

end

instance (p : Program) (r : TypeRef) : Decidable (r.Applied p) := decideApplied p r

/-! ## Closed references -/

/-- An applied reference that mentions only type parameters of some names. -/
structure ClosedOver (p : Program) (names : List String) (r : TypeRef) : Prop where
  applied : r.Applied p
  among : ∀ name ∈ r.parameters, name ∈ names

theorem ClosedOver.mono {names' : List String} {r : TypeRef} (h : r.ClosedOver p names)
    (hsub : names ⊆ names') : r.ClosedOver p names' :=
  ⟨h.applied, fun name hname => hsub (h.among name hname)⟩

theorem closedOver_named_iff {type : TypeId} {arguments : List TypeRef} :
    (named type arguments).ClosedOver p names ↔ arguments.length = (p.declaration type).arity ∧
      (∀ outer ∈ (p.nesting type).dropLast, outer.isGeneric = false) ∧
      ∀ r ∈ arguments, r.ClosedOver p names := by
  constructor
  · rintro ⟨happlied, hamong⟩
    obtain ⟨all, plain, among⟩ := applied_named_iff.1 happlied
    refine ⟨all, plain, fun r hr => ⟨among r hr, fun name hname => hamong name ?_⟩⟩
    rw [parameters, parametersOfAll_eq_flatMap]
    exact List.mem_flatMap.2 ⟨r, hr, hname⟩
  · rintro ⟨all, plain, among⟩
    refine ⟨.named all plain fun r hr => (among r hr).applied, fun name hname => ?_⟩
    rw [parameters, parametersOfAll_eq_flatMap] at hname
    obtain ⟨r, hr, hname⟩ := List.mem_flatMap.1 hname
    exact (among r hr).among name hname

theorem ClosedOver.stripNullable {r : TypeRef} (h : r.ClosedOver p names) :
    r.stripNullable.ClosedOver p names := by
  cases r with
  | nullable inner => exact ⟨applied_nullable_iff.1 h.applied, h.among⟩
  | named | parameter | array => exact h

/-! ## Substitution -/

/-- Where there is an argument for each parameter, every parameter has one. -/
theorem exists_argumentFor? {params : List String} {arguments : List TypeRef} {name : String}
    (hname : name ∈ params) (hlength : params.length ≤ arguments.length) :
    ∃ a ∈ arguments, argumentFor? params arguments name = some a := by
  induction params generalizing arguments with
  | nil => cases hname
  | cons q rest ih =>
    cases arguments with
    | nil => cases hlength
    | cons a others =>
      rw [argumentFor?, List.zip_cons_cons, List.lookup_cons]
      by_cases heq : name = q
      · rw [beq_iff_eq.2 heq]
        exact ⟨a, List.mem_cons_self, rfl⟩
      · rw [beq_eq_false_iff_ne.2 heq]
        obtain ⟨b, hb, hfound⟩ :=
          ih ((List.mem_cons.1 hname).resolve_left heq) (Nat.le_of_succ_le_succ hlength)
        exact ⟨b, List.mem_cons_of_mem a hb, hfound⟩

mutual

/-- Substituting in what was substituted is substituting in the arguments, where these stand for
all parameters that the reference mentions. -/
theorem substitute_substitute {params outer : List String} {arguments outerArguments : List TypeRef}
    (hlength : params.length ≤ arguments.length) :
    (r : TypeRef) → (∀ name ∈ r.parameters, name ∈ params) →
      (r.substitute params arguments).substitute outer outerArguments =
        r.substitute params (substituteAll outer outerArguments arguments)
  | .named type args, h => by
    rw [substitute, substitute, substitute, substituteAll_substituteAll hlength args h]
  | .parameter name, h => by
    obtain ⟨a, -, hfound⟩ := exists_argumentFor? (h name (List.mem_singleton_self name)) hlength
    rw [substitute, substitute, substituteAll_eq_map, argumentFor?_map, hfound]
    rfl
  | .array element rank, h => by
    rw [substitute, substitute, substitute, substitute_substitute hlength element h]
  | .nullable inner, h => by
    rw [substitute, substitute, substitute, substitute_substitute hlength inner h]

theorem substituteAll_substituteAll {params outer : List String}
    {arguments outerArguments : List TypeRef} (hlength : params.length ≤ arguments.length) :
    (refs : List TypeRef) → (∀ name ∈ parametersOfAll refs, name ∈ params) →
      substituteAll outer outerArguments (substituteAll params arguments refs) =
        substituteAll params (substituteAll outer outerArguments arguments) refs
  | [], _ => rfl
  | r :: rest, h => by
    rw [parametersOfAll, List.forall_mem_append] at h
    rw [substituteAll, substituteAll, substituteAll, substitute_substitute hlength r h.1,
      substituteAll_substituteAll hlength rest h.2]

end

theorem stripNullable_substitute {r : TypeRef} {type : TypeId} {args : List TypeRef}
    (h : r.stripNullable = .named type args) (names : List String) (arguments : List TypeRef) :
    (r.substitute names arguments).stripNullable =
      .named type (substituteAll names arguments args) := by
  cases r with
  | named =>
    cases h
    rfl
  | nullable inner =>
    obtain rfl : inner = .named type args := h
    rfl
  | parameter | array => cases h

/-- With an argument for each parameter, no parameter is left in place. -/
theorem Applied.closedOver_substitute {params : List String} {arguments : List TypeRef}
    {r : TypeRef} (h : r.Applied p) (hparams : ∀ name ∈ r.parameters, name ∈ params)
    (hlength : arguments.length = params.length)
    (harguments : ∀ a ∈ arguments, a.ClosedOver p names) :
    (r.substitute params arguments).ClosedOver p names := by
  induction h with
  | named all plain _ ih =>
    rw [parameters, parametersOfAll_eq_flatMap] at hparams
    rw [substitute, substituteAll_eq_map, closedOver_named_iff, List.length_map]
    refine ⟨all, plain, fun r hr => ?_⟩
    obtain ⟨a, ha, rfl⟩ := List.mem_map.1 hr
    exact ih a ha fun name hname => hparams name (List.mem_flatMap.2 ⟨a, ha, hname⟩)
  | parameter name =>
    obtain ⟨a, ha, hfound⟩ :=
      exists_argumentFor? (hparams name List.mem_cons_self) (Nat.le_of_eq hlength.symm)
    rw [substitute, hfound]
    exact harguments a ha
  | array rank _ ih =>
    obtain ⟨happlied, hamong⟩ := ih hparams
    exact ⟨.array rank happlied, hamong⟩
  | nullable _ ih =>
    obtain ⟨happlied, hamong⟩ := ih hparams
    exact ⟨.nullable happlied, hamong⟩

end TypeRef

theorem Signature.references_substitute (params : List String) (arguments : List TypeRef)
    (s : Signature) :
    (s.substitute params arguments).references =
      s.references.map (·.substitute params arguments) := by
  simp [substitute, references, Parameter.substitute]

theorem Signature.substitute_substitute {s : Signature} {params outer : List String}
    {arguments outerArguments : List TypeRef} (hlength : params.length ≤ arguments.length)
    (h : ∀ r ∈ s.references, ∀ name ∈ r.parameters, name ∈ params) :
    (s.substitute params arguments).substitute outer outerArguments =
      s.substitute params (TypeRef.substituteAll outer outerArguments arguments) := by
  obtain ⟨hresult, hparameters⟩ := List.forall_mem_cons.1 h
  rw [List.forall_mem_map] at hparameters
  simp only [substitute, List.map_map, Signature.mk.injEq]
  refine ⟨TypeRef.substitute_substitute hlength _ hresult, List.map_congr_left fun q hq => ?_⟩
  simp only [Function.comp_apply, Parameter.substitute,
    TypeRef.substitute_substitute hlength q.type (hparameters q hq)]

/-! ## Programs -/

namespace Program

variable {p : Program} {names : List String}

/-- All types that the declarations of a program refer to are applied. -/
def IsApplied (p : Program) : Prop :=
  ∀ id < p.size, ∀ r ∈ (p.declaration id).typeReferences, r.Applied p

instance (p : Program) : Decidable p.IsApplied :=
  inferInstanceAs
    (Decidable (∀ id < p.size, ∀ r ∈ (p.declaration id).typeReferences, r.Applied p))

/-- The references of every declaration are closed over the type parameters in its scope. -/
structure HasClosedScopes (p : Program) : Prop where
  outerFirst : p.OuterFirst
  closed : ∀ id, ∀ r ∈ (p.declaration id).typeReferences, r.ClosedOver p (p.scopeNames id)

/-- What a declaration refers to is closed, seen through a constructed type. -/
def SeesClosed (p : Program) (names : List String) (c : Constructed) : Prop :=
  ∀ r ∈ (p.declaration c.1).typeReferences,
    (r.substitute (p.declaration c.1).parameterNames c.2).ClosedOver p names

namespace HasClosedScopes

variable (h : p.HasClosedScopes)

include h

/-- A type sees its own references as they are. -/
theorem seesClosed_own (id : TypeId) :
    p.SeesClosed (p.scopeNames id) (id, (p.declaration id).ownArguments) := by
  intro r hr
  rw [Declaration.substitute_ownArguments]
  exact h.closed id r hr

/-- Through a closed reference to a type everything that the type refers to is closed. -/
theorem seesClosed_named {type : TypeId} {arguments : List TypeRef}
    (hr : (TypeRef.named type arguments).ClosedOver p names) :
    p.SeesClosed names (type, arguments) := by
  obtain ⟨all, plain, among⟩ := TypeRef.closedOver_named_iff.1 hr
  intro r hr
  obtain ⟨happlied, hscope⟩ := h.closed type r hr
  rw [scopeNames_eq, outerNames_eq_nil plain, List.nil_append] at hscope
  rw [Declaration.arity_eq_length] at all
  exact happlied.closedOver_substitute hscope all among

/-- The bounds of all type parameters in scope are closed over this scope. -/
theorem closedOver_bounds {id : TypeId} : ∀ q ∈ p.typeParametersInScope id, ∀ r ∈ q.bounds,
    r.ClosedOver p (p.scopeNames id) := by
  induction id using Nat.strongRecOn with
  | ind id ih =>
    intro q hq r hr
    rw [typeParametersInScope_eq h.outerFirst] at hq
    rcases List.mem_append.1 hq with hq | hq
    · obtain ⟨outer, houter, hq⟩ := List.mem_flatMap.1 hq
      have hc : (p.declaration id).container = some outer := Option.mem_toList.1 houter
      have hsub := scopeNames_subset_of_container h.outerFirst hc
      exact (ih outer (h.outerFirst id outer hc) q hq r hr).mono hsub
    · apply h.closed id r
      simp only [Declaration.typeReferences, List.append_assoc]
      exact List.mem_append_left _ (List.mem_flatMap.2 ⟨q, hq, hr⟩)

end HasClosedScopes

end Program

end EventWrap
