import EventWrap.Proofs.Events.Inheritance
import EventWrap.Proofs.Wrapper.Closed
import EventWrap.Wrapper.Factory

/-!
# Wrappers and their factory methods

A wrapper class is written in four places: where it is declared, where a type over it derives from
it, where its factory method returns it and where that method makes one. All of them write the same
class with as many type arguments as it declares, and what the method extends is what the class
holds. The parameters of the types around a wrapped type count among those of its wrapper.
-/

namespace EventWrap

open Code

/-! ## Classes as referred to -/

namespace Wrapper

/-- The name of a wrapper class from the global namespace on. -/
def qualifiedName (w : Wrapper) : String :=
  "global::" ++ (if w.namespaceName = "" then "" else w.namespaceName ++ ".") ++ w.name

/-- The wrapper class over its own type parameters, as it declares them. -/
def selfText (w : Wrapper) : String :=
  w.qualifiedName ++ typeParametersText w.declaration.typeParameters

/-- The line with which a wrapper class begins. -/
def header (w : Wrapper) : String :=
  "internal partial class " ++ w.name ++ typeParametersText w.declaration.typeParameters ++
    match w.declaration.base with
    | none => ""
    | some base => " : " ++ base

/-- An instance wrapper and a method that extends the type which the wrapper holds: the method makes
the wrapper from its receiver, under the type parameters and constraints of the class. A class with
a base hands on what it is made from. -/
structure FitsMethod (w : Wrapper) (receiver data : Formal) (held : Field) (k : Constructor)
    (m : Method) : Prop where
  declared : w.declaration.name = w.name
  headed : ∀ level, ⟨level, w.header⟩ ∈ w.declaration.layout level
  fields : w.declaration.fields = [held]
  constructors : w.declaration.constructors = [k]
  named : k.name = w.name
  takes : k.parameters = [data]
  handsOn : k.baseArguments = w.declaration.base.map fun _ => [.name data.name]
  receives : m.parameters = [receiver]
  isReceiver : receiver.isReceiver = true
  held_type : held.type = receiver.type
  data_type : data.type = receiver.type
  returns : m.returnType = w.selfText
  makes : m.body = .expression (.create w.selfText [.name receiver.name])
  typeParameters : m.typeParameters = w.declaration.typeParameters
  constraints : m.constraints = w.declaration.constraints

end Wrapper

/-- Among the lines of a class is the one with its name, its type parameters and its base. -/
theorem Code.ClassBlock.header_mem_layout (c : ClassBlock) (level : Nat) :
    ⟨level, modifiersText c.modifiers ++ "class " ++ c.name ++ typeParametersText c.typeParameters ++
      match c.base with
      | none => ""
      | some base => " : " ++ base⟩ ∈ c.layout level := by
  rw [layout]
  simp only [List.append_assoc, List.mem_append, List.cons_append]
  exact .inr (.inr List.mem_cons_self)

theorem typeParametersText_eq (names : List String) :
    typeParametersText names = Program.argumentsText names := rfl

theorem qualify_eq (namespaceName name : String) :
    qualify namespaceName name =
      (if namespaceName = "" then "" else namespaceName ++ ".") ++ name := by
  rw [qualify]
  by_cases h : namespaceName = "" <;> simp [h, String.isEmpty_iff]

namespace Program

variable {p : Program} {s : Settings} {plan : WrapperPlan} {w : Wrapper}

/-- The parameters of the types around a type, as arguments. -/
def outerArguments (p : Program) (id : TypeId) : List TypeRef := (p.outerNames id).map .parameter

theorem wrapperText_eq (id : TypeId) (arguments : List TypeRef) :
    p.wrapperText id arguments =
      "global::" ++ qualify (p.wrapperNamespace id) (p.wrapperName id) ++
        argumentsText ((p.outerArguments id ++ arguments).map p.typeText) := by
  rw [wrapperText, typeTexts_eq_map, outerArguments, outerNames, List.map_map]
  rfl

/-- The types around a type and the type itself declare all parameters in its scope. -/
theorem map_typeText_ownArguments (id : TypeId) :
    (p.outerArguments id ++ (p.declaration id).ownArguments).map p.typeText =
      (p.typeParametersInScope id).map fun q => escape q.name := by
  have hscope : p.outerArguments id ++ (p.declaration id).ownArguments =
      (p.scopeNames id).map .parameter := by
    rw [scopeNames_eq, List.map_append]
    rfl
  calc (p.outerArguments id ++ (p.declaration id).ownArguments).map p.typeText
    _ = (p.scopeNames id).map escape := by
      rw [hscope, List.map_map]
      rfl
    _ = (p.typeParametersInScope id).map fun q => escape q.name := by
      rw [scopeNames, List.map_map]
      rfl

/-! ## Wrappers as built -/

theorem name_of_synthesize (h : p.synthesize s plan = some w) :
    w.name = p.wrapperName plan.events.type ∧
      w.namespaceName = p.wrapperNamespace plan.events.type := by
  simp only [synthesize] at h
  split at h
  · cases h
  · cases h
    exact ⟨rfl, rfl⟩

/-- A wrapper class declares the parameters in scope of its type. -/
theorem typeParameters_of_synthesize (h : p.synthesize s plan = some w) :
    w.declaration.typeParameters =
      (p.typeParametersInScope plan.events.type).map fun q => escape q.name := by
  obtain ⟨-, -, -, -, hdeclaration⟩ := eq_of_synthesize h
  rw [hdeclaration]
  rfl

/-- Behind the qualified name of a wrapper stand the open parameters and the given arguments. -/
theorem wrapperText_of_synthesize (h : p.synthesize s plan = some w) (arguments : List TypeRef) :
    p.wrapperText plan.events.type arguments = w.qualifiedName ++
      argumentsText ((p.outerArguments plan.events.type ++ arguments).map p.typeText) := by
  obtain ⟨hname, hspace⟩ := name_of_synthesize h
  rw [wrapperText_eq, qualify_eq, Wrapper.qualifiedName, hname, hspace, String.append_assoc,
    String.append_assoc, String.append_assoc, String.append_assoc]

theorem wrapperText_ownArguments (h : p.synthesize s plan = some w) :
    p.wrapperText plan.events.type (p.declaration plan.events.type).ownArguments = w.selfText := by
  rw [wrapperText_of_synthesize h, map_typeText_ownArguments, Wrapper.selfText,
    typeParameters_of_synthesize h, typeParametersText_eq]

section Instance

variable (hmode : plan.mode = .ofInstance) (h : p.synthesize s plan = some w)

include hmode h

theorem declaration_of_instance :
    w.declaration = p.wrapperClass s .ofInstance plan.parent plan.events := by
  obtain ⟨-, -, hparent, -, hdeclaration⟩ := eq_of_synthesize h
  rw [hdeclaration, hparent, hmode]
  rfl

theorem header_mem_layout (level : Nat) : ⟨level, w.header⟩ ∈ w.declaration.layout level := by
  have hdeclaration := declaration_of_instance hmode h
  have hname : w.declaration.name = w.name := by
    rw [hdeclaration, (name_of_synthesize h).1]
    rfl
  have hmodifiers : modifiersText w.declaration.modifiers ++ "class " =
      "internal partial class " := by
    rw [hdeclaration]
    rfl
  have hmem := w.declaration.header_mem_layout level
  rwa [hname, hmodifiers] at hmem

/-- The factory method of an instance wrapper makes the wrapper from what the wrapper holds. -/
theorem fitsMethod_factoryDeclaration : ∃ receiver data held k,
    w.FitsMethod receiver data held k (p.factoryDeclaration s plan.events.type) := by
  have hdeclaration := declaration_of_instance hmode h
  have hname := (name_of_synthesize h).1
  have hself := wrapperText_ownArguments h
  let id := plan.events.type
  refine ⟨{ isReceiver := true, type := p.definitionText id, name := "item" },
    { type := p.definitionText id, name := "data" },
    { modifiers := [.privateAccess, .readOnly], type := p.definitionText id, name := "_data" },
    p.wrapperConstructor s id plan.parent.isSome, ?_⟩
  exact {
    declared := by rw [hdeclaration, hname]; rfl
    headed := header_mem_layout hmode h
    fields := by
      rw [hdeclaration]
      simp [wrapperClass, ClassBlock.fields, holdingMembers, List.filterMap_map,
        WrapperMode.isStatic, id]
    constructors := by
      rw [hdeclaration]
      simp [wrapperClass, ClassBlock.constructors, holdingMembers, List.filterMap_map,
        WrapperMode.isStatic, id]
    named := hname.symm
    takes := rfl
    handsOn := by
      rw [hdeclaration]
      cases hparent : plan.parent <;> simp [wrapperConstructor, wrapperClass]
    receives := rfl
    isReceiver := rfl
    held_type := rfl
    data_type := rfl
    returns := hself
    makes := congrArg (fun type => Body.expression (.create type [.name "item"])) hself
    typeParameters := (typeParameters_of_synthesize h).symm
    constraints := by rw [hdeclaration]; rfl }

end Instance

/-! ## Arguments of bases -/

/-- Every type of a base chain has all of its arguments, where every base is given all of its. -/
theorem Walks.length_arguments {met : List TypeId} {current : Constructed} {chain : List Constructed}
    (happlied : ∀ t < p.size, ∀ r ∈ (p.declaration t).base, p.AppliesAll r)
    (h : p.Walks met current chain) :
    ∀ c ∈ chain, c.2.length = (p.declaration c.1).arity := by
  induction h with
  | ended => exact List.forall_mem_nil _
  | returned => exact List.forall_mem_nil _
  | @passed met current base further next _ _ ih =>
    refine List.forall_mem_cons.2 ⟨?_, ih⟩
    have hlt := (derivesFrom_of_baseSeenFrom next).lt_size
    simp only [baseSeenFrom] at next
    split at next
    · next type arguments hbase =>
      cases next
      rw [TypeRef.substituteAll_eq_map, List.length_map]
      exact happlied current.1 hlt _ hbase type rfl
    · cases next

theorem length_arguments_of_mem_ancestorsWithEvents {id : TypeId} {isStatic : Bool}
    (happlied : ∀ t < p.size, ∀ r ∈ (p.declaration t).base, p.AppliesAll r) :
    ∀ c ∈ p.ancestorsWithEvents id isStatic, c.2.length = (p.declaration c.1).arity :=
  fun c hc => (p.walks_baseChain id).length_arguments happlied c (List.mem_of_mem_filter hc)

/-- The open parameters and all own arguments of a type are as many as its wrapper declares. -/
theorem length_typeParameters_of_synthesize (h : p.synthesize s plan = some w)
    {arguments : List TypeRef}
    (hlength : arguments.length = (p.declaration plan.events.type).arity) :
    w.declaration.typeParameters.length =
      (p.outerArguments plan.events.type ++ arguments).length := by
  rw [typeParameters_of_synthesize h, ← map_typeText_ownArguments]
  simp [hlength, Declaration.ownArguments, Declaration.arity_eq_length]

/-- The wrapper class of a type, the reference to it and its factory method fit together. Where all
bases have all of their arguments, and the parent of the wrapper is made for the nearest ancestor
with events, its base is the class that is built for this ancestor, with exactly as many arguments
as that class declares: the parameters of the types around it, open, and the ancestor's own. -/
theorem wrapper_fits_factory (hmode : plan.mode = .ofInstance)
    (h : p.synthesize s plan = some w) :
    p.wrapperText plan.events.type (p.declaration plan.events.type).ownArguments = w.selfText ∧
    (∃ f receiver data held k, p.factory? s w = some f ∧
      w.FitsMethod receiver data held k f.declaration) ∧
    ((∀ t < p.size, ∀ r ∈ (p.declaration t).base, p.AppliesAll r) →
      ∀ parent ∈ plan.parent, (p.ancestorsWithEvents plan.events.type false).head? =
        some (parent.type, parent.arguments) →
      ∀ plan' v, plan'.events.type = parent.type → p.synthesize s plan' = some v →
        ∃ arguments, arguments = p.outerArguments parent.type ++ parent.arguments ∧
          arguments.length = v.declaration.typeParameters.length ∧
          w.declaration.base =
            some (v.qualifiedName ++ argumentsText (arguments.map p.typeText))) := by
  refine ⟨wrapperText_ownArguments h, ?_, ?_⟩
  · obtain ⟨receiver, data, held, k, hfits⟩ := fitsMethod_factoryDeclaration hmode h
    obtain ⟨hsource, hkind, -⟩ := eq_of_synthesize h
    let f : FactoryMethod := {
      source := plan.events.type
      sortKey := p.metadataName plan.events.type
      declaration := p.factoryDeclaration s plan.events.type }
    refine ⟨f, receiver, data, held, k, ?_, hfits⟩
    rw [factory?, hkind, hmode, hsource]
  · intro happlied parent hparent hhead plan' v htype hv
    have hlength := length_arguments_of_mem_ancestorsWithEvents happlied _
      (List.mem_of_head? hhead)
    refine ⟨_, rfl, ?_, ?_⟩
    · rw [← htype] at hlength ⊢
      exact (length_typeParameters_of_synthesize hv hlength).symm
    · have hbase : w.declaration.base = some (p.wrapperText parent.type parent.arguments) := by
        rw [declaration_of_instance hmode h, wrapperClass, Option.mem_def.1 hparent]
        rfl
      rw [hbase, ← htype, wrapperText_of_synthesize hv]

/-- A type that is nested in a generic one, and so is its base. -/
def nestedPair : Program :=
  let declarations : List Declaration := [
    { kind := .structType, namespaceName := "System", name := "Void", builtIn := some .void },
    { kind := .delegateType, name := "Notice",
      invoke := some { result := .named 0 [], parameters := [] } },
    { namespaceName := "Sample", name := "Outer", typeParameters := [{ name := "T" }] },
    { name := "Shelf", container := some 2, typeParameters := [{ name := "K" }],
      events := [{ name := "Shown", delegate := .named 1 [] }] },
    { name := "Box", container := some 2,
      typeParameters := [{ name := "in", isReference := true }],
      base := some (.named 3 [.array (.parameter "in") 1]) }]
  declarations.foldl push {}

theorem nestedPair_wrapper_fits_factory :
    let shelf : WrapperPlan := { events := nestedPair.collect 3 false false, mode := .ofInstance }
    let box : WrapperPlan := {
      events := nestedPair.collect 4 false false
      mode := .ofInstance
      parent := some { type := 3, arguments := [.array (.parameter "in") 1], exposed := ["Shown"] }
      evenEmpty := true }
    ∃ w v f receiver data held k, nestedPair.synthesize {} box = some w ∧
      nestedPair.synthesize {} shelf = some v ∧ nestedPair.factory? {} w = some f ∧
      w.FitsMethod receiver data held k f.declaration ∧
      f.declaration.returnType = "global::Sample.RxOuter_1BoxEvents<T, @in>" ∧
      v.declaration.typeParameters.length = 2 ∧
      w.declaration.base = some (v.qualifiedName ++ "<T, @in[]>") := by
  intro shelf box
  obtain ⟨w, hw⟩ : ∃ w, nestedPair.synthesize {} box = some w :=
    exists_synthesize (.inr rfl)
  obtain ⟨v, hv⟩ : ∃ v, nestedPair.synthesize {} shelf = some v :=
    exists_synthesize_own (by decide)
  have happlied : ∀ t < nestedPair.size, ∀ r ∈ (nestedPair.declaration t).base,
      nestedPair.AppliesAll r := by decide
  obtain ⟨hself, ⟨f, receiver, data, held, k, hf, hfits⟩, hbase⟩ := wrapper_fits_factory rfl hw
  obtain ⟨arguments, rfl, hlength, htext⟩ := hbase happlied _ rfl rfl shelf v rfl hv
  have hreturns : nestedPair.wrapperText box.events.type
      (nestedPair.declaration box.events.type).ownArguments =
        "global::Sample.RxOuter_1BoxEvents<T, @in>" := by decide
  have hwritten : argumentsText ((nestedPair.outerArguments 3 ++
      [TypeRef.array (.parameter "in") 1]).map nestedPair.typeText) = "<T, @in[]>" := by decide
  refine ⟨w, v, f, receiver, data, held, k, hw, hv, hf, hfits, ?_, hlength.symm, ?_⟩
  · rw [hfits.returns, ← hself, hreturns]
  · rw [htext, hwritten]

end Program

end EventWrap
