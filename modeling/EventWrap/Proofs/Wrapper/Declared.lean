import EventWrap.Proofs.Code.Identifier
import EventWrap.Proofs.Wrapper.Factory

/-!
# Names declared by wrappers

A wrapper class declares the type parameters of all types around its type and of the type itself,
one after the other. So it declares a parameter twice where a type has a parameter of the same name
as a type around it. Among its members are one property for every event and, in an instance wrapper,
the field that holds the object. So two members clash where an event is called like that field.
-/

namespace EventWrap

open Code

/-! ## Type parameters -/

/-- No type of a path has a type parameter called like one of a type around it. -/
def Nesting.ParametersApart (path : Nesting) : Prop :=
  path.Pairwise fun outer inner => ∀ name ∈ outer.parameterNames, name ∉ inner.parameterNames

instance (path : Nesting) : Decidable path.ParametersApart :=
  inferInstanceAs (Decidable (List.Pairwise _ _))

/-- Where no type by itself repeats a name, a name can be repeated at different levels only. -/
theorem Nesting.nodup_parameterNames_iff {path : Nesting}
    (hown : ∀ d ∈ path, d.parameterNames.Nodup) :
    (path.flatMap (·.parameterNames)).Nodup ↔ path.ParametersApart := by
  rw [List.nodup_flatMap]
  exact and_iff_right hown

namespace Program

variable {p : Program} {s : Settings} {plan : WrapperPlan} {w : Wrapper}

theorem scopeNames_eq_flatMap (p : Program) (id : TypeId) :
    p.scopeNames id = (p.nesting id).flatMap (·.parameterNames) := by
  rw [scopeNames, typeParametersInScope, Nesting.typeParameters, List.map_flatMap]
  rfl

theorem typeParameters_eq_scopeNames (h : p.synthesize s plan = some w) :
    w.declaration.typeParameters = (p.scopeNames plan.events.type).map escape := by
  rw [typeParameters_of_synthesize h, scopeNames, List.map_map]
  rfl

/-- Only an instance wrapper has a factory method, which declares what the class declares. -/
theorem typeParameters_factory? (h : p.synthesize s plan = some w) :
    (p.factory? s w).map (·.declaration.typeParameters) =
      if plan.mode.isStatic then none else some w.declaration.typeParameters := by
  obtain ⟨hsource, hmode, -⟩ := eq_of_synthesize h
  rw [factory?, hmode, typeParameters_of_synthesize h, ← hsource]
  cases plan.mode <;> rfl

/-- A wrapper class, and with it its factory method, declares a type parameter twice exactly where
a type has a parameter called like one of a type around it, or where a reserved word is in scope
together with its marked form. -/
theorem typeParameters_nodup_iff (h : p.synthesize s plan = some w)
    (hown : ∀ d ∈ p.nesting plan.events.type, d.parameterNames.Nodup) :
    ((p.factory? s w).map (·.declaration.typeParameters) =
      if plan.mode.isStatic then none else some w.declaration.typeParameters) ∧
    (w.declaration.typeParameters.Nodup ↔
      (p.nesting plan.events.type).ParametersApart ∧
      ∀ word ∈ p.scopeNames plan.events.type, isReserved word →
        "@" ++ word ∉ p.scopeNames plan.events.type) := by
  refine ⟨typeParameters_factory? h, ?_⟩
  calc w.declaration.typeParameters.Nodup
    _ ↔ ((p.scopeNames plan.events.type).map escape).Nodup := by
      rw [typeParameters_eq_scopeNames h]
    _ ↔ (p.scopeNames plan.events.type).Nodup ∧
        ∀ word ∈ p.scopeNames plan.events.type, isReserved word →
          "@" ++ word ∉ p.scopeNames plan.events.type := nodup_map_escape_iff
    _ ↔ _ := by
      apply and_congr_left'
      rw [scopeNames_eq_flatMap]
      exact Nesting.nodup_parameterNames_iff hown

theorem nestedPair_parameters_apart :
    let shelf : WrapperPlan := { events := nestedPair.collect 3 false false, mode := .ofInstance }
    (∀ d ∈ nestedPair.nesting 3, d.parameterNames.Nodup) ∧
    ∃ w f, nestedPair.synthesize {} shelf = some w ∧ nestedPair.factory? {} w = some f ∧
      w.declaration.typeParameters = ["T", "K"] ∧ w.declaration.typeParameters.Nodup ∧
      f.declaration.typeParameters.Nodup := by
  intro shelf
  obtain ⟨w, hw⟩ : ∃ w, nestedPair.synthesize {} shelf = some w :=
    exists_synthesize_own (by decide)
  have hown : ∀ d ∈ nestedPair.nesting 3, d.parameterNames.Nodup := by decide
  obtain ⟨hfactory, hnodup⟩ := typeParameters_nodup_iff hw hown
  have hdistinct := hnodup.2 ⟨by decide, by decide⟩
  obtain ⟨f, hf, hsame⟩ := Option.map_eq_some_iff.1 hfactory
  refine ⟨hown, w, f, hw, hf, ?_, hdistinct, ?_⟩
  · rw [typeParameters_eq_scopeNames hw]
    decide
  · rw [hsame]
    exact hdistinct

/-- A generic type inside another, both with a parameter of the same name. -/
def reusedName : Program :=
  let declarations : List Declaration := [
    { kind := .structType, namespaceName := "System", name := "Void", builtIn := some .void },
    { kind := .delegateType, name := "Notice",
      invoke := some { result := .named 0 [], parameters := [] } },
    { namespaceName := "Sample", name := "Outer", typeParameters := [{ name := "T" }] },
    { name := "Inner", container := some 2, typeParameters := [{ name := "T" }],
      events := [{ name := "Shown", delegate := .named 1 [] }] }]
  declarations.foldl push {}

/-- No type by itself repeats a name, and the wrapper class of the inner one declares it twice. -/
theorem reusedName_declared_twice :
    let inner : WrapperPlan := { events := reusedName.collect 3 false false, mode := .ofInstance }
    (∀ id, (reusedName.declaration id).parameterNames.Nodup) ∧
    ∃ w f, reusedName.synthesize {} inner = some w ∧ reusedName.factory? {} w = some f ∧
      w.declaration.typeParameters = ["T", "T"] ∧ f.declaration.typeParameters = ["T", "T"] ∧
      ¬ w.declaration.typeParameters.Nodup ∧ ¬ f.declaration.typeParameters.Nodup := by
  intro inner
  constructor
  · have hown : ∀ d ∈ reusedName.types.toList, d.parameterNames.Nodup := by decide
    exact forall_declaration hown List.nodup_nil
  · obtain ⟨w, hw⟩ : ∃ w, reusedName.synthesize {} inner = some w :=
      exists_synthesize_own (by decide)
    have htwice : w.declaration.typeParameters = ["T", "T"] := by
      rw [typeParameters_eq_scopeNames hw]
      decide
    obtain ⟨f, hf, hsame⟩ := Option.map_eq_some_iff.1 (typeParameters_factory? hw)
    refine ⟨w, f, hw, hf, htwice, hsame.trans htwice, ?_, ?_⟩
    · rw [htwice]
      decide
    · rw [hsame, htwice]
      decide

end Program

/-! ## Members -/

/-- The names of the members of a class that hold or give values: its fields and properties. -/
def Code.ClassBlock.valueNames (c : ClassBlock) : List String :=
  c.fields.map (·.name) ++ c.properties.map (·.name)

/-- The field in which an instance wrapper holds its object. -/
def dataFieldName : String := "_data"

theorem escape_eq_dataFieldName_iff {name : String} :
    escape name = dataFieldName ↔ name = dataFieldName :=
  escape_eq_iff_of_unmarked (by decide) (by decide)

namespace Program

variable {p : Program} {s : Settings} {plan : WrapperPlan} {w : Wrapper}

/-- A static wrapper has no field, and an instance wrapper the one that holds the object. -/
theorem map_name_fields_of_synthesize (h : p.synthesize s plan = some w) :
    w.declaration.fields.map (·.name) = if plan.mode.isStatic then [] else [dataFieldName] := by
  obtain ⟨-, -, -, -, hdeclaration⟩ := eq_of_synthesize h
  rw [hdeclaration]
  cases plan.mode <;>
    simp [wrapperClass, ClassBlock.fields, holdingMembers, List.filterMap_map, dataFieldName,
      WrapperMode.isStatic]

/-- A wrapper class has one property for every event, in their order. -/
theorem map_name_properties_of_synthesize (h : p.synthesize s plan = some w) :
    w.declaration.properties.map (·.name) = plan.events.names.map escape := by
  obtain ⟨-, -, -, -, hdeclaration⟩ := eq_of_synthesize h
  rw [hdeclaration, properties_wrapperClass, List.map_map, TypeEvents.names, List.map_map]
  rfl

theorem valueNames_of_synthesize (h : p.synthesize s plan = some w) :
    w.declaration.valueNames =
      (if plan.mode.isStatic then [] else [dataFieldName]) ++ plan.events.names.map escape := by
  rw [ClassBlock.valueNames, map_name_fields_of_synthesize h, map_name_properties_of_synthesize h]

theorem nodup_names_collect (p : Program) (id : TypeId) (inherited isStatic : Bool) :
    (p.collect id inherited isStatic).names.Nodup := by
  rw [TypeEvents.names]
  exact ((sortedBy_perm _ _).map _).nodup_iff.2 (p.nodup_names_described id isStatic inherited)

/-- A wrapper class of collected events has exactly one property for every event, named by what is
written for the name of the event. When the events are named by identifiers, two of its fields and
properties have one name exactly where an instance wrapper is to offer an event that is called like
the field with the object. -/
theorem members_nodup_iff {id : TypeId} {inherited isStatic : Bool}
    (hevents : plan.events = p.collect id inherited isStatic)
    (h : p.synthesize s plan = some w) :
    w.declaration.properties.map (·.name) =
      (p.collect id inherited isStatic).events.map (fun e => escape e.name) ∧
    ((∀ name ∈ (p.collect id inherited isStatic).names, name.toList.head? ≠ some '@') →
      (w.declaration.valueNames.Nodup ↔
        (plan.mode = .ofInstance → dataFieldName ∉ (p.collect id inherited isStatic).names))) := by
  refine ⟨?_, fun hunmarked => ?_⟩
  · rw [map_name_properties_of_synthesize h, hevents, TypeEvents.names, List.map_map]
    rfl
  · rw [valueNames_of_synthesize h, hevents]
    have hwritten : ((p.collect id inherited isStatic).names.map escape).Nodup :=
      (nodup_map_escape_iff_of_unmarked hunmarked).2 (p.nodup_names_collect id inherited isStatic)
    cases hmode : plan.mode with
    | ofStatics => simpa [WrapperMode.isStatic] using hwritten
    | ofInstance =>
      have hfield : dataFieldName ∈ (p.collect id inherited isStatic).names.map escape ↔
          dataFieldName ∈ (p.collect id inherited isStatic).names := by
        simp [escape_eq_dataFieldName_iff]
      simp [WrapperMode.isStatic, hwritten, hfield]

/-- A type with an event that is called like a reserved word, and one with an event that is called
like the field with the object. -/
def dataEvents : Program :=
  let declarations : List Declaration := [
    { kind := .structType, namespaceName := "System", name := "Void", builtIn := some .void },
    { kind := .delegateType, name := "Notice",
      invoke := some { result := .named 0 [], parameters := [] } },
    { namespaceName := "Sample", name := "Feed",
      events := [{ name := "event", delegate := .named 1 [] }] },
    { namespaceName := "Sample", name := "Form",
      events := [{ name := "_data", delegate := .named 1 [] }] }]
  declarations.foldl push {}

theorem dataEvents_feed_members_distinct :
    let feed : WrapperPlan := { events := dataEvents.collect 2 false false, mode := .ofInstance }
    ∃ w, dataEvents.synthesize {} feed = some w ∧
      w.declaration.valueNames = ["_data", "@event"] ∧ w.declaration.valueNames.Nodup := by
  intro feed
  obtain ⟨w, hw⟩ : ∃ w, dataEvents.synthesize {} feed = some w :=
    exists_synthesize_own (by decide)
  obtain ⟨-, hnodup⟩ := members_nodup_iff rfl hw
  have hunmarked : ∀ name ∈ feed.events.names, name.toList.head? ≠ some '@' := by decide +kernel
  have hfield : dataFieldName ∉ feed.events.names := by decide +kernel
  refine ⟨w, hw, ?_, (hnodup hunmarked).2 fun _ => hfield⟩
  rw [valueNames_of_synthesize hw]
  decide +kernel

/-- The one event has an identifier for a name, and still two members of the wrapper have one
name. -/
theorem dataEvents_form_members_clash :
    let form : WrapperPlan := { events := dataEvents.collect 3 false false, mode := .ofInstance }
    (∀ name ∈ form.events.names, Settings.isIdentifier name.toList) ∧
    ∃ w, dataEvents.synthesize {} form = some w ∧ w.declaration.fields.map (·.name) = ["_data"] ∧
      w.declaration.properties.map (·.name) = ["_data"] ∧ ¬ w.declaration.valueNames.Nodup := by
  intro form
  obtain ⟨w, hw⟩ : ∃ w, dataEvents.synthesize {} form = some w :=
    exists_synthesize_own (by decide)
  have hproperties : w.declaration.properties.map (·.name) = ["_data"] := by
    rw [map_name_properties_of_synthesize hw]
    decide +kernel
  refine ⟨by decide +kernel, w, hw, map_name_fields_of_synthesize hw, hproperties, ?_⟩
  rw [valueNames_of_synthesize hw]
  decide +kernel

end Program

end EventWrap
