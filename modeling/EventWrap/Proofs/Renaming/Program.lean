import EventWrap.Code.TypeText
import EventWrap.Events.Shape
import EventWrap.Proofs.Occurrence
import EventWrap.Proofs.Program.Index
import EventWrap.Proofs.Renaming.Basic
import EventWrap.Wrapper.Naming

/-!
# Renamed programs

A program is another one renamed when its declarations are those of the other under new places, with
the events of a declaration in an order that cannot be noticed. Such programs write all their types
alike: names, references and signatures do not tell the places.
-/

namespace EventWrap

/-- A declaration is another one renamed, up to the order of its events. -/
structure Declaration.IsRenamed (σ : TypeId → TypeId) (d d' : Declaration) : Prop where
  same : d' = { d.rename σ with events := d'.events }
  events : Occurrence.Reordered (fun e => e.name) (d.events.map (·.rename σ)) d'.events

namespace Declaration.IsRenamed

variable {σ : TypeId → TypeId} {d d' : Declaration} (h : d.IsRenamed σ d')

include h

theorem name : d'.name = d.name := by rw [h.same]; rfl

theorem namespaceName : d'.namespaceName = d.namespaceName := by rw [h.same]; rfl

theorem container : d'.container = d.container.map σ := by rw [h.same]; rfl

theorem typeParameters : d'.typeParameters = d.typeParameters.map (·.rename σ) := by
  rw [h.same]; rfl

theorem base : d'.base = d.base.map (·.rename σ) := by rw [h.same]; rfl

theorem invoke : d'.invoke = d.invoke.map (·.rename σ) := by rw [h.same]; rfl

theorem builtIn : d'.builtIn = d.builtIn := by rw [h.same]; rfl

theorem obsolescence? : d'.obsolescence? = d.obsolescence? := by
  rw [h.same]
  exact Obsolescence.ofAttributes?_rename σ d.attributes

theorem parameterNames : d'.parameterNames = d.parameterNames := by
  rw [Declaration.parameterNames, h.typeParameters, List.map_map]
  rfl

theorem arity : d'.arity = d.arity := by
  rw [Declaration.arity, h.typeParameters, List.length_map, Declaration.arity]

theorem isGeneric : d'.isGeneric = d.isGeneric := by
  rw [Declaration.isGeneric, h.typeParameters, List.isEmpty_map, Declaration.isGeneric]

theorem simpleName : d'.simpleName = d.simpleName := by
  rw [Declaration.simpleName, h.isGeneric, h.name, h.arity, Declaration.simpleName]

theorem ownArguments : d'.ownArguments = d.ownArguments.map (·.rename σ) := by
  rw [Declaration.ownArguments, h.parameterNames, Declaration.ownArguments, List.map_map]
  rfl

/-! ## Levels of names -/

theorem openText : Program.openText d' = Program.openText d := by
  rw [Program.openText, Program.openText, h.name, h.parameterNames]

theorem crefLevel : Program.crefLevel d' = Program.crefLevel d := by
  rw [Program.crefLevel, Program.crefLevel, h.isGeneric, h.name, h.parameterNames]

theorem wrapperNameLevel : Program.wrapperNameLevel d' = Program.wrapperNameLevel d := by
  rw [Program.wrapperNameLevel, Program.wrapperNameLevel, h.isGeneric, h.name, h.arity]

theorem hintLevel : Program.hintLevel d' = Program.hintLevel d := by
  rw [Program.hintLevel, Program.hintLevel, h.name, h.parameterNames]

end Declaration.IsRenamed

theorem Nesting.typeParameters_of_isRenamed {σ : TypeId → TypeId} {path path' : Nesting}
    (h : List.Forall₂ (Declaration.IsRenamed σ) path path') :
    path'.typeParameters = path.typeParameters.map (·.rename σ) := by
  induction h with
  | nil => rfl
  | cons hd _ ih =>
    rw [typeParameters, List.flatMap_cons, typeParameters, List.flatMap_cons, List.map_append,
      hd.typeParameters]
    exact congrArg _ ih

namespace Program

/-- The declarations of a program are those of another under new places. -/
structure Renames (σ : TypeId → TypeId) (p q : Program) : Prop where
  injective : Function.Injective σ
  size : q.size = p.size
  source : p.OuterFirst
  target : q.OuterFirst
  declaration : ∀ id, (p.declaration id).IsRenamed σ (q.declaration (σ id))

namespace Renames

variable {σ : TypeId → TypeId} {p q : Program}

/-! ## Names -/

section Names

variable (h : p.Renames σ q)

include h

theorem nesting (id : TypeId) :
    List.Forall₂ (Declaration.IsRenamed σ) (p.nesting id) (q.nesting (σ id)) :=
  forall₂_nesting (fun _ => True) h.source h.target (fun _ _ _ _ => trivial)
    (fun id _ => h.declaration id)
    (fun id _ => (h.declaration id).container) trivial

/-- What does not tell places is the same on every level of a path. -/
theorem map_nesting {α : Type} {f : Declaration → α} (hf : ∀ {d d'}, d.IsRenamed σ d' → f d' = f d)
    (id : TypeId) :
    (q.nesting (σ id)).map f = (p.nesting id).map f := by
  have hpath := h.nesting id
  generalize p.nesting id = path, q.nesting (σ id) = path' at hpath
  induction hpath with
  | nil => rfl
  | cons hd _ ih => rw [List.map_cons, List.map_cons, hf hd, ih]

theorem map_dropLast_nesting {α : Type} {f : Declaration → α}
    (hf : ∀ {d d'}, d.IsRenamed σ d' → f d' = f d) (id : TypeId) :
    (q.nesting (σ id)).dropLast.map f = (p.nesting id).dropLast.map f := by
  rw [List.map_dropLast, List.map_dropLast, h.map_nesting hf]

theorem namespaceName (id : TypeId) :
    (q.nesting (σ id)).namespaceName = (p.nesting id).namespaceName := by
  rw [Nesting.namespaceName, Nesting.namespaceName, ← List.head?_map, ← List.head?_map,
    h.map_nesting Declaration.IsRenamed.namespaceName]

theorem metadataName (id : TypeId) : q.metadataName (σ id) = p.metadataName id := by
  rw [Program.metadataName, Program.metadataName, Nesting.metadataName, Nesting.metadataName,
    h.namespaceName, h.map_nesting Declaration.IsRenamed.simpleName]

theorem qualifiedName (id : TypeId) : q.qualifiedName (σ id) = p.qualifiedName id := by
  rw [Program.qualifiedName, Program.qualifiedName, Nesting.qualifiedName, Nesting.qualifiedName,
    h.namespaceName, h.map_nesting Declaration.IsRenamed.name]

theorem pathText (id : TypeId) (levelTexts : List String) :
    (q.nesting (σ id)).pathText levelTexts = (p.nesting id).pathText levelTexts := by
  rw [Nesting.pathText, Nesting.pathText, h.namespaceName]

theorem typeParametersInScope (id : TypeId) :
    q.typeParametersInScope (σ id) = (p.typeParametersInScope id).map (·.rename σ) :=
  Nesting.typeParameters_of_isRenamed (h.nesting id)

theorem namedText (id : TypeId) (arguments : List String) :
    q.namedText (σ id) arguments = p.namedText id arguments := by
  simp only [Program.namedText, h.pathText, h.map_dropLast_nesting Declaration.IsRenamed.openText,
    (h.declaration id).name]

end Names

/-! ## References -/

mutual

theorem typeText (h : p.Renames σ q) : ∀ r : TypeRef, q.typeText (r.rename σ) = p.typeText r
  | .named id arguments => by
    rw [TypeRef.rename, Program.typeText, Program.typeText, (h.declaration id).builtIn]
    cases (p.declaration id).builtIn with
    | some b => rfl
    | none =>
      simp only
      rw [typeTexts h arguments, h.namedText]
  | .parameter name => rfl
  | .array element rank => by
    rw [TypeRef.rename, Program.typeText, Program.typeText, typeText h element]
  | .nullable inner => by rw [TypeRef.rename, Program.typeText, Program.typeText, typeText h inner]

theorem typeTexts (h : p.Renames σ q) :
    ∀ refs : List TypeRef, q.typeTexts (TypeRef.renameAll σ refs) = p.typeTexts refs
  | [] => rfl
  | r :: rest => by
    rw [TypeRef.renameAll, Program.typeTexts, Program.typeTexts, typeText h r, typeTexts h rest]

end

section References

variable (h : p.Renames σ q)

include h

theorem typeTexts_map (refs : List TypeRef) :
    q.typeTexts (refs.map (·.rename σ)) = p.typeTexts refs := by
  rw [← TypeRef.renameAll_eq_map]
  exact h.typeTexts refs

theorem definitionText (id : TypeId) : q.definitionText (σ id) = p.definitionText id := by
  rw [Program.definitionText, (h.declaration id).ownArguments, ← TypeRef.renameAll_eq_map,
    ← TypeRef.rename, h.typeText]
  rfl

theorem cref (id : TypeId) : q.cref (σ id) = p.cref id := by
  simp only [Program.cref, h.pathText, h.map_nesting Declaration.IsRenamed.crefLevel]

/-! ## Names of wrappers -/

theorem wrapperName (id : TypeId) : q.wrapperName (σ id) = p.wrapperName id := by
  simp only [Program.wrapperName, h.map_dropLast_nesting Declaration.IsRenamed.wrapperNameLevel,
    (h.declaration id).name]

theorem wrapperNamespace (id : TypeId) : q.wrapperNamespace (σ id) = p.wrapperNamespace id :=
  h.namespaceName id

theorem hintName (id : TypeId) (mode : WrapperMode) :
    q.hintName (σ id) mode = p.hintName id mode := by
  simp only [Program.hintName, h.pathText, h.map_nesting Declaration.IsRenamed.hintLevel]

theorem wrapperText (id : TypeId) (arguments : List TypeRef) :
    q.wrapperText (σ id) (arguments.map (·.rename σ)) = p.wrapperText id arguments := by
  have houter : List.Forall₂ (Declaration.IsRenamed σ) (p.nesting id).dropLast
      (q.nesting (σ id)).dropLast := by
    have hlength := (h.nesting id).length_eq
    rw [List.dropLast_eq_take, List.dropLast_eq_take, ← hlength]
    exact List.forall₂_take _ (h.nesting id)
  have hparameters : ((Nesting.typeParameters (p.nesting id).dropLast).map (·.rename σ)).map
      (fun q => TypeRef.parameter q.name) = ((Nesting.typeParameters (p.nesting id).dropLast).map
        fun q => TypeRef.parameter q.name).map (·.rename σ) := by
    rw [List.map_map, List.map_map]
    rfl
  simp only [Program.wrapperText, Nesting.typeParameters_of_isRenamed houter, hparameters,
    ← List.map_append, h.typeTexts_map, h.wrapperNamespace, h.wrapperName]

/-! ## Signatures -/

theorem isBuiltIn (r : TypeRef) (b : BuiltIn) : q.isBuiltIn (r.rename σ) b = p.isBuiltIn r b := by
  rw [Program.isBuiltIn, Program.isBuiltIn, TypeRef.namedType?_rename]
  cases r.namedType? with
  | none => rfl
  | some id => simp only [Option.map_some, (h.declaration id).builtIn]

theorem signature? (delegate : TypeRef) :
    q.signature? (delegate.rename σ) = (p.signature? delegate).map (·.rename σ) := by
  rw [Program.signature?, Program.signature?, TypeRef.stripNullable_rename]
  cases delegate.stripNullable with
  | named id arguments =>
    simp only [TypeRef.rename, (h.declaration id).invoke, (h.declaration id).parameterNames,
      Option.map_map, Function.comp_def, Signature.rename_substitute, TypeRef.renameAll_eq_map]
  | parameter => rfl
  | array => rfl
  | nullable => rfl

theorem returnKind? (r : TypeRef) : q.returnKind? (r.rename σ) = p.returnKind? r := by
  unfold Program.returnKind?
  rw [h.isBuiltIn]
  rcases r with ⟨id, _ | ⟨first, rest⟩⟩ | _ | _ | _
  · simp only [TypeRef.rename, TypeRef.renameAll, h.metadataName]
  · rfl
  · rfl
  · rfl
  · rfl

end References

end Renames

end Program

end EventWrap
