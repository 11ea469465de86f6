import EventWrap.Pass.Chain
import EventWrap.Proofs.Renaming.Events
import EventWrap.Wrapper.Factory

/-!
# Wrappers of renamed programs

The classes, files and factory methods of a renamed program are those of the program itself, so that
a wrapper differs in nothing but the places that it mentions.
-/

namespace EventWrap

open Code

/-! ## Renamed wrappers -/

def Element.rename (σ : TypeId → TypeId) : Element → Element
  | .unit => .unit
  | .type r => .type (r.rename σ)
  | .tuple items => .tuple (items.map (·.rename σ))

def Classification.rename (σ : TypeId → TypeId) (c : Classification) : Classification :=
  { c with element := c.element.rename σ }

def ParentWrapper.rename (σ : TypeId → TypeId) (w : ParentWrapper) : ParentWrapper :=
  { w with type := σ w.type, arguments := w.arguments.map (·.rename σ) }

def Wrapper.rename (σ : TypeId → TypeId) (w : Wrapper) : Wrapper :=
  { w with source := σ w.source, parent := w.parent.map (·.rename σ) }

def FactoryMethod.rename (σ : TypeId → TypeId) (f : FactoryMethod) : FactoryMethod :=
  { f with source := σ f.source }

/-- An exposure with its types renamed. -/
def Exposure.rename (σ : TypeId → TypeId) (known : Exposure) : Exposure :=
  known.map fun entry => (σ entry.1, entry.2)

section Wrapper

variable (σ : TypeId → TypeId) (w : Wrapper)

@[simp] theorem Wrapper.inherited_rename : (w.rename σ).inherited = w.inherited := by
  rw [inherited, inherited, rename, Option.map_map]
  rfl

@[simp] theorem Wrapper.exposed_rename : (w.rename σ).exposed = w.exposed := by
  rw [exposed, exposed, inherited_rename]
  rfl

end Wrapper

theorem map_escape_rename (σ : TypeId → TypeId) (parameters : List TypeParameter) :
    ((parameters.map (·.rename σ)).map fun parameter => escape parameter.name) =
      parameters.map fun parameter => escape parameter.name := by
  rw [List.map_map]
  rfl

/-- A type is found in a renamed exposure as in the exposure itself. -/
theorem Exposure.lookup_rename {σ : TypeId → TypeId} (hσ : Function.Injective σ) (known : Exposure)
    (t : TypeId) :
    List.lookup (σ t) (known.rename σ) = List.lookup t known := by
  induction known with
  | nil => rfl
  | cons entry rest ih =>
    rw [rename, List.map_cons, List.lookup_cons, List.lookup_cons]
    by_cases ht : t = entry.1
    · rw [beq_iff_eq.2 ht, beq_iff_eq.2 (congrArg σ ht)]
    · rw [beq_eq_false_iff_ne.2 ht, beq_eq_false_iff_ne.2 (fun heq => ht (hσ heq))]
      exact ih

namespace Program.Renames

variable {σ : TypeId → TypeId} {p q : Program} (h : p.Renames σ q)

include h

/-! ## Properties -/

theorem isPlainEventArgs (r : TypeRef) :
    q.isPlainEventArgs (r.rename σ) = p.isPlainEventArgs r := by
  unfold Program.isPlainEventArgs
  rcases r with ⟨id, _ | ⟨first, rest⟩⟩ | _ | _ | _
  · simp only [TypeRef.rename, TypeRef.renameAll, h.metadataName]
  · rfl
  · rfl
  · rfl
  · rfl

theorem isSender (parameter : Parameter) :
    q.isSender (parameter.rename σ) = p.isSender parameter := by
  rw [Program.isSender, Parameter.rename, TypeRef.stripNullable_rename, h.isBuiltIn]
  rfl

theorem classify (s : Signature) (collapse : Bool) :
    q.classify (s.rename σ) collapse = (p.classify s collapse).rename σ := by
  unfold Program.classify
  rcases hparameters : s.parameters with _ | ⟨a, _ | ⟨b, _ | ⟨c, rest⟩⟩⟩
  · simp only [Signature.rename, hparameters, List.map_nil]
    rfl
  · simp only [Signature.rename, hparameters, List.map_cons, List.map_nil]
    rfl
  · simp only [Signature.rename, hparameters, List.map_cons, List.map_nil, h.isSender]
    rw [Parameter.rename, h.isPlainEventArgs]
    cases p.isSender a <;> cases collapse <;> cases p.isPlainEventArgs b.type <;> rfl
  · simp only [Signature.rename, hparameters, List.map_cons]
    simp [Classification.rename, Element.rename, Parameter.rename]

theorem elementText (reactive : ReactiveNames) (e : Element) :
    q.elementText reactive (e.rename σ) = p.elementText reactive e := by
  cases e with
  | unit => rfl
  | type r => exact h.typeText r
  | tuple items =>
    simp only [Element.rename, Program.elementText, List.map_map, Function.comp_def,
      Parameter.rename, h.typeText]

theorem handlerFormals (s : Signature) : q.handlerFormals (s.rename σ) = p.handlerFormals s := by
  simp only [Program.handlerFormals, Signature.rename, List.map_map, Function.comp_def,
    Parameter.rename, h.typeText]

theorem handlerResult (e : EventDescriptor) : q.handlerResult (e.rename σ) = p.handlerResult e := by
  unfold Program.handlerResult
  rcases e with ⟨name, declaringType, delegate, signature, returnKind, isStatic, obsolescence⟩
  cases returnKind with
  | void => rfl
  | task => exact h.typeText signature.result
  | valueTask => exact h.typeText signature.result

theorem observableOf (s : Settings) (access : Expr) (e : EventDescriptor) :
    q.observableOf s access (e.rename σ) = p.observableOf s access e := by
  have hsignature : (e.rename σ).signature = e.signature.rename σ := rfl
  have hkind : (e.rename σ).returnKind = e.returnKind := rfl
  have hforwarding : (p.classify e.signature s.collapsePlainEventArgs |>.rename σ).forwarding =
      (p.classify e.signature s.collapsePlainEventArgs).forwarding := rfl
  have helement : (p.classify e.signature s.collapsePlainEventArgs |>.rename σ).element =
      (p.classify e.signature s.collapsePlainEventArgs).element.rename σ := rfl
  simp only [Program.observableOf, hsignature, hkind, h.classify, hforwarding, helement,
    h.elementText, h.handlerFormals, h.handlerResult]

theorem eventProperty (s : Settings) (mode : WrapperMode) (target : Expr) (hides : Bool)
    (e : EventDescriptor) :
    q.eventProperty s mode target hides (e.rename σ) = p.eventProperty s mode target hides e := by
  have hsignature : (e.rename σ).signature = e.signature.rename σ := rfl
  have hdeclaring : (e.rename σ).declaringType = σ e.declaringType := rfl
  have hname : (e.rename σ).name = e.name := rfl
  have hobsolescence : (e.rename σ).obsolescence = e.obsolescence := rfl
  have helement : (p.classify e.signature s.collapsePlainEventArgs |>.rename σ).element =
      (p.classify e.signature s.collapsePlainEventArgs).element.rename σ := rfl
  simp only [Program.eventProperty, hsignature, hdeclaring, hname, hobsolescence, h.cref,
    h.classify, helement, h.elementText, h.observableOf]

theorem boundTexts (parameter : TypeParameter) :
    q.boundTexts (parameter.rename σ) = p.boundTexts parameter := by
  have hbounds : (parameter.bounds.map (·.rename σ)).map q.typeText =
      parameter.bounds.map p.typeText := by
    rw [List.map_map]
    exact List.map_congr_left fun r _ => h.typeText r
  rw [Program.boundTexts, TypeParameter.rename, hbounds]
  rfl

theorem constraints (parameters : List TypeParameter) :
    q.constraints (parameters.map (·.rename σ)) = p.constraints parameters := by
  have hconstrained :
      TypeParameter.isConstrained ∘ TypeParameter.rename σ = TypeParameter.isConstrained := by
    funext parameter
    simp only [Function.comp_apply, TypeParameter.isConstrained, TypeParameter.rename,
      List.isEmpty_map]
  rw [Program.constraints, Program.constraints, List.filter_map, hconstrained, List.map_map]
  apply List.map_congr_left
  intro parameter _
  rw [Function.comp_apply, h.boundTexts]
  rfl

/-! ## Classes -/

theorem wrapperConstructor (s : Settings) (id : TypeId) (derived : Bool) :
    q.wrapperConstructor s (σ id) derived = p.wrapperConstructor s id derived := by
  simp only [Program.wrapperConstructor, h.wrapperName, h.definitionText]

theorem holdingMembers (s : Settings) (id : TypeId) (derived : Bool) :
    q.holdingMembers s (σ id) derived = p.holdingMembers s id derived := by
  simp only [Program.holdingMembers, h.definitionText, h.wrapperConstructor]

theorem eventTarget (id : TypeId) (mode : WrapperMode) :
    q.eventTarget (σ id) mode = p.eventTarget id mode := by
  cases mode with
  | ofInstance => rfl
  | ofStatics => simp only [Program.eventTarget, h.definitionText]

theorem wrapperSummary (id : TypeId) (mode : WrapperMode) :
    q.wrapperSummary (σ id) mode = p.wrapperSummary id mode := by
  cases mode with
  | ofInstance =>
    exact congrArg
      (fun cref => "Observable wrappers for the events of the " ++ seeCref cref ++ " class.")
      (h.cref id)
  | ofStatics =>
    exact congrArg
      (fun cref => "Observable wrappers for the static events of the " ++ seeCref cref ++ " class.")
      (h.cref id)

theorem wrapperClass (s : Settings) (mode : WrapperMode) (parent : Option ParentWrapper)
    (t : TypeEvents) :
    q.wrapperClass s mode (parent.map (·.rename σ)) (t.rename σ) =
      p.wrapperClass s mode parent t := by
  have hexposed : (parent.map (·.rename σ)).map (·.exposed) = parent.map (·.exposed) := by
    rw [Option.map_map]
    rfl
  have hbase : ((parent.map (·.rename σ)).map fun w => q.wrapperText w.type w.arguments) =
      parent.map fun w => p.wrapperText w.type w.arguments := by
    simp only [Option.map_map, Function.comp_def, ParentWrapper.rename, h.wrapperText]
  have hmembers :
      ((t.rename σ).events.map fun e =>
        Member.property (q.eventProperty s mode (q.eventTarget (σ t.type) mode)
          (((parent.map (·.exposed)).getD []).contains e.name) e)) =
      t.events.map fun e =>
        Member.property (p.eventProperty s mode (p.eventTarget t.type mode)
          (((parent.map (·.exposed)).getD []).contains e.name) e) := by
    rw [TypeEvents.rename, List.map_map]
    apply List.map_congr_left
    intro e _
    rw [Function.comp_apply, h.eventProperty, h.eventTarget]
    rfl
  have htype : (t.rename σ).type = σ t.type := rfl
  simp only [Program.wrapperClass, htype, hexposed, hbase, hmembers, h.wrapperSummary,
    (h.declaration t.type).obsolescence?, h.wrapperName, h.typeParametersInScope, map_escape_rename,
    h.constraints, Option.isSome_map, h.holdingMembers]

theorem synthesize (s : Settings) (events : TypeEvents) (mode : WrapperMode)
    (parent : Option ParentWrapper) (evenEmpty : Bool) :
    q.synthesize s
        { events := events.rename σ, mode, parent := parent.map (·.rename σ), evenEmpty } =
      (p.synthesize s { events, mode, parent, evenEmpty }).map (·.rename σ) := by
  have htype : (events.rename σ).type = σ events.type := rfl
  have hparent : (if mode.isStatic = true then none else parent.map (·.rename σ)) =
      (if mode.isStatic = true then none else parent).map (·.rename σ) := by
    cases mode <;> rfl
  simp only [Program.synthesize, TypeEvents.isEmpty_rename, TypeEvents.names_rename]
  split
  · rfl
  · simp only [hparent, htype, h.wrapperName, h.wrapperNamespace, h.hintName, h.wrapperClass,
      Option.map_some]
    rfl

/-! ## Chains -/

theorem parentWrapper? (known : Exposure) (id : TypeId) :
    q.parentWrapper? (known.rename σ) (σ id) = (p.parentWrapper? known id).map (·.rename σ) := by
  rw [Program.parentWrapper?, Program.parentWrapper?, h.ancestorsWithEvents, List.head?_map,
    Option.map_map, Option.map_map]
  apply Option.map_congr
  intro base _
  simp only [Function.comp_apply, Constructed.rename, Exposure.lookup_rename h.injective]
  rfl

theorem linkWrapper? (s : Settings) (known : Exposure) (id : TypeId) :
    q.linkWrapper? s (known.rename σ) (σ id) = (p.linkWrapper? s known id).map (·.rename σ) := by
  simp only [Program.linkWrapper?, h.parentWrapper?, h.collect, Option.isSome_map, h.synthesize]

theorem links (id : TypeId) : q.links (σ id) = (p.links id).map σ := by
  calc q.links (σ id)
    _ = ((p.ancestorsWithEvents id false).map (Constructed.rename σ)).reverse.map (·.1) ++
        [σ id] := by rw [Program.links, h.ancestorsWithEvents]
    _ = ((p.ancestorsWithEvents id false).reverse.map (·.1)).map σ ++ [σ id] := by
      rw [← List.map_reverse, List.map_map, List.map_map]
      rfl
    _ = (p.links id).map σ := by
      rw [Program.links, List.map_append]
      rfl

theorem linkWrappers (s : Settings) (known : Exposure) (ids : List TypeId) :
    q.linkWrappers s (known.rename σ) (ids.map σ) =
      (p.linkWrappers s known ids).map (·.rename σ) := by
  induction ids generalizing known with
  | nil => rfl
  | cons link rest ih =>
    rw [List.map_cons, Program.linkWrappers, Program.linkWrappers,
      Exposure.lookup_rename h.injective, h.linkWrapper?]
    split
    · exact ih known
    · cases p.linkWrapper? s known link with
      | none => exact ih known
      | some w =>
        have hrest := ih ((link, w.exposed) :: known)
        simp only [Option.map_some, List.map_cons, Wrapper.exposed_rename, List.cons.injEq,
          true_and]
        exact hrest

theorem wrappersFor? (s : Settings) (known : Exposure) {r r' : Request} (htype : r'.type = σ r.type)
    (hmode : r'.mode = r.mode) :
    q.wrappersFor? s (known.rename σ) r' =
      (p.wrappersFor? s known r).map (List.map (·.rename σ)) := by
  rw [Program.wrappersFor?, Program.wrappersFor?, htype, hmode]
  cases r.mode with
  | ofInstance =>
    simp only [Program.instanceWrappers?, h.collect, TypeEvents.isEmpty_rename,
      h.ancestorsWithEvents, List.isEmpty_map, h.links, h.linkWrappers]
    split <;> rfl
  | ofStatics =>
    have hstatic := h.synthesize s (p.collect r.type true true) .ofStatics none false
    simp only [Program.staticWrapper?, h.collect]
    rw [Option.map_none] at hstatic
    rw [hstatic, Option.map_map, Option.map_map]
    rfl

/-! ## Factory methods -/

theorem factoryDeclaration (s : Settings) (id : TypeId) :
    q.factoryDeclaration s (σ id) = p.factoryDeclaration s id := by
  simp only [Program.factoryDeclaration, (h.declaration id).ownArguments, h.wrapperText, h.cref,
    (h.declaration id).obsolescence?, h.typeParametersInScope, map_escape_rename, h.constraints,
    h.definitionText]

theorem factory? (s : Settings) (w : Wrapper) :
    q.factory? s (w.rename σ) = (p.factory? s w).map (·.rename σ) := by
  have hmode : (w.rename σ).mode = w.mode := rfl
  have hsource : (w.rename σ).source = σ w.source := rfl
  rw [Program.factory?, Program.factory?, hmode]
  cases w.mode with
  | ofStatics => rfl
  | ofInstance =>
    simp only [hsource, h.metadataName, h.factoryDeclaration, Option.map_some]
    rfl

end Program.Renames

end EventWrap
