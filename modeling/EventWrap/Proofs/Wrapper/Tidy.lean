import EventWrap.Proofs.Code.Undocumented
import EventWrap.Proofs.Program.OneLine
import EventWrap.Proofs.Settings
import EventWrap.Proofs.Wrapper.Subscription
import EventWrap.Triggers
import EventWrap.Wrapper.Factory

/-!
# Tidy units

The units of a program whose names are on one line, under valid settings, are tidy. Without
documentation in the settings they are the same units without documentation, and without the
directive the same units without the directive.
-/

namespace EventWrap

open Text Code

/-! ## Units with a class -/

namespace Code.SourceUnit

variable {u : SourceUnit} {namespaceName : String} {c : ClassBlock}

theorem forall_mem_addToNamespace {P : NamespaceBlock → Prop} {blocks : List NamespaceBlock}
    (hblocks : ∀ n ∈ blocks, P n) (hnew : P ⟨namespaceName, [c]⟩)
    (hmore : ∀ n ∈ blocks, n.name = namespaceName → P { n with classes := n.classes ++ [c] }) :
    ∀ n ∈ addToNamespace namespaceName c blocks, P n := by
  induction blocks with
  | nil => exact List.forall_mem_singleton.2 hnew
  | cons block rest ih =>
    obtain ⟨hblock, hrest⟩ := List.forall_mem_cons.1 hblocks
    obtain ⟨hmore, hothers⟩ := List.forall_mem_cons.1 hmore
    rw [addToNamespace_cons]
    split
    · next hname => exact List.forall_mem_cons.2 ⟨hmore hname, hrest⟩
    · exact List.forall_mem_cons.2 ⟨hblock, ih hrest hothers⟩

theorem Tidy.addClass (h : u.Tidy) (hname : IsOneLine namespaceName) (hc : c.Tidy) :
    (u.addClass namespaceName c).Tidy := by
  rw [SourceUnit.addClass]
  split
  · refine ⟨h.comments, h.commented, h.names, h.classes, ?_⟩
    exact List.forall_mem_append.2 ⟨h.globals, List.forall_mem_singleton.2 hc⟩
  · refine ⟨h.comments, h.commented, ?_, ?_, h.globals⟩
    · exact forall_mem_addToNamespace h.names hname fun n hn _ => h.names n hn
    · refine forall_mem_addToNamespace h.classes (List.forall_mem_singleton.2 hc) fun n hn _ => ?_
      exact List.forall_mem_append.2 ⟨h.classes n hn, List.forall_mem_singleton.2 hc⟩

theorem undocumented_addClass (u : SourceUnit) (namespaceName : String) (c : ClassBlock) :
    (u.addClass namespaceName c).undocumented =
      u.undocumented.addClass namespaceName c.undocumented := by
  have hadd : ∀ blocks : List NamespaceBlock,
      (addToNamespace namespaceName c blocks).map (·.undocumented) =
        addToNamespace namespaceName c.undocumented (blocks.map (·.undocumented)) := by
    intro blocks
    induction blocks with
    | nil => rfl
    | cons block rest ih =>
      have hname : block.undocumented.name = block.name := rfl
      rw [List.map_cons, addToNamespace_cons, addToNamespace_cons, hname]
      split
      · simp [NamespaceBlock.undocumented]
      · rw [List.map_cons, ih]
  rw [SourceUnit.addClass, SourceUnit.addClass]
  split
  · simp [undocumented]
  · simp [undocumented, hadd]

theorem undirected_addClass (u : SourceUnit) (namespaceName : String) (c : ClassBlock) :
    (u.addClass namespaceName c).undirected = u.undirected.addClass namespaceName c := by
  rw [SourceUnit.addClass, SourceUnit.addClass]
  split <;> rfl

end Code.SourceUnit

theorem Settings.tidy_emptyUnit (s : Settings) : s.emptyUnit.Tidy where
  comments := List.forall_mem_singleton.2 (by decide)
  commented := List.cons_ne_nil _ _
  names := List.forall_mem_nil _
  classes := List.forall_mem_nil _
  globals := List.forall_mem_nil _

/-! ## Parts of classes -/

theorem tidy_obsoleteUses (o : Option Obsolescence) : ∀ a ∈ obsoleteUses o, a.Tidy := by
  unfold obsoleteUses
  split
  · split
    · exact List.forall_mem_nil _
    · have hname : IsOneLine "global::System.ObsoleteAttribute" := by decide
      exact List.forall_mem_singleton.2 ⟨hname, trivial, trivial, trivial⟩
  · exact List.forall_mem_nil _

theorem tidy_document {s : Settings} {doc : Doc} (h : doc.Tidy) : ∀ d ∈ s.document doc, d.Tidy := by
  rw [Settings.document]
  split
  · exact fun d hd => Option.some.inj hd ▸ h
  · exact nofun

theorem isOneLine_freeName {base : String} (h : IsOneLine base) (taken : List String) :
    IsOneLine (freeName base taken) := by
  have hfirst := isFirstFree_freeName base taken
  generalize freeName base taken = name at hfirst ⊢
  cases hfirst with
  | plain => exact h
  | numbered => exact isOneLine_append.2 ⟨h, isOneLine_toString _⟩

theorem opens_freeName {base : String} (h : opens base) (taken : List String) :
    opens (freeName base taken) := by
  obtain ⟨suffix, heq⟩ := freeName_eq_append base taken
  rw [heq]
  exact opens_append h suffix

namespace Settings.HasOneLineNames

variable {s : Settings} (hs : s.HasOneLineNames)

include hs

theorem observable : IsOneLine s.reactive.observable :=
  hs.reactive ("reactive.observable", _) (by simp [ReactiveNames.fields])

theorem create : IsOneLine s.reactive.create :=
  hs.reactive ("reactive.create", _) (by simp [ReactiveNames.fields])

theorem disposableCreate : IsOneLine s.reactive.disposableCreate :=
  hs.reactive ("reactive.disposable_create", _) (by simp [ReactiveNames.fields])

theorem unit : IsOneLine s.reactive.unit :=
  hs.reactive ("reactive.unit", _) (by simp [ReactiveNames.fields])

theorem unitDefault : IsOneLine s.reactive.unitDefault :=
  hs.reactive ("reactive.unit_default", _) (by simp [ReactiveNames.fields])

end Settings.HasOneLineNames

/-! ## Wrapper classes -/

namespace Program

variable {p : Program} (hp : p.HasOneLineNames) {s : Settings} (hs : s.HasOneLineNames)

section Constraints

include hp

theorem tidy_constraints (id : TypeId) :
    ∀ c ∈ p.constraints (p.typeParametersInScope id), c.Tidy := by
  refine List.forall_mem_map.2 fun q hq => ?_
  obtain ⟨hname, hbounds⟩ := hp.typeParametersInScope id q (List.mem_of_mem_filter hq)
  refine ⟨isOneLine_escape hname, ?_⟩
  rw [boundTexts, List.forall_mem_append, List.forall_mem_append, List.forall_mem_map]
  refine ⟨⟨?_, fun r hr => hp.typeText (hbounds r hr)⟩, ?_⟩
  · split
    · decide
    · split <;> decide
  · split <;> decide

theorem isOneLine_parametersInScope (id : TypeId) :
    ∀ name ∈ (p.typeParametersInScope id).map fun q => escape q.name, IsOneLine name :=
  List.forall_mem_map.2 fun q hq => isOneLine_escape (hp.typeParametersInScope id q hq).1

end Constraints

/-- What a property is to be made of: an event on one line, whose handlers complete. -/
structure IsPresentable (p : Program) (e : EventDescriptor) : Prop where
  name : IsOneLine e.name
  signature : e.signature.IsOneLine
  completes : p.Completes e.signature.result e.returnKind

theorem tidy_handlerBody {forward : Expr} (h : forward.Tidy) (hopens : forward.opens)
    (kind : ReturnKind) : (handlerBody kind forward).Tidy := by
  cases kind with
  | void => exact h
  | task =>
    exact ⟨⟨h, hopens⟩,
      (by decide : IsOneLine "global::System.Threading.Tasks.Task.CompletedTask"), trivial⟩
  | valueTask => exact ⟨⟨h, hopens⟩, (by decide : IsOneLine "default"), trivial⟩

section Property

variable {e : EventDescriptor} (he : p.IsPresentable e)

include he in
theorem opens_handlerResult : opens (p.handlerResult e) := by
  have hnamed : ∀ id, opens (p.typeText (.named id [])) := by
    intro id
    rw [typeText]
    split
    · next b _ => cases b <;> decide
    · exact opens_append (by decide) _
  have hcompletes := he.completes
  rw [handlerResult]
  generalize e.signature.result = result, e.returnKind = kind at hcompletes
  cases hcompletes with
  | void => exact (by decide : opens "void")
  | task | valueTask => exact hnamed _

include hp he

theorem isOneLine_handlerResult : IsOneLine (p.handlerResult e) := by
  have hresult := hp.typeText (Signature.isOneLine_iff.1 he.signature).1
  rw [handlerResult]
  split
  · decide
  · exact hresult
  · exact hresult

theorem tidy_handlerFormals : ∀ f ∈ p.handlerFormals e.signature, f.Tidy := by
  refine List.forall_mem_map.2 fun q hq => ?_
  obtain ⟨hname, htype⟩ := (Signature.isOneLine_iff.1 he.signature).2 q hq
  exact ⟨hp.typeText htype, isOneLine_escape hname⟩

include hs

theorem isOneLine_elementText :
    IsOneLine
      (p.elementText s.reactive (p.classify e.signature s.collapsePlainEventArgs).element) := by
  have hparameters := (Signature.isOneLine_iff.1 he.signature).2
  have htuple : ∀ items : List Parameter, (∀ q ∈ items, IsOneLine q.name ∧ q.type.IsOneLine) →
      IsOneLine (p.elementText s.reactive (.tuple items)) := by
    intro items hitems
    rw [elementText, isOneLine_append, isOneLine_append]
    refine ⟨⟨by decide, isOneLine_intercalate (by decide) (List.forall_mem_map.2 fun q hq => ?_)⟩,
      by decide⟩
    rw [isOneLine_append, isOneLine_append]
    exact ⟨⟨hp.typeText (hitems q hq).2, by decide⟩, isOneLine_escape (hitems q hq).1⟩
  rw [classify]
  split
  · exact hs.unit
  · next q hq => exact hp.typeText (hparameters q (hq ▸ List.mem_cons_self)).2
  · next sender argument hq =>
    rw [hq] at hparameters
    split
    · split
      · exact hs.unit
      · exact hp.typeText (hparameters argument (List.mem_cons_of_mem _ List.mem_cons_self)).2
    · exact htuple _ hparameters
  · exact htuple _ hparameters

omit hp in
theorem tidy_forwardedValue : (forwardedValue s.reactive
    (p.classify e.signature s.collapsePlainEventArgs).forwarding).Tidy := by
  have hparameters := (Signature.isOneLine_iff.1 he.signature).2
  have htuple : ∀ names : List String, (∀ name ∈ names, IsOneLine name) →
      (forwardedValue s.reactive (.tuple names)).Tidy := by
    intro names hnames
    change AllTidy (names.map fun name => .name (escape name))
    exact allTidy_iff.2
      (List.forall_mem_map.2 fun name hname => isOneLine_escape (hnames name hname))
  rw [classify]
  split
  · exact hs.unitDefault
  · next q hq => exact isOneLine_escape (hparameters q (hq ▸ List.mem_cons_self)).1
  · next sender argument hq =>
    rw [hq] at hparameters
    obtain ⟨hsender, hargument⟩ := List.forall_mem_cons.1 hparameters
    obtain ⟨hargument, -⟩ := List.forall_mem_cons.1 hargument
    split
    · split
      · exact hs.unitDefault
      · exact isOneLine_escape hargument.1
    · exact htuple _ (List.forall_mem_cons.2
        ⟨hsender.1, List.forall_mem_singleton.2 hargument.1⟩)
  · exact htuple _ (List.forall_mem_map.2 fun q hq => (hparameters q hq).1)

theorem tidy_observableOf {access : Expr} (haccess : access.Tidy) (hopens : access.opens) :
    (p.observableOf s access e).Tidy := by
  generalize hobserver : freeName "obs" ((p.handlerFormals e.signature).map (·.name)) = observer
  generalize hhandler : freeName "Handler" ((p.handlerFormals e.signature).map (·.name)) = handler
  have hobserverLine : IsOneLine observer := hobserver ▸ isOneLine_freeName (by decide) _
  have hobserverOpens : opens observer := hobserver ▸ opens_freeName (by decide) _
  have hhandlerLine : IsOneLine handler := hhandler ▸ isOneLine_freeName (by decide) _
  have hforward : (Expr.call (.member (.name observer) "OnNext") [] [forwardedValue s.reactive
      (p.classify e.signature s.collapsePlainEventArgs).forwarding]).Tidy :=
    ⟨⟨hobserverLine, by decide⟩, List.forall_mem_nil _, tidy_forwardedValue hs he, trivial⟩
  have hfunction : (Statement.localFunction (p.handlerResult e) handler
      (p.handlerFormals e.signature) (handlerBody e.returnKind _)).Tidy :=
    ⟨isOneLine_handlerResult hp he, opens_handlerResult he, hhandlerLine,
      tidy_handlerFormals hp he, tidy_handlerBody hforward hobserverOpens e.returnKind⟩
  have hadd : (Statement.expression (.assign access .add (.name handler))).Tidy :=
    ⟨⟨haccess, hhandlerLine⟩, hopens⟩
  have hremove : (Statement.result (.call (.name s.reactive.disposableCreate) []
      [.lambda [] (.expression (.assign access .subtract (.name handler)))])).Tidy :=
    ⟨hs.disposableCreate, List.forall_mem_nil _, ⟨List.forall_mem_nil _, haccess, hhandlerLine⟩,
      trivial⟩
  have hsubscribe : (Expr.lambda [observer] (.block [_, _, _])).Tidy :=
    ⟨List.forall_mem_singleton.2 hobserverLine, hfunction, hadd, hremove, trivial⟩
  simp only [observableOf, hobserver, hhandler]
  have helement := List.forall_mem_singleton.2 (isOneLine_elementText hp hs he)
  exact ⟨hs.create, helement, hsubscribe, trivial⟩

theorem tidy_eventProperty {target : Expr} (htarget : target.Tidy) (hopens : target.opens)
    (mode : WrapperMode) (hides : Bool) : (p.eventProperty s mode target hides e).Tidy where
  doc := tidy_document ⟨List.forall_mem_nil _⟩
  attributes := tidy_obsoleteUses _
  modifiers := List.cons_ne_nil _ _
  type := isOneLine_append.2 ⟨isOneLine_append.2 ⟨isOneLine_append.2 ⟨hs.observable, by decide⟩,
    isOneLine_elementText hp hs he⟩, by decide⟩
  name := isOneLine_escape he.name
  getter := tidy_observableOf hp hs he ⟨htarget, isOneLine_escape he.name⟩ hopens

end Property

section Class

include hp

theorem tidy_wrapperConstructor (s : Settings) (id : TypeId) (derived : Bool) :
    (p.wrapperConstructor s id derived).Tidy where
  doc := tidy_document ⟨List.forall_mem_singleton.2 (by decide)⟩
  modifiers := List.cons_ne_nil _ _
  name := hp.wrapperName id
  parameters := List.forall_mem_singleton.2 ⟨hp.definitionText id, (by decide : IsOneLine "data")⟩
  baseArguments := by
    cases derived with
    | false => exact nofun
    | true =>
      rintro _ ⟨⟩
      exact ⟨(by decide : IsOneLine "data"), trivial⟩
  body := ⟨⟨⟨(by decide : IsOneLine "_data"), (by decide : IsOneLine "data")⟩,
    (by decide : opens "_data")⟩, trivial⟩

theorem eventTarget_spec (id : TypeId) (mode : WrapperMode) :
    (p.eventTarget id mode).Tidy ∧ (p.eventTarget id mode).opens := by
  cases mode with
  | ofInstance => exact ⟨(by decide : IsOneLine "_data"), (by decide : opens "_data")⟩
  | ofStatics =>
    refine ⟨hp.definitionText id, ?_⟩
    change opens (p.definitionText id)
    rw [definitionText, typeText]
    split
    · next b _ => cases b <;> decide
    · exact opens_append (by decide) _

include hs

theorem tidy_wrapperClass {mode : WrapperMode} {parent : Option ParentWrapper} {t : TypeEvents}
    (hparent : ∀ w ∈ parent, ∀ r ∈ w.arguments, r.IsOneLine)
    (hevents : ∀ e ∈ t.events, p.IsPresentable e) : (p.wrapperClass s mode parent t).Tidy where
  doc := tidy_document ⟨List.forall_mem_nil _⟩
  attributes := tidy_obsoleteUses _
  modifiers := List.cons_ne_nil _ _
  name := hp.wrapperName t.type
  typeParameters := isOneLine_parametersInScope hp t.type
  base := by
    intro text htext
    obtain ⟨w, hw, rfl⟩ := Option.map_eq_some_iff.1 htext
    exact hp.wrapperText w.type (hparent w hw)
  constraints := tidy_constraints hp t.type
  members := by
    obtain ⟨htarget, hopens⟩ := eventTarget_spec hp t.type mode
    refine List.forall_mem_append.2 ⟨?_, List.forall_mem_map.2 fun e he =>
      tidy_eventProperty hp hs (hevents e he) htarget hopens mode _⟩
    split
    · exact List.forall_mem_nil _
    · refine List.forall_mem_cons.2 ⟨?_, List.forall_mem_singleton.2 ?_⟩
      · exact Field.Tidy.mk (List.cons_ne_nil _ _) (hp.definitionText t.type)
          (by decide : IsOneLine "_data")
      · exact tidy_wrapperConstructor hp s t.type _

theorem tidy_factoryDeclaration (id : TypeId) : (p.factoryDeclaration s id).Tidy where
  doc := tidy_document ⟨List.forall_mem_singleton.2 (by decide)⟩
  attributes := tidy_obsoleteUses _
  modifiers := List.cons_ne_nil _ _
  returnType := hp.wrapperText id (hp.ownArguments id)
  name := hs.factoryMethod
  typeParameters := isOneLine_parametersInScope hp id
  parameters := List.forall_mem_singleton.2
    ⟨hp.definitionText id, (by decide : IsOneLine "item")⟩
  constraints := tidy_constraints hp id
  body := ⟨hp.wrapperText id (hp.ownArguments id), (by decide : IsOneLine "item"), trivial⟩

end Class

/-! ## Plans -/

/-- What a wrapper is planned from is on one line. -/
structure IsWritable (p : Program) (plan : WrapperPlan) : Prop where
  parent : ∀ w ∈ plan.parent, ∀ r ∈ w.arguments, r.IsOneLine
  events : ∀ e ∈ plan.events.events, p.IsPresentable e

section Plans

include hp

theorem isPresentable_collected (id : TypeId) (inherited isStatic : Bool) :
    ∀ e ∈ (p.collect id inherited isStatic).events, p.IsPresentable e := by
  intro e he
  obtain ⟨hname, hsignature, hcompletes⟩ := hp.collected he
  exact ⟨hname, hsignature, hcompletes⟩

theorem isWritable_link (known : Exposure) (id : TypeId) (evenEmpty : Bool) :
    p.IsWritable ⟨p.collect id false false, .ofInstance, p.parentWrapper? known id, evenEmpty⟩ where
  parent := by
    intro w hw
    obtain ⟨c, hc, rfl⟩ := Option.map_eq_some_iff.1 hw
    exact hp.ancestorsWithEvents id false c (List.mem_of_mem_head? hc)
  events := isPresentable_collected hp id false false

theorem isWritable_static (id : TypeId) :
    p.IsWritable { events := p.collect id true true, mode := .ofStatics } where
  parent := nofun
  events := isPresentable_collected hp id true true

include hs

theorem tidy_unit {plan : WrapperPlan} (hplan : p.IsWritable plan) {w : Wrapper}
    (hw : p.synthesize s plan = some w) : (w.unit s).Tidy := by
  simp only [synthesize] at hw
  split at hw
  · cases hw
  · cases hw
    refine s.tidy_emptyUnit.addClass (hp.nestingNamespace plan.events.type)
      (tidy_wrapperClass hp hs ?_ hplan.events)
    split
    · intro parent hparent
      cases hparent
    · exact hplan.parent

end Plans

/-- The factory method for an instance wrapper of a type. -/
def factoryOf (p : Program) (s : Settings) (id : TypeId) : FactoryMethod where
  source := id
  sortKey := p.metadataName id
  declaration := p.factoryDeclaration s id

theorem members_extensionsClassOf (p : Program) (s : Settings) (ids : List TypeId) :
    (s.extensionsClassOf (ids.map (p.factoryOf s))).members =
      (sortedBy p.metadataName ids).map fun id => .method (p.factoryDeclaration s id) := by
  have hsorted : sortedBy (·.sortKey) (ids.map (p.factoryOf s)) =
      (sortedBy p.metadataName ids).map (p.factoryOf s) :=
    (List.map_mergeSort (f := p.factoryOf s) fun _ _ _ _ => rfl).symm
  rw [Settings.extensionsClassOf, hsorted, List.map_map]
  rfl

end Program

/-! ## The units of the settings -/

namespace Settings

open Program

variable {s : Settings} (hs : s.HasOneLineNames)

include hs

theorem tidy_extensionsClassOf {p : Program} (hp : p.HasOneLineNames) (ids : List TypeId) :
    (s.extensionsClassOf (ids.map (p.factoryOf s))).Tidy where
  doc := tidy_document ⟨List.forall_mem_nil _⟩
  attributes := List.forall_mem_nil _
  modifiers := List.cons_ne_nil _ _
  name := hs.extensionsClass
  typeParameters := List.forall_mem_nil _
  base := nofun
  constraints := List.forall_mem_nil _
  members := by
    rw [members_extensionsClassOf]
    exact List.forall_mem_map.2 fun id _ => tidy_factoryDeclaration hp hs id

theorem tidy_extensionsUnit {p : Program} (hp : p.HasOneLineNames) (ids : List TypeId) :
    ∀ u ∈ s.extensionsUnit (ids.map (p.factoryOf s)), u.Tidy := by
  rw [extensionsUnit]
  split
  · exact nofun
  · rintro _ ⟨⟩
    exact s.tidy_emptyUnit.addClass hs.extensionsNamespace (tidy_extensionsClassOf hs hp ids)

theorem tidy_fallbackMethod : s.fallbackMethod.Tidy where
  doc := tidy_document ⟨List.forall_mem_singleton.2 (by decide)⟩
  attributes := List.forall_mem_nil _
  modifiers := List.cons_ne_nil _ _
  returnType := (by decide : IsOneLine "object")
  name := hs.factoryMethod
  typeParameters := List.forall_mem_singleton.2 (by decide : IsOneLine "T")
  parameters := List.forall_mem_singleton.2
    ⟨(by decide : IsOneLine "T"), (by decide : IsOneLine "item")⟩
  constraints := List.forall_mem_nil _
  body := ⟨(by decide : IsOneLine "global::System.InvalidOperationException"), trivial, trivial⟩

theorem tidy_holderClass : s.holderClass.Tidy where
  doc := tidy_document ⟨List.forall_mem_nil _⟩
  attributes := List.forall_mem_nil _
  modifiers := List.cons_ne_nil _ _
  name := hs.extensionsClass
  typeParameters := List.forall_mem_nil _
  base := nofun
  constraints := List.forall_mem_nil _
  members := List.forall_mem_singleton.2 (tidy_fallbackMethod hs)

theorem tidy_markerConstructor : s.markerConstructor.Tidy where
  doc := tidy_document ⟨List.forall_mem_singleton.2 (by decide)⟩
  modifiers := List.cons_ne_nil _ _
  name := hs.staticAttribute
  parameters := List.forall_mem_singleton.2
    ⟨(by decide : IsOneLine "global::System.Type"), (by decide : IsOneLine "type")⟩
  baseArguments := nofun
  body := ⟨⟨⟨(by decide : IsOneLine "Type"), (by decide : IsOneLine "type")⟩,
    (by decide : opens "Type")⟩, trivial⟩

omit hs in
theorem tidy_markerProperty (s : Settings) : s.markerProperty.Tidy where
  doc := tidy_document ⟨List.forall_mem_nil _⟩
  attributes := List.forall_mem_nil _
  modifiers := List.cons_ne_nil _ _
  type := (by decide : IsOneLine "global::System.Type")
  name := (by decide : IsOneLine "Type")
  getter := trivial

theorem tidy_markerClass : s.markerClass.Tidy where
  doc := tidy_document ⟨List.forall_mem_nil _⟩
  attributes := List.forall_mem_singleton.2
    ⟨(by decide : IsOneLine "global::System.AttributeUsage"),
      (by decide : IsOneLine "global::System.AttributeTargets.Assembly"),
      ⟨(by decide : IsOneLine "AllowMultiple"), trivial⟩, trivial⟩
  modifiers := List.cons_ne_nil _ _
  name := hs.staticAttribute
  typeParameters := List.forall_mem_nil _
  base := by
    rintro _ ⟨⟩
    decide
  constraints := List.forall_mem_nil _
  members := List.forall_mem_cons.2
    ⟨tidy_markerConstructor hs, List.forall_mem_singleton.2 (tidy_markerProperty s)⟩

theorem tidy_triggersUnit : s.triggersUnit.Tidy :=
  (s.tidy_emptyUnit.addClass hs.extensionsNamespace (tidy_holderClass hs)).addClass
    hs.extensionsNamespace (tidy_markerClass hs)

/-! ## Without documentation, without the directive -/

omit hs

def undocumented (s : Settings) : Settings := { s with emitDocumentation := false }

def undirected (s : Settings) : Settings := { s with emitNullableDirective := false }

theorem wrapperClass_undocumented (p : Program) (s : Settings) (mode : WrapperMode)
    (parent : Option ParentWrapper) (t : TypeEvents) :
    p.wrapperClass s.undocumented mode parent t =
      (p.wrapperClass s mode parent t).undocumented := by
  rw [ClassBlock.undocumented, wrapperClass, wrapperClass, List.map_append, List.map_map]
  cases mode <;> rfl

theorem extensionsClassOf_undocumented (p : Program) (s : Settings) (ids : List TypeId) :
    s.undocumented.extensionsClassOf (ids.map (p.factoryOf s.undocumented)) =
      (s.extensionsClassOf (ids.map (p.factoryOf s))).undocumented := by
  have hmembers :
      (s.undocumented.extensionsClassOf (ids.map (p.factoryOf s.undocumented))).members =
      (s.extensionsClassOf (ids.map (p.factoryOf s))).members.map (·.undocumented) := by
    rw [members_extensionsClassOf, members_extensionsClassOf, List.map_map]
    rfl
  rw [ClassBlock.undocumented, ← hmembers]
  rfl

theorem triggersUnit_undocumented (s : Settings) :
    s.undocumented.triggersUnit = s.triggersUnit.undocumented := by
  rw [triggersUnit, triggersUnit, SourceUnit.undocumented_addClass,
    SourceUnit.undocumented_addClass]
  rfl

theorem triggersUnit_undirected (s : Settings) :
    s.undirected.triggersUnit = s.triggersUnit.undirected := by
  rw [triggersUnit, triggersUnit, SourceUnit.undirected_addClass, SourceUnit.undirected_addClass]
  rfl

end Settings

end EventWrap
