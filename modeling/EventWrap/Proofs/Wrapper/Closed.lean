import EventWrap.Proofs.Generator
import EventWrap.Proofs.Pass.Origins
import EventWrap.Proofs.Program.Applied
import EventWrap.Proofs.Wrapper.Subscription

/-!
# Closed classes

A wrapper class declares the type parameters in scope of its type, and writes types that have come
to it through three substitutions: along the base chain, from the declaring type to the delegate,
and from the delegate to its signature. In a loaded program in which all types are applied, none of
them leaves a type parameter in place that the class does not declare.
-/

namespace EventWrap

open Code

/-! ## Types as written -/

namespace Program

variable (p : Program) (names : List String)

/-- The texts that write a type where some type parameters are declared: a keyword, one of these
parameters, a type of the program in full with arguments at each level, an array type or a nullable
one. -/
inductive TypeOver : String → Prop
  | keyword (b : BuiltIn) : TypeOver b.keyword
  | parameter {name : String} (declared : name ∈ names) : TypeOver (escape name)
  | named (id : TypeId) (levels : List (List String))
      (each : levels.length = (p.nesting id).length)
      (arguments : ∀ texts ∈ levels, ∀ text ∈ texts, TypeOver text) :
      TypeOver ("global::" ++ (p.nesting id).pathText
        (List.zipWith (fun d texts => d.name ++ argumentsText texts) (p.nesting id) levels))
  | array {element : String} (rank : UInt32) (inner : TypeOver element) :
      TypeOver (element ++ rankText rank)
  | nullable {inner : String} (marked : TypeOver inner) : TypeOver (inner ++ "?")

/-- A text writes a wrapper class with arguments. -/
def WrapperOver (text : String) : Prop := ∃ type texts,
  text = "global::" ++ qualify (p.wrapperNamespace type) (p.wrapperName type) ++
      argumentsText texts ∧
    ∀ argument ∈ texts, p.TypeOver names argument

/-- A text writes the element type of an observable: the unit, a type, or a tuple of named types. -/
def ElementOver (reactive : ReactiveNames) (text : String) : Prop :=
  text = reactive.unit ∨ p.TypeOver names text ∨ ∃ items : List (String × String),
    text = "(" ++ ", ".intercalate (items.map fun item => item.1 ++ " " ++ item.2) ++ ")" ∧
      ∀ item ∈ items, p.TypeOver names item.1

/-- The element type of a property, the types of the parameters of its handler and what the handler
returns are written where some type parameters are declared. -/
def PropertyOver (reactive : ReactiveNames) (q : Property) : Prop :=
  ∃ (access : Expr) (x : Subscription), q.getter = .expression (x.getter reactive access) ∧
    q.type = reactive.observable ++ "<" ++ x.element ++ ">" ∧
    p.ElementOver names reactive x.element ∧
    (∀ formal ∈ x.handlerFormals, p.TypeOver names formal.type) ∧
    (x.handlerResult = "void" ∨ p.TypeOver names x.handlerResult)

/-- A class declares some type parameters, and no others stand in its types: in those of its fields,
of the parameters of its constructors, of its base, constraints and properties. -/
structure ClassOver (reactive : ReactiveNames) (c : ClassBlock) : Prop where
  typeParameters : c.typeParameters = names.map escape
  fields : ∀ f ∈ c.fields, p.TypeOver names f.type
  constructors : ∀ k ∈ c.constructors, ∀ q ∈ k.parameters, p.TypeOver names q.type
  base : ∀ text ∈ c.base, p.WrapperOver names text
  constraints : ∀ k ∈ c.constraints, k.parameter ∈ names.map escape ∧
    ∀ bound ∈ k.bounds, bound ∈ ["class", "struct", "new()"] ∨ p.TypeOver names bound
  properties : ∀ q ∈ c.properties, p.PropertyOver names reactive q

variable {p : Program} {names : List String}

theorem typeTexts_eq_map (refs : List TypeRef) : p.typeTexts refs = refs.map p.typeText := by
  induction refs with
  | nil => rfl
  | cons r rest ih => rw [typeTexts, ih, List.map_cons]

/-- A word is written for a type only where it is a keyword or one of the type parameters. -/
theorem TypeOver.mem_or_keyword_of_word {text : String} (h : p.TypeOver names text)
    (hword : ∀ c ∈ text.toList, c.isAlphanum) :
    text ∈ names.map escape ∨ ∃ b : BuiltIn, text = b.keyword := by
  cases h with
  | keyword b => exact .inr ⟨b, rfl⟩
  | parameter declared => exact .inl (List.mem_map_of_mem declared)
  | named id levels each arguments => exact absurd (hword ':' (by simp)) (by decide)
  | array rank inner => exact absurd (hword '[' (by simp [rankText])) (by decide)
  | nullable marked => exact absurd (hword '?' (by simp)) (by decide)

/-- A named type is written with the parameters of the types around it open. -/
theorem typeOver_namedText {id : TypeId} {texts : List String} (houter : p.outerNames id ⊆ names)
    (htexts : ∀ text ∈ texts, p.TypeOver names text) :
    p.TypeOver names (p.namedText id texts) := by
  have hlevels : (p.nesting id).dropLast.map openText ++
      [(p.declaration id).name ++ argumentsText texts] =
      List.zipWith (fun d texts => d.name ++ argumentsText texts) (p.nesting id)
        ((p.nesting id).dropLast.map (fun d => d.parameterNames.map escape) ++ [texts]) := by
    conv_rhs => rw [nesting_eq_dropLast_append, List.dropLast_concat,
      List.zipWith_append (List.length_map _).symm, List.zipWith_map_right, List.zipWith_self]
    rfl
  rw [namedText]
  simp only [hlevels]
  refine .named id _ ?_ ?_
  · rw [List.length_append, List.length_map, List.length_dropLast, List.length_singleton]
    exact Nat.sub_add_cancel (List.length_pos_of_ne_nil (nesting_ne_nil p id))
  · intro level hlevel text htext
    rcases List.mem_append.1 hlevel with hlevel | hlevel
    · obtain ⟨d, hd, rfl⟩ := List.mem_map.1 hlevel
      obtain ⟨name, hname, rfl⟩ := List.mem_map.1 htext
      obtain ⟨q, hq, rfl⟩ := List.mem_map.1 hname
      exact .parameter (houter (List.mem_map_of_mem (List.mem_flatMap.2 ⟨d, hd, hq⟩)))
    · rw [List.mem_singleton.1 hlevel] at htext
      exact htexts text htext

/-- A closed reference is written with the type parameters that it is closed over. -/
theorem typeOver_typeText {r : TypeRef} (h : r.ClosedOver p names) :
    p.TypeOver names (p.typeText r) := by
  obtain ⟨happlied, hamong⟩ := h
  induction happlied with
  | @named type arguments _ plain _ ih =>
    rw [TypeRef.parameters, TypeRef.parametersOfAll_eq_flatMap] at hamong
    rw [typeText]
    split
    · exact .keyword _
    · have houter : p.outerNames type ⊆ names := by
        rw [outerNames_eq_nil plain]
        exact List.nil_subset _
      refine typeOver_namedText houter fun text htext => ?_
      rw [typeTexts_eq_map] at htext
      obtain ⟨r, hr, rfl⟩ := List.mem_map.1 htext
      exact ih r hr fun name hname => hamong name (List.mem_flatMap.2 ⟨r, hr, hname⟩)
  | parameter name => exact .parameter (hamong name List.mem_cons_self)
  | array rank _ ih => exact .array rank (ih hamong)
  | nullable _ ih => exact .nullable (ih hamong)

/-- A type over its own parameters is written with the type parameters in its scope. -/
theorem typeOver_definitionText (id : TypeId) :
    p.TypeOver (p.scopeNames id) (p.definitionText id) := by
  rw [definitionText, typeText]
  split
  · exact .keyword _
  · have houter : p.outerNames id ⊆ p.scopeNames id := by
      rw [scopeNames_eq]
      exact List.subset_append_left _ _
    refine typeOver_namedText houter fun text htext => ?_
    rw [typeTexts_eq_map, Declaration.ownArguments, List.map_map] at htext
    obtain ⟨name, hname, rfl⟩ := List.mem_map.1 htext
    exact .parameter (p.parameterNames_subset_scopeNames id hname)

end Program

/-! ## Events as seen -/

namespace Program

variable {p : Program} {names : List String} {id : TypeId}

namespace HasClosedScopes

variable (h : p.HasClosedScopes)

include h

/-- Every type of a base chain is closed, when the start sees its own references so. -/
theorem closedOver_of_mem_baseChainFrom {steps : Nat} {met : List TypeId} {current : Constructed}
    (hcurrent : p.SeesClosed names current) :
    ∀ c ∈ p.baseChainFrom steps met current, (TypeRef.named c.1 c.2).ClosedOver p names := by
  induction steps generalizing met current with
  | zero => exact List.forall_mem_nil _
  | succ steps ih =>
    rw [baseChainFrom]
    cases hseen : p.baseSeenFrom current with
    | none => exact List.forall_mem_nil _
    | some base =>
      have hbase : (TypeRef.named base.1 base.2).ClosedOver p names := by
        simp only [baseSeenFrom] at hseen
        split at hseen
        · next type arguments hb =>
          cases hseen
          exact hcurrent (.named type arguments) (by simp [Declaration.typeReferences, hb])
        · cases hseen
      intro c hc
      by_cases hmet : base.1 ∈ met
      · simp [hmet] at hc
      · simp only [hmet, ↓reduceIte] at hc
        rcases List.mem_cons.1 hc with rfl | hc
        · exact hbase
        · exact ih (h.seesClosed_named hbase) c hc

theorem closedOver_of_mem_ancestorsWithEvents {isStatic : Bool} :
    ∀ c ∈ p.ancestorsWithEvents id isStatic,
      (TypeRef.named c.1 c.2).ClosedOver p (p.scopeNames id) := fun c hc =>
  h.closedOver_of_mem_baseChainFrom (h.seesClosed_own id) c (List.mem_of_mem_filter hc)

/-- The delegates of collected events are closed as seen from the collecting type. -/
theorem closedOver_delegate {inherited isStatic : Bool} :
    ∀ e ∈ p.visibleEvents id inherited isStatic, e.delegate.ClosedOver p (p.scopeNames id) := by
  intro e he
  obtain ⟨c, hc, he⟩ := List.mem_flatMap.1 (Occurrence.mem_of_mem_firsts he)
  obtain ⟨declared, hdeclared, rfl⟩ := List.mem_map.1 he
  have hsees : p.SeesClosed (p.scopeNames id) c := by
    rcases List.mem_cons.1 hc with rfl | hc
    · exact h.seesClosed_own id
    · split at hc
      · exact h.seesClosed_named (h.closedOver_of_mem_ancestorsWithEvents c hc)
      · cases hc
  apply hsees
  simp only [Declaration.typeReferences, List.mem_append, List.mem_map]
  exact .inl (.inr ⟨declared, hdeclared, rfl⟩)

/-- The signature of a closed delegate is closed. -/
theorem closedOver_signature {delegate : TypeRef} {signature : Signature}
    (hdelegate : delegate.ClosedOver p names) (hs : p.signature? delegate = some signature) :
    ∀ r ∈ signature.references, r.ClosedOver p names := by
  have hstripped := hdelegate.stripNullable
  rw [signature?] at hs
  split at hs
  · next type arguments hd =>
    rw [hd] at hstripped
    obtain ⟨invoke, hinvoke, rfl⟩ := Option.map_eq_some_iff.1 hs
    rw [Signature.references_substitute]
    intro r hr
    obtain ⟨a, ha, rfl⟩ := List.mem_map.1 hr
    apply h.seesClosed_named hstripped
    simp only [Declaration.typeReferences, hinvoke, List.mem_append]
    exact .inr (List.mem_flatMap.2 ⟨invoke, List.mem_singleton_self _, ha⟩)
  · cases hs

/-- The signatures of collected events are closed as seen from the collecting type. -/
theorem closedOver_collect {inherited isStatic : Bool} :
    ∀ e ∈ (p.collect id inherited isStatic).events, ∀ r ∈ e.signature.references,
      r.ClosedOver p (p.scopeNames id) := by
  intro e he
  obtain ⟨seen, hseen, hdescribed⟩ := List.mem_filterMap.1 (mem_sortedBy.1 he)
  obtain ⟨signature, returnKind, hsignature, -, rfl⟩ := eq_of_describe? hdescribed
  exact h.closedOver_signature (h.closedOver_delegate seen hseen) hsignature

end HasClosedScopes

/-! ## Classes -/

theorem elementOver_elementText {signature : Signature}
    (hparameters : ∀ q ∈ signature.parameters, q.type.ClosedOver p names)
    (reactive : ReactiveNames) (collapse : Bool) :
    p.ElementOver names reactive
      (p.elementText reactive (p.classify signature collapse).element) := by
  have htuple : ∀ items : List Parameter, (∀ q ∈ items, q.type.ClosedOver p names) →
      p.ElementOver names reactive (p.elementText reactive (.tuple items)) := by
    intro items hitems
    refine .inr (.inr ⟨items.map fun q => (p.typeText q.type, escape q.name), ?_, ?_⟩)
    · rw [List.map_map]
      rfl
    · intro item hitem
      obtain ⟨q, hq, rfl⟩ := List.mem_map.1 hitem
      exact typeOver_typeText (hitems q hq)
  rw [classify]
  split
  · exact .inl rfl
  · next q hq => exact .inr (.inl (typeOver_typeText (hparameters q (hq ▸ List.mem_cons_self))))
  · next sender argument hq =>
    rw [hq] at hparameters
    split
    · split
      · exact .inl rfl
      · exact .inr (.inl (typeOver_typeText
          (hparameters argument (List.mem_cons_of_mem sender List.mem_cons_self))))
    · exact htuple _ hparameters
  · exact htuple _ hparameters

theorem propertyOver_eventProperty {s : Settings} {e : EventDescriptor}
    (hsignature : ∀ r ∈ e.signature.references, r.ClosedOver p names) (mode : WrapperMode)
    (target : Expr) (hides : Bool) :
    p.PropertyOver names s.reactive (p.eventProperty s mode target hides e) := by
  obtain ⟨hresult, hparameters⟩ := List.forall_mem_cons.1 hsignature
  rw [List.forall_mem_map] at hparameters
  refine ⟨.member target (escape e.name), p.subscriptionOf s _ e, rfl, rfl, ?_, ?_, ?_⟩
  · exact elementOver_elementText hparameters s.reactive s.collapsePlainEventArgs
  · intro formal hformal
    obtain ⟨q, hq, rfl⟩ := List.mem_map.1 hformal
    exact typeOver_typeText (hparameters q hq)
  · simp only [subscriptionOf, handlerResult]
    cases e.returnKind with
    | void => exact .inl rfl
    | task | valueTask => exact .inr (typeOver_typeText hresult)

/-- A bound is a keyword or a type. -/
theorem boundTexts_cases {q : TypeParameter} {bound : String} (h : bound ∈ p.boundTexts q) :
    bound ∈ ["class", "struct", "new()"] ∨ ∃ r ∈ q.bounds, p.typeText r = bound := by
  rw [boundTexts, List.mem_append, List.mem_append, List.mem_map] at h
  rcases h with (hkind | hbound) | hnew
  · refine .inl ?_
    split at hkind
    · simp [List.mem_singleton.1 hkind]
    · split at hkind
      · simp [List.mem_singleton.1 hkind]
      · cases hkind
  · exact .inr hbound
  · refine .inl ?_
    split at hnew
    · simp [List.mem_singleton.1 hnew]
    · cases hnew

section WrapperClass

variable {s : Settings} {mode : WrapperMode} {parent : Option ParentWrapper} {t : TypeEvents}

theorem type_of_mem_fields {f : Field} (hf : f ∈ (p.wrapperClass s mode parent t).fields) :
    f.type = p.definitionText t.type := by
  cases mode with
  | ofInstance =>
    simp [wrapperClass, ClassBlock.fields, holdingMembers, List.filterMap_map,
      WrapperMode.isStatic] at hf
    rw [hf]
  | ofStatics =>
    simp [wrapperClass, ClassBlock.fields, List.filterMap_map, WrapperMode.isStatic] at hf

theorem type_of_mem_constructors {k : Constructor}
    (hk : k ∈ (p.wrapperClass s mode parent t).constructors) :
    ∀ q ∈ k.parameters, q.type = p.definitionText t.type := by
  cases mode with
  | ofInstance =>
    simp [wrapperClass, ClassBlock.constructors, holdingMembers, List.filterMap_map,
      WrapperMode.isStatic] at hk
    rw [hk]
    intro q hq
    rw [List.mem_singleton.1 hq]
  | ofStatics =>
    simp [wrapperClass, ClassBlock.constructors, List.filterMap_map, WrapperMode.isStatic] at hk

/-- A wrapper class of closed events, derived from a closed parent, is closed. -/
theorem HasClosedScopes.classOver_wrapperClass (h : p.HasClosedScopes)
    (hevents : ∀ e ∈ t.events, ∀ r ∈ e.signature.references, r.ClosedOver p (p.scopeNames t.type))
    (hparent : ∀ w ∈ parent,
      (TypeRef.named w.type w.arguments).ClosedOver p (p.scopeNames t.type)) :
    p.ClassOver (p.scopeNames t.type) s.reactive (p.wrapperClass s mode parent t) where
  typeParameters := by
    rw [scopeNames, List.map_map]
    rfl
  fields f hf := type_of_mem_fields hf ▸ typeOver_definitionText t.type
  constructors k hk q hq := type_of_mem_constructors hk q hq ▸ typeOver_definitionText t.type
  base text htext := by
    obtain ⟨w, hw, rfl⟩ := Option.map_eq_some_iff.1 htext
    obtain ⟨-, plain, among⟩ := TypeRef.closedOver_named_iff.1 (hparent w hw)
    have houter : Nesting.typeParameters (p.nesting w.type).dropLast = [] :=
      List.map_eq_nil_iff.1 (outerNames_eq_nil plain)
    refine ⟨w.type, p.typeTexts w.arguments, ?_, fun argument hargument => ?_⟩
    · rw [wrapperText, houter]
      rfl
    · rw [typeTexts_eq_map] at hargument
      obtain ⟨a, ha, rfl⟩ := List.mem_map.1 hargument
      exact typeOver_typeText (among a ha)
  constraints k hk := by
    obtain ⟨q, hq, rfl⟩ := List.mem_map.1 hk
    have hscope := List.mem_of_mem_filter hq
    refine ⟨List.mem_map_of_mem (List.mem_map_of_mem hscope), fun bound hbound => ?_⟩
    refine (boundTexts_cases hbound).imp_right ?_
    rintro ⟨r, hr, rfl⟩
    exact typeOver_typeText (h.closedOver_bounds q hscope r hr)
  properties q hq := by
    rw [properties_wrapperClass] at hq
    obtain ⟨e, he, rfl⟩ := List.mem_map.1 hq
    exact propertyOver_eventProperty (hevents e he) _ _ _

end WrapperClass

/-- Whatever wrapper a program with closed scopes has for a type, its class is closed. -/
theorem HasClosedScopes.classOver_of_makes (h : p.HasClosedScopes) {s : Settings} {w : Wrapper}
    (hw : p.Makes s w) : p.ClassOver (p.scopeNames w.source) s.reactive w.declaration := by
  cases hw with
  | @link known t built =>
    obtain ⟨hsource, -, hparent, -, hdeclaration⟩ := eq_of_synthesize built
    rw [hsource, hdeclaration]
    refine h.classOver_wrapperClass h.closedOver_collect fun parent hmem => ?_
    rw [hparent] at hmem
    obtain ⟨c, hc, rfl⟩ := Option.map_eq_some_iff.1 hmem
    exact h.closedOver_of_mem_ancestorsWithEvents c (List.mem_of_head? hc)
  | @statics t built =>
    obtain ⟨hsource, -, hparent, -, hdeclaration⟩ := eq_of_synthesize built
    rw [hsource, hdeclaration, hparent]
    exact h.classOver_wrapperClass h.closedOver_collect nofun

end Program

/-! ## Loaded programs -/

/-- A declaration mentions its own type parameters only. -/
def Declaration.IsSelfScoped (d : Declaration) : Prop :=
  ∀ r ∈ d.typeReferences, ∀ name ∈ r.parameters, name ∈ d.parameterNames

instance (d : Declaration) : Decidable d.IsSelfScoped :=
  inferInstanceAs
    (Decidable (∀ r ∈ d.typeReferences, ∀ name ∈ r.parameters, name ∈ d.parameterNames))

namespace Program

/-- Types that mention their own type parameters only. -/
def SelfScoped (p : Program) : Prop := ∀ id, (p.declaration id).IsSelfScoped

theorem selfScoped_of_lt_size {p : Program}
    (h : ∀ id < p.size, (p.declaration id).IsSelfScoped) : p.SelfScoped := by
  intro id
  by_cases hid : id < p.size
  · exact h id hid
  · rw [declaration_of_size_le (Nat.le_of_not_lt hid)]
    exact List.forall_mem_nil _

theorem selfScoped_withCoreLibrary : withCoreLibrary.SelfScoped := by
  have hall : ∀ d ∈ CoreLibrary.declarations, d.IsSelfScoped := by decide
  exact selfScoped_of_lt_size fun id hid => hall _ (declaration_withCoreLibrary_mem hid)

theorem SelfScoped.push {p : Program} {d : Declaration} (h : p.SelfScoped) (hd : d.IsSelfScoped) :
    (p.push d).SelfScoped := by
  refine selfScoped_of_lt_size fun id hid => ?_
  rw [size_push] at hid
  rcases Nat.lt_succ_iff_lt_or_eq.1 hid with hlt | rfl
  · rw [declaration_push_of_lt hlt]
    exact h id
  · rw [declaration_push_self]
    exact hd

end Program

theorem Loading.keeps_selfScoped_installTriggers (s : Settings) :
    Keeps Program.SelfScoped (installTriggers s) :=
  (keeps_ensure_of_push _ fun _ hp _ => hp.push (List.forall_mem_nil _)).bind fun _ =>
    (keeps_ensure_of_push _ fun _ hp _ => hp.push (List.forall_mem_nil _)).bind fun _ =>
      keeps_pure _

open Document in
/-- What a document adds is well scoped, and what it was loaded on mentions own parameters only. -/
theorem Document.Loaded.hasClosedScopes {base headers p : Program} {d : Document}
    (h : Loaded base d headers p) (hbase : base.SelfScoped) (happlied : p.IsApplied) :
    p.HasClosedScopes where
  outerFirst := h.completed.toSameOutlines.outerFirst h.declared.indexed.outerFirst
  closed id r hr := by
    by_cases hid : id < p.size
    · refine ⟨happlied id hid r hr, fun name hname => ?_⟩
      by_cases hlt : id < base.size
      · have hkept : p.declaration id = base.declaration id := by
          rw [h.completed.others id fun hmem =>
            Nat.not_lt.2 (h.declared.mem_snd_places_iff.1 hmem).1 hlt, h.declared.kept hlt]
        apply p.parameterNames_subset_scopeNames id
        rw [hkept] at hr ⊢
        exact hbase id r hr name hname
      · exact (h.wellScoped_references (Nat.le_of_not_lt hlt) hid r
          (List.mem_append_left _ hr)).inScope name hname
    · rw [Program.declaration_of_size_le (Nat.le_of_not_lt hid)] at hr
      cases hr

namespace Generator

variable {g : Generator} {d : Document}

theorem hasClosedScopes_of_load {p : Program} (hload : g.load d = .ok p)
    (happlied : p.IsApplied) : p.HasClosedScopes := by
  obtain ⟨triggers, base, htriggers, hdocument⟩ := load_eq_ok_iff.1 hload
  have hfoundation := Loading.isFoundation_of_installTriggers Program.isFoundation_withCoreLibrary
    htriggers
  obtain ⟨headers, hloaded⟩ := Loading.loaded_of_loadDocument hfoundation.indexed hdocument
  have hbase := Loading.keeps_selfScoped_installTriggers g.settings Program.withCoreLibrary
    Program.selfScoped_withCoreLibrary
  rw [Loading.leaves_ok htriggers] at hbase
  exact hloaded.hasClosedScopes hbase happlied

/-- In a loaded program in which all types that declarations refer to have all of their arguments,
and none of them is nested in a generic type, every wrapper that a pass delivers is closed: in the
types of its class no type parameter stands but those that the class declares. The wrapped type
itself may be nested in generic types. -/
theorem classOver_of_mem_wrappers {σ : Type} {i : PassInput} (hload : g.load d = .ok i.program)
    (happlied : i.program.IsApplied) (h : Host σ) (start : σ) :
    ∀ w ∈ (i.run h start).transcript.wrappers,
      i.program.ClassOver (i.program.scopeNames w.source) i.settings.reactive w.declaration :=
  fun _ hw => (hasClosedScopes_of_load hload happlied).classOver_of_makes
    (i.makes_of_mem_wrappers h start hw)

end Generator

/-- A type nested in a generic one inherits a static event, whose delegate mentions the type
parameter of the base. -/
def Document.inheriting : Document where
  types := [
    { namespaceName := "Sample"
      name := "Channel"
      typeParameters := [{ name := "TValue" }]
      events := [{
        name := "Changed"
        delegate := .generic "System.EventHandler`1" [.nullable (.name "TValue")]
        isStatic := true }] },
    { namespaceName := "Sample", name := "Outer", typeParameters := [{ name := "T" }] },
    { name := "Inner"
      container := some "Sample.Outer`1"
      typeParameters := [{ name := "U", bounds := [.generic "Sample.Channel`1" [.name "T"]] }]
      base := some (.generic "Sample.Channel`1" [.array (.name "U") 1]) }]
  assemblyAttributes := [{
    name := Settings.markerName {}
    arguments := [.typeOf (.name "Sample.Outer`1+Inner`1")] }]

/-- The program of that document. -/
def Program.inheriting : Program :=
  (Loading.loadDocument .inheriting).leaves ((Loading.installTriggers {}).leaves withCoreLibrary)

theorem Generator.inheriting_classOver : ∃ g : Generator,
    g.load .inheriting = .ok Program.inheriting ∧ Program.inheriting.IsApplied ∧
    ∃ w ∈ ((Program.inheriting.pass {}).run MemoryHost.host {}).transcript.wrappers,
      w.declaration.typeParameters = ["T", "U"] ∧
      w.declaration.constraints = [⟨"U", ["global::Sample.Channel<T>"]⟩] ∧
      w.declaration.properties.map (·.type) = ["global::System.IObservable<U[]?>"] ∧
      Program.inheriting.ClassOver ["T", "U"] {} w.declaration := by
  let g : Generator := ⟨{}, by decide⟩
  have htriggers : (Loading.installTriggers {}).run' Program.withCoreLibrary = some ⟨30, 31⟩ := by
    decide
  have hdocument : (Loading.loadDocument .inheriting).run'
      ((Loading.installTriggers {}).leaves Program.withCoreLibrary) = some () := by
    decide
  have hload : g.load .inheriting = .ok Program.inheriting :=
    load_eq_ok_iff.2
      ⟨⟨30, 31⟩, _, Loading.eq_ok_leaves htriggers, Loading.eq_ok_leaves hdocument⟩
  have happlied : Program.inheriting.IsApplied := by decide
  have hclosed := classOver_of_mem_wrappers (i := Program.inheriting.pass {}) hload happlied
    MemoryHost.host {}
  have hfound : ∃ w ∈ ((Program.inheriting.pass {}).run MemoryHost.host {}).transcript.wrappers,
      Program.inheriting.scopeNames w.source = ["T", "U"] ∧
      w.declaration.typeParameters = ["T", "U"] ∧
      w.declaration.constraints = [⟨"U", ["global::Sample.Channel<T>"]⟩] ∧
      w.declaration.properties.map (·.type) = ["global::System.IObservable<U[]?>"] := by
    decide +kernel
  obtain ⟨w, hw, hscope, htypeParameters, hconstraints, hproperties⟩ := hfound
  exact ⟨g, hload, happlied, w, hw, htypeParameters, hconstraints, hproperties,
    hscope ▸ hclosed w hw⟩

end EventWrap
