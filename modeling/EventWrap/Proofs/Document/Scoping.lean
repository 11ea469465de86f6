import EventWrap.Proofs.Document.History

/-!
# Scopes of loaded types

A document writes references by name, and what a name stands for depends on where it stands: in a
type, the type parameters of this type and of the types around it come first. Whatever has been done
to a program before, the references that a document adds to it mention type parameters in scope
only, name types of the program with all of their arguments or with none, and have arrays of some
rank. Attributes of the assembly and invocations are in no scope.
-/

namespace EventWrap

/-! ## References of a declaration -/

def Attribute.Argument.references : Attribute.Argument → List TypeRef
  | .typeOf type => [type]
  | _ => []

def Attribute.references (a : Attribute) : List TypeRef := a.arguments.flatMap (·.references)

def Signature.references (s : Signature) : List TypeRef := s.result :: s.parameters.map (·.type)

namespace Declaration

/-- The references in bounds, base, delegates of events and signature. -/
def typeReferences (d : Declaration) : List TypeRef :=
  d.typeParameters.flatMap (·.bounds) ++ d.base.toList ++ d.events.map (·.delegate) ++
    d.invoke.toList.flatMap (·.references)

/-- The references in the attributes of the type and of its events. -/
def attributeReferences (d : Declaration) : List TypeRef :=
  (d.attributes ++ d.events.flatMap (·.attributes)).flatMap (·.references)

def references (d : Declaration) : List TypeRef := d.typeReferences ++ d.attributeReferences

/-- What holds of the references in every part of a declaration holds of all of them. -/
theorem forall_references {d : Declaration} {P : TypeRef → Prop}
    (hbounds : ∀ q ∈ d.typeParameters, ∀ r ∈ q.bounds, P r) (hbase : ∀ r ∈ d.base, P r)
    (hevents : ∀ e ∈ d.events, P e.delegate ∧ ∀ a ∈ e.attributes, ∀ r ∈ a.references, P r)
    (hattributes : ∀ a ∈ d.attributes, ∀ r ∈ a.references, P r)
    (hinvoke : ∀ s ∈ d.invoke, ∀ r ∈ s.references, P r) : ∀ r ∈ d.references, P r := by
  intro r hr
  simp only [references, typeReferences, attributeReferences, List.mem_append, List.mem_flatMap,
    List.mem_map, Option.mem_toList] at hr
  obtain (((⟨q, hq, hr⟩ | hr) | ⟨e, he, rfl⟩) | ⟨s, hs, hr⟩) | ⟨a, ha | ⟨e, he, ha⟩, hr⟩ := hr
  · exact hbounds q hq r hr
  · exact hbase r hr
  · exact (hevents e he).1
  · exact hinvoke s hs r hr
  · exact hattributes a ha r hr
  · exact (hevents e he).2 a ha r hr

end Declaration

/-! ## Well-scoped references -/

namespace TypeRef

/-- Every type that a reference names is one of the program, with all of its arguments or with none,
and every array has a rank. -/
inductive WellFormed (p : Program) : TypeRef → Prop
  | named {type : TypeId} {arguments : List TypeRef} (known : type < p.size)
      (applied : arguments = [] ∨ arguments.length = (p.declaration type).arity)
      (among : ∀ r ∈ arguments, r.WellFormed p) : WellFormed p (.named type arguments)
  | parameter (name : String) : WellFormed p (.parameter name)
  | array {element : TypeRef} {rank : UInt32} (ranked : 1 ≤ rank) (inner : element.WellFormed p) :
      WellFormed p (.array element rank)
  | nullable {inner : TypeRef} (marked : inner.WellFormed p) : WellFormed p (.nullable inner)

/-- A well-formed reference that mentions type parameters of a scope only. -/
structure WellScoped (p : Program) (scope : List String) (r : TypeRef) : Prop where
  wellFormed : r.WellFormed p
  inScope : ∀ name ∈ r.parameters, name ∈ scope

variable {p q : Program} {scope : List String}

theorem WellFormed.of_sameOutlines {r : TypeRef} (h : r.WellFormed p) (hpq : p.SameOutlines q) :
    r.WellFormed q := by
  induction h with
  | named known applied _ ih =>
    refine .named (hpq.size ▸ known) ?_ ih
    rwa [Declaration.arity_eq_length, hpq.parameterNames, ← Declaration.arity_eq_length]
  | parameter name => exact .parameter name
  | array ranked _ ih => exact .array ranked ih
  | nullable _ ih => exact .nullable ih

theorem WellScoped.of_sameOutlines {r : TypeRef} (h : r.WellScoped p scope)
    (hpq : p.SameOutlines q) : r.WellScoped q scope :=
  ⟨h.wellFormed.of_sameOutlines hpq, h.inScope⟩

theorem WellScoped.parameters_eq_nil {r : TypeRef} (h : r.WellScoped p []) : r.parameters = [] :=
  List.eq_nil_iff_forall_not_mem.2 fun name hname => List.not_mem_nil (h.inScope name hname)

theorem wellScoped_named {type : TypeId} {arguments : List TypeRef} (known : type < p.size)
    (applied : arguments = [] ∨ arguments.length = (p.declaration type).arity)
    (among : ∀ r ∈ arguments, r.WellScoped p scope) :
    (named type arguments).WellScoped p scope := by
  refine ⟨.named known applied fun r hr => (among r hr).wellFormed, ?_⟩
  intro name hname
  rw [parameters, parametersOfAll_eq_flatMap] at hname
  obtain ⟨r, hr, hname⟩ := List.mem_flatMap.1 hname
  exact (among r hr).inScope name hname

end TypeRef

/-! ## Resolving in a scope -/

namespace Document

theorem one_le_max_one (rank : UInt32) : 1 ≤ max rank 1 := by
  change 1 ≤ if rank ≤ 1 then 1 else rank
  split
  · exact UInt32.le_refl 1
  · next hrank => exact UInt32.le_of_lt (UInt32.not_le.1 hrank)

variable {p : Program} {scope : List String} {context : String}

theorem lt_size_of_resolveName (h : p.Indexed) {name : String} {id : TypeId}
    (hid : resolveName p context name = .ok id) : id < p.size :=
  (h.resolve?_iff.1 (resolve?_of_resolveName hid)).1

theorem wellScoped_resolvePlain (h : p.Indexed) {name : String} {r : TypeRef}
    (hr : resolvePlain p scope context name = .ok r) : r.WellScoped p scope := by
  unfold resolvePlain at hr
  split at hr
  · next hscope =>
    cases hr
    exact ⟨.parameter name, fun _ hname => List.mem_singleton.1 hname ▸ hscope⟩
  · split at hr
    all_goals
      obtain ⟨id, hid, rfl⟩ := map_eq_ok_iff.1 hr
      exact TypeRef.wellScoped_named (lt_size_of_resolveName h hid) (.inl rfl)
        (List.forall_mem_nil _)

mutual

theorem wellScoped_resolveReference (h : p.Indexed) : ∀ (reference : Reference) (r : TypeRef),
    resolveReference p scope context reference = .ok r → r.WellScoped p scope
  | .name name, r, hr => by
    rw [resolveReference] at hr
    exact wellScoped_resolvePlain h hr
  | .generic name arguments, r, hr => by
    rw [resolveReference] at hr
    obtain ⟨id, hid, hr⟩ := bind_eq_ok_iff.1 hr
    by_cases hcount : (p.declaration id).arity ≠ arguments.length
    · simp only [if_pos hcount] at hr
      cases hr
    · simp only [if_neg hcount] at hr
      obtain ⟨refs, hrefs, ⟨⟩⟩ := bind_eq_ok_iff.1 hr
      obtain ⟨hlength, hall⟩ := wellScoped_resolveReferences h arguments refs hrefs
      refine TypeRef.wellScoped_named (lt_size_of_resolveName h hid) (.inr ?_) hall
      rw [hlength, not_not.1 hcount]
  | .array element rank, r, hr => by
    rw [resolveReference] at hr
    obtain ⟨inner, hinner, ⟨⟩⟩ := bind_eq_ok_iff.1 hr
    have hscoped := wellScoped_resolveReference h element inner hinner
    exact ⟨.array (one_le_max_one rank) hscoped.wellFormed, hscoped.inScope⟩
  | .nullable reference, r, hr => by
    rw [resolveReference] at hr
    obtain ⟨inner, hinner, ⟨⟩⟩ := bind_eq_ok_iff.1 hr
    have hscoped := wellScoped_resolveReference h reference inner hinner
    exact ⟨.nullable hscoped.wellFormed, hscoped.inScope⟩

theorem wellScoped_resolveReferences (h : p.Indexed) :
    ∀ (references : List Reference) (refs : List TypeRef),
      resolveReferences p scope context references = .ok refs →
      refs.length = references.length ∧ ∀ r ∈ refs, r.WellScoped p scope
  | [], refs, hrefs => by
    cases hrefs
    exact ⟨rfl, List.forall_mem_nil _⟩
  | reference :: rest, refs, hrefs => by
    rw [resolveReferences] at hrefs
    obtain ⟨first, hfirst, hrest⟩ := bind_eq_ok_iff.1 hrefs
    obtain ⟨rest', hrest', ⟨⟩⟩ := bind_eq_ok_iff.1 hrest
    obtain ⟨hlength, hall⟩ := wellScoped_resolveReferences h rest rest' hrest'
    refine ⟨congrArg Nat.succ hlength, List.forall_mem_cons.2 ⟨?_, hall⟩⟩
    exact wellScoped_resolveReference h reference first hfirst

end

/-! ### Parts of declarations -/

variable (h : p.Indexed)

include h

theorem wellScoped_resolveAttribute {a : AttributeEntry} {x : Attribute}
    (hx : resolveAttribute p scope context a = .ok x) :
    ∀ r ∈ x.references, r.WellScoped p scope := by
  obtain ⟨arguments, harguments, ⟨⟩⟩ := bind_eq_ok_iff.1 hx
  intro r hr
  obtain ⟨argument, hargument, hr⟩ := List.mem_flatMap.1 hr
  obtain ⟨entry, -, hentry⟩ := exists_of_mem_mapM harguments hargument
  cases entry with
  | typeOf reference =>
    obtain ⟨r', hreference, ⟨⟩⟩ := bind_eq_ok_iff.1 hentry
    rw [List.mem_singleton.1 hr]
    exact wellScoped_resolveReference h reference r' hreference
  | flag | number | text | null =>
    cases hentry
    cases hr

theorem wellScoped_resolveSignature {s : SignatureEntry} {x : Signature}
    (hx : resolveSignature p scope context s = .ok x) :
    ∀ r ∈ x.references, r.WellScoped p scope := by
  obtain ⟨result, hresult, hx⟩ := bind_eq_ok_iff.1 hx
  obtain ⟨parameters, hparameters, ⟨⟩⟩ := bind_eq_ok_iff.1 hx
  refine List.forall_mem_cons.2 ⟨wellScoped_resolveReference h _ result hresult, ?_⟩
  intro r hr
  obtain ⟨q, hq, rfl⟩ := List.mem_map.1 hr
  obtain ⟨entry, -, hentry⟩ := exists_of_mem_mapM hparameters hq
  obtain ⟨r, hreference, ⟨⟩⟩ := bind_eq_ok_iff.1 hentry
  exact wellScoped_resolveReference h entry.type r hreference

theorem wellScoped_resolveEvent {e : EventEntry} {x : EventDeclaration}
    (hx : resolveEvent p scope context e = .ok x) :
    x.delegate.WellScoped p scope ∧
      ∀ a ∈ x.attributes, ∀ r ∈ a.references, r.WellScoped p scope := by
  obtain ⟨delegate, hdelegate, hx⟩ := bind_eq_ok_iff.1 hx
  obtain ⟨attributes, hattributes, ⟨⟩⟩ := bind_eq_ok_iff.1 hx
  refine ⟨wellScoped_resolveReference h e.delegate delegate hdelegate, fun a ha => ?_⟩
  obtain ⟨entry, -, hentry⟩ := exists_of_mem_mapM hattributes ha
  exact wellScoped_resolveAttribute h hentry

/-- The references in the details of a type are in the scope of the type. -/
theorem wellScoped_resolveDetails {id : TypeId} {t : TypeEntry} {details : Details}
    (hdetails : resolveDetails p id t = .ok details) (d : Declaration) :
    ∀ r ∈ (details.addTo d).references,
      r.WellScoped p ((p.typeParametersInScope id).map (·.name)) := by
  obtain ⟨htypeParameters, hbase, hevents, hattributes, hinvoke⟩ :=
    resolveDetails_eq_ok_iff.1 hdetails
  apply Declaration.forall_references
  case hbounds =>
    intro q hq
    obtain ⟨entry, -, hentry⟩ := exists_of_mem_mapM htypeParameters hq
    obtain ⟨bounds, hbounds, ⟨⟩⟩ := bind_eq_ok_iff.1 hentry
    exact (wellScoped_resolveReferences h entry.bounds bounds hbounds).2
  case hbase =>
    intro r hr
    obtain ⟨reference, -, hreference⟩ := exists_of_mem_optionMapM hbase hr
    exact wellScoped_resolveReference h reference r hreference
  case hevents =>
    intro e he
    obtain ⟨entry, -, hentry⟩ := exists_of_mem_mapM hevents he
    exact wellScoped_resolveEvent h hentry
  case hattributes =>
    intro a ha
    obtain ⟨entry, -, hentry⟩ := exists_of_mem_mapM hattributes ha
    exact wellScoped_resolveAttribute h hentry
  case hinvoke =>
    intro s hs
    obtain ⟨entry, -, hentry⟩ := exists_of_mem_optionMapM hinvoke hs
    exact wellScoped_resolveSignature h hentry

theorem wellScoped_resolveInvocation {i : InvocationEntry} {x : Invocation}
    (hx : resolveInvocation p i = .ok x) : ∀ r ∈ x.typeArguments, r.WellScoped p [] := by
  unfold resolveInvocation at hx
  obtain ⟨container, -, hx⟩ := bind_eq_ok_iff.1 hx
  obtain ⟨arguments, harguments, ⟨⟩⟩ := bind_eq_ok_iff.1 hx
  intro r hr
  obtain ⟨reference, -, hreference⟩ := exists_of_mem_mapM harguments hr
  exact wellScoped_resolveReference h reference r hreference

end Document

/-! ## Loaded documents -/

namespace Document.Loaded

variable {base headers p : Program} {d : Document} (h : Loaded base d headers p)

include h

theorem wellScoped_references {id : TypeId} (hbase : base.size ≤ id) (hid : id < p.size) :
    ∀ r ∈ (p.declaration id).references,
      r.WellScoped p ((p.typeParametersInScope id).map (·.name)) := by
  have hsame := h.completed.toSameOutlines
  obtain ⟨t, ht⟩ := h.declared.exists_entry hbase (hsame.size ▸ hid)
  obtain ⟨details, hdetails, hdeclaration⟩ := h.completed.detailed (t, id) ht
  intro r hr
  rw [hdeclaration] at hr
  rw [hsame.typeParametersInScope h.declared.indexed.outerFirst]
  exact (wellScoped_resolveDetails h.declared.indexed hdetails _ r hr).of_sameOutlines hsame

theorem exists_addedAttributes : ∃ added, p.assemblyAttributes = base.assemblyAttributes ++ added ∧
    ∀ a ∈ added, ∀ r ∈ a.references, r.WellScoped p [] := by
  obtain ⟨added, hresolved, happend⟩ := h.assemblyAttributes
  refine ⟨added, happend, fun a ha r hr => ?_⟩
  obtain ⟨entry, -, hentry⟩ := exists_of_mem_mapM hresolved ha
  exact (wellScoped_resolveAttribute h.declared.indexed hentry r hr).of_sameOutlines
    h.completed.toSameOutlines

theorem exists_addedInvocations : ∃ added, p.invocations = base.invocations ++ added ∧
    ∀ i ∈ added, ∀ r ∈ i.typeArguments, r.WellScoped p [] := by
  obtain ⟨added, hresolved, happend⟩ := h.invocations
  refine ⟨added, happend, fun i hi r hr => ?_⟩
  obtain ⟨entry, -, hentry⟩ := exists_of_mem_mapM hresolved hi
  exact (wellScoped_resolveInvocation h.declared.indexed hentry r hr).of_sameOutlines
    h.completed.toSameOutlines

end Document.Loaded

/-! ## Reached programs -/

namespace Program.Indexed

variable {p : Program}

theorem addInvocation (h : p.Indexed) (i : Invocation) : (p.addInvocation i).Indexed := by
  have hsame : p.SameOutlines (p.addInvocation i) := sameOutlines_of_types rfl rfl
  exact hsame.indexed h

theorem addAssemblyAttribute (h : p.Indexed) (a : Attribute) :
    (p.addAssemblyAttribute a).Indexed := by
  have hsame : p.SameOutlines (p.addAssemblyAttribute a) := sameOutlines_of_types rfl rfl
  exact hsame.indexed h

end Program.Indexed

namespace Loading

open Document

variable {p : Program}

theorem run'_of_ok {α : Type} {x : Loading α} {a : α} {p' : Program} (hx : x p = .ok a p') :
    x.run' p = some a := by
  delta EStateM.run' EStateM.run
  rw [hx]

theorem run'_of_error {α : Type} {x : Loading α} {e : LoadError} {p' : Program}
    (hx : x p = .error e p') : x.run' p = none := by
  delta EStateM.run' EStateM.run
  rw [hx]

/-- A step that gives an answer ends with what it leaves. -/
theorem eq_ok_leaves {α : Type} {x : Loading α} {a : α} (h : x.run' p = some a) :
    x p = .ok a (x.leaves p) := by
  cases hx : x p with
  | ok b p' =>
    rw [leaves_ok hx, Option.some.inj (h.symm.trans (run'_of_ok hx))]
  | error e p' => cases h.symm.trans (run'_of_error hx)

theorem indexed_add {d : Declaration} (h : p.Indexed)
    (hd : ∀ outer, d.container = some outer → outer < p.size) : ((add d).leaves p).Indexed := by
  rcases leaves_add_cases d p with hsame | ⟨hfresh, hpush⟩
  · rwa [hsame]
  · rw [hpush]
    exact h.push hd hfresh

theorem keeps_indexed_ensure {d : Declaration} (name : String) (hd : d.container = none) :
    Keeps Program.Indexed (ensure name d) := by
  refine keeps_ensure_of_push name fun p hp hfresh => hp.push (fun outer hc => ?_) hfresh
  rw [hd] at hc
  cases hc

theorem keeps_indexed_installTriggers (s : Settings) : Keeps Program.Indexed (installTriggers s) :=
  (keeps_indexed_ensure _ rfl).bind fun _ => (keeps_indexed_ensure _ rfl).bind fun _ => keeps_pure _

theorem keeps_indexed_declareType (t : TypeEntry) : Keeps Program.Indexed (declareType t) :=
  keeps_declareType_of_push (fun _ hp => hp) fun _ hp ht => indexed_push_headerIn hp ht

/-- However far a document can be loaded, the index stays exact. -/
theorem indexed_loadDocument (h : p.Indexed) (document : Document) :
    ((loadDocument document).leaves p).Indexed := by
  refine leaves_loadDocument h h document keeps_indexed_declareType ?_ ?_ ?_
  · intro pairs _ x hx
    refine keeps_ask_modify ?_
    rintro q details ⟨hq, hheaders⟩ hdetails
    obtain ⟨hid, hnames⟩ := hheaders x hx
    have hsame : q.SameOutlines (q.update x.2 details.addTo) :=
      Program.sameOutlines_update hid
        ((parameterNames_of_resolveDetails hdetails).trans hnames.symm)
    exact ⟨hsame.indexed hq, hheaders.of_sameOutlines hsame⟩
  · exact fun _ => keeps_ask_modify fun _ a hq _ => hq.addAssemblyAttribute a
  · exact fun _ => keeps_ask_modify fun _ i hq _ => hq.addInvocation i

end Loading

namespace Program

/-- A program that operations have made from nothing or from the core library, whether or not they
failed. A type that is added is nested only in one that there is; nothing else that it mentions is
looked at, so that it may mention anything. -/
inductive Reached : Program → Prop
  | blank {p : Program} (start : p.IsBlank) : Reached p
  | step {p : Program} {op : Operation} (before : Reached p)
      (nested : ∀ d outer, op = .add d → d.container = some outer → outer < p.size) :
      Reached (p.leave op)

theorem Reached.indexed {p : Program} (h : p.Reached) : p.Indexed := by
  induction h with
  | blank start => exact start.sound.indexed
  | @step p op _ nested ih =>
    cases op with
    | add d =>
      rw [leave, Operation.run, Loading.leaves_bind_pure]
      exact Loading.indexed_add ih fun outer hc => nested d outer rfl hc
    | load d => exact Loading.indexed_loadDocument ih d
    | install s =>
      rw [leave, Operation.run, Loading.leaves_bind_pure]
      exact Loading.keeps_indexed_installTriggers s p ih
    | addInvocation i => exact ih.addInvocation i
    | addAssemblyAttribute a => exact ih.addAssemblyAttribute a

/-- Whatever has been done to a program, a document that can be loaded adds well-scoped references
only: in the added types they mention type parameters of these types and of the types around them,
in added attributes of the assembly and invocations they mention none. -/
theorem Reached.wellScoped_of_loadDocument {base p : Program} {d : Document} (hbase : base.Reached)
    (hload : Loading.loadDocument d base = .ok () p) :
    (∀ id, base.size ≤ id → id < p.size → ∀ r ∈ (p.declaration id).references,
      (∀ name ∈ r.parameters, name ∈ (p.typeParametersInScope id).map (·.name)) ∧
        r.WellFormed p) ∧
    (∃ added, p.assemblyAttributes = base.assemblyAttributes ++ added ∧
      ∀ a ∈ added, ∀ r ∈ a.references, r.parameters = [] ∧ r.WellFormed p) ∧
    ∃ added, p.invocations = base.invocations ++ added ∧
      ∀ i ∈ added, ∀ r ∈ i.typeArguments, r.parameters = [] ∧ r.WellFormed p := by
  obtain ⟨headers, hloaded⟩ := Loading.loaded_of_loadDocument hbase.indexed hload
  obtain ⟨attributes, hattributes, hscoped⟩ := hloaded.exists_addedAttributes
  obtain ⟨invocations, hinvocations, hscoped'⟩ := hloaded.exists_addedInvocations
  refine ⟨?_, ⟨attributes, hattributes, ?_⟩, ⟨invocations, hinvocations, ?_⟩⟩
  · intro id hbase hid r hr
    obtain ⟨hformed, hscope⟩ := hloaded.wellScoped_references hbase hid r hr
    exact ⟨hscope, hformed⟩
  · exact fun a ha r hr => ⟨(hscoped a ha r hr).parameters_eq_nil, (hscoped a ha r hr).wellFormed⟩
  · exact fun i hi r hr => ⟨(hscoped' i hi r hr).parameters_eq_nil, (hscoped' i hi r hr).wellFormed⟩

/-- The core library with a generic type. -/
def withOuter : Program :=
  withCoreLibrary.leave
    (.add { namespaceName := "Sample", name := "Outer", typeParameters := [{ name := "T" }] })

/-- A type nested in the generic one, whose base mentions the parameter of the outer type and whose
event mentions its own. -/
def nestedDocument : Document where
  types := [{
    name := "Inner"
    container := some "Sample.Outer`1"
    typeParameters := [{ name := "U" }]
    base := some (.generic "Sample.Outer`1" [.name "T"])
    events := [{
      name := "Changed"
      delegate := .generic "System.EventHandler`1" [.nullable (.array (.name "U") 0)] }] }]
  assemblyAttributes := [{ name := "Marker", arguments := [.typeOf (.name "Sample.Outer`1")] }]

/-- What loading the nested type leaves. -/
def withNested : Program := withOuter.leave (.load nestedDocument)

theorem reached_withOuter : withOuter.Reached :=
  .step (.blank (.inr rfl)) fun _ _ hop hc => by
    cases hop
    cases hc

theorem withNested_wellScoped :
    withOuter.Reached ∧ Loading.loadDocument nestedDocument withOuter = .ok () withNested ∧
      (withNested.typeParametersInScope 31).map (·.name) = ["T", "U"] ∧
      (withNested.declaration 31).references.map (·.parameters) = [["T"], ["U"]] ∧
      ∀ r ∈ (withNested.declaration 31).references, r.WellFormed withNested := by
  have hrun : (Loading.loadDocument nestedDocument).run' withOuter = some () := by decide
  have hload : Loading.loadDocument nestedDocument withOuter = .ok () withNested :=
    Loading.eq_ok_leaves hrun
  have hsize : withOuter.size = 31 ∧ withNested.size = 32 := by decide
  refine ⟨reached_withOuter, hload, by decide, by decide, fun r hr => ?_⟩
  exact ((reached_withOuter.wellScoped_of_loadDocument hload).1 31 (Nat.le_of_eq hsize.1)
    (by rw [hsize.2]; decide) r hr).2

end Program

end EventWrap
