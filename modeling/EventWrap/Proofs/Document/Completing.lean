import EventWrap.Proofs.Document.Declaring

/-!
# Completing the types of a document

Once all types are declared, each receives its details. Details do not change what others are
resolved by, the names of types and their type parameters, so all of them are resolved as they would
be in the program in which nothing is completed yet. The same holds of the attributes and the
invocations that are added at the end.
-/

namespace EventWrap

/-! ## Outlines -/

/-- What a declaration contributes to names and scopes. -/
def Declaration.outline (d : Declaration) : String × String × Option TypeId × List String :=
  (d.namespaceName, d.simpleName, d.container, d.parameterNames)

namespace Declaration

variable {d d' : Declaration}

theorem arity_eq_length (d : Declaration) : d.arity = d.parameterNames.length :=
  (List.length_map _).symm

theorem simpleName_congr (hname : d'.name = d.name)
    (hparameters : d'.parameterNames = d.parameterNames) :
    d'.simpleName = d.simpleName := by
  have hgeneric : ∀ d : Declaration, d.isGeneric = !d.parameterNames.isEmpty := fun d => by
    rw [isGeneric, parameterNames, List.isEmpty_map]
  rw [simpleName, simpleName, hgeneric, hgeneric, arity_eq_length, arity_eq_length, hname,
    hparameters]

end Declaration

/-- Details with the type parameters of a declaration keep its outline. -/
theorem Document.Details.outline_addTo {details : Details} {d : Declaration}
    (h : details.typeParameters.map (·.name) = d.parameterNames) :
    (details.addTo d).outline = d.outline := by
  have hparameters : (details.addTo d).parameterNames = d.parameterNames := h
  have hsimple : (details.addTo d).simpleName = d.simpleName :=
    Declaration.simpleName_congr rfl hparameters
  rw [Declaration.outline, Declaration.outline, hsimple, hparameters]
  rfl

namespace Program

/-- Programs with the same names and scopes. -/
structure SameOutlines (p q : Program) : Prop where
  index : q.index = p.index
  size : q.size = p.size
  outline : ∀ id, (q.declaration id).outline = (p.declaration id).outline

namespace SameOutlines

variable {p q r : Program}

theorem refl (p : Program) : p.SameOutlines p := ⟨rfl, rfl, fun _ => rfl⟩

theorem symm (h : p.SameOutlines q) : q.SameOutlines p :=
  ⟨h.index.symm, h.size.symm, fun id => (h.outline id).symm⟩

theorem trans (h : p.SameOutlines q) (h' : q.SameOutlines r) : p.SameOutlines r :=
  ⟨h'.index.trans h.index, h'.size.trans h.size, fun id => (h'.outline id).trans (h.outline id)⟩

section Views

variable (h : p.SameOutlines q)

include h

theorem container (id : TypeId) : (q.declaration id).container = (p.declaration id).container :=
  congrArg (fun outline => outline.2.2.1) (h.outline id)

theorem parameterNames (id : TypeId) :
    (q.declaration id).parameterNames = (p.declaration id).parameterNames :=
  congrArg (fun outline => outline.2.2.2) (h.outline id)

theorem resolve? (name : String) : q.resolve? name = p.resolve? name := by
  rw [Program.resolve?, Program.resolve?, h.index]

theorem outerFirst (hp : p.OuterFirst) : q.OuterFirst :=
  fun id outer hc => hp id outer (h.container id ▸ hc)

theorem map_nesting (hp : p.OuterFirst) (id : TypeId) :
    (q.nesting id).map (·.outline) = (p.nesting id).map (·.outline) := by
  have hpath : List.Forall₂ (fun d d' => d'.outline = d.outline) (p.nesting id) (q.nesting id) :=
    forall₂_nesting (σ := fun id => id) (fun _ => True) hp (h.outerFirst hp)
      (fun _ _ _ _ => trivial) (fun id _ => h.outline id)
      (fun id _ => by rw [h.container, Option.map_id']) trivial
  generalize p.nesting id = path, q.nesting id = path' at hpath
  induction hpath with
  | nil => rfl
  | cons hd _ ih => rw [List.map_cons, List.map_cons, hd, ih]

theorem metadataName (hp : p.OuterFirst) (id : TypeId) : q.metadataName id = p.metadataName id := by
  have hpath := h.map_nesting hp id
  have hfirst : (q.nesting id).namespaceName = (p.nesting id).namespaceName := by
    have := congrArg (fun path => (path.head?.map (·.1)).getD "") hpath
    rw [List.head?_map, List.head?_map, Option.map_map, Option.map_map] at this
    exact this
  have hlevels : (q.nesting id).map (·.simpleName) = (p.nesting id).map (·.simpleName) := by
    have := congrArg (List.map (·.2.1)) hpath
    rw [List.map_map, List.map_map] at this
    exact this
  rw [Program.metadataName, Program.metadataName, Nesting.metadataName, Nesting.metadataName,
    hfirst, hlevels]

theorem typeParametersInScope (hp : p.OuterFirst) (id : TypeId) :
    (q.typeParametersInScope id).map (·.name) = (p.typeParametersInScope id).map (·.name) := by
  have hscope : ∀ path : Nesting,
      path.typeParameters.map (·.name) = (path.map (·.outline)).flatMap (·.2.2.2) := by
    intro path
    rw [Nesting.typeParameters, List.map_flatMap, List.flatMap_map]
    rfl
  rw [Program.typeParametersInScope, Program.typeParametersInScope, hscope, hscope,
    h.map_nesting hp]

theorem indexed (hp : p.Indexed) : q.Indexed where
  outerFirst := h.outerFirst hp.outerFirst
  resolve?_iff := by
    intro name id
    rw [h.resolve?, h.size, h.metadataName hp.outerFirst]
    exact hp.resolve?_iff

/-- Where names and scopes are the same everything is resolved alike. -/
theorem resolvesAlike : p.ResolvesAlike id q where
  resolve? hres := (h.resolve? _).trans hres
  arity id' := by
    rw [Declaration.arity_eq_length, Declaration.arity_eq_length, id, h.parameterNames]

end Views

end SameOutlines

/-! ## Updates -/

variable {p : Program} {id : TypeId}

theorem declaration_update_self (change : Declaration → Declaration) (h : id < p.size) :
    (p.update id change).declaration id = change (p.declaration id) := by
  have hid : id < p.types.size := h
  simp [declaration, update, Array.getD_eq_getD_getElem?, hid, Array.getElem_modify_self]

theorem declaration_update_of_ne {other : TypeId} (change : Declaration → Declaration)
    (h : other ≠ id) :
    (p.update id change).declaration other = p.declaration other := by
  simp [declaration, update, Array.getD_eq_getD_getElem?, Array.getElem?_modify, h.symm]

theorem size_update (p : Program) (id : TypeId) (change : Declaration → Declaration) :
    (p.update id change).size = p.size :=
  Array.size_modify

/-- A declaration with new details has the outline that it had. -/
theorem sameOutlines_update {details : Document.Details} (hid : id < p.size)
    (h : details.typeParameters.map (·.name) = (p.declaration id).parameterNames) :
    p.SameOutlines (p.update id details.addTo) where
  index := rfl
  size := size_update p id _
  outline other := by
    by_cases hother : other = id
    · rw [hother, declaration_update_self _ hid, Document.Details.outline_addTo h]
    · rw [declaration_update_of_ne _ hother]

end Program

open Document

/-! ## Completing -/

namespace Document

/-- Some declared types of a program have received their details. -/
structure Completed (p : Program) (pairs : List (TypeEntry × TypeId)) (p' : Program) : Prop
    extends p.SameOutlines p' where
  others : ∀ id, id ∉ pairs.map (·.2) → p'.declaration id = p.declaration id
  detailed : ∀ x ∈ pairs, ∃ details, resolveDetails p x.2 x.1 = .ok details ∧
    p'.declaration x.2 = details.addTo (p.declaration x.2)

/-- The types of entries are declared with their type parameters. -/
def HaveHeaders (p : Program) (pairs : List (TypeEntry × TypeId)) : Prop :=
  ∀ x ∈ pairs, x.2 < p.size ∧ (p.declaration x.2).parameterNames = x.1.typeParameters.map (·.name)

theorem HaveHeaders.of_sameOutlines {p q : Program} {pairs : List (TypeEntry × TypeId)}
    (h : HaveHeaders p pairs) (hpq : p.SameOutlines q) : HaveHeaders q pairs := by
  intro x hx
  rw [hpq.size, hpq.parameterNames]
  exact h x hx

theorem resolveDetails_of_sameOutlines {p q : Program} (hp : p.OuterFirst) (h : p.SameOutlines q)
    {id : TypeId} {t : TypeEntry}
    {details : Details} (hdetails : resolveDetails p id t = .ok details) :
    resolveDetails q id t = .ok details := by
  have hq := h.resolvesAlike.resolveDetails (h.typeParametersInScope hp id) hdetails
  rw [Details.rename_id] at hq
  exact hq

theorem resolveAttribute_eq_ok_iff_of_sameOutlines {p q : Program} (h : p.SameOutlines q)
    {scope : List String} {context : String} {a : AttributeEntry} {x : Attribute} :
    resolveAttribute q scope context a = .ok x ↔ resolveAttribute p scope context a = .ok x := by
  constructor
  · intro hx
    have hp := h.symm.resolvesAlike.resolveAttribute a x hx
    rw [Attribute.rename_id] at hp
    exact hp
  · intro hx
    have hq := h.resolvesAlike.resolveAttribute a x hx
    rw [Attribute.rename_id] at hq
    exact hq

theorem resolveInvocation_eq_ok_iff_of_sameOutlines {p q : Program} (h : p.SameOutlines q)
    {i : InvocationEntry}
    {x : Invocation} : resolveInvocation q i = .ok x ↔ resolveInvocation p i = .ok x := by
  constructor
  · intro hx
    have hp := h.symm.resolvesAlike.resolveInvocation i x hx
    rw [Invocation.rename_id] at hp
    exact hp
  · intro hx
    have hq := h.resolvesAlike.resolveInvocation i x hx
    rw [Invocation.rename_id] at hq
    exact hq

end Document

namespace Loading

variable {p p' : Program}

/-- What is asked of a program is then worked into it. -/
theorem ask_modify_eq_ok_iff {β : Type} {question : Program → Except LoadError β}
    {change : β → Program → Program} :
    (do
      let b ← ask question
      modify (change b) : Loading Unit) p = .ok () p' ↔ ∃ b, question p = .ok b ∧
        p' = change b p := by
  rw [bind_eq_ok_iff]
  simp only [ask]
  constructor
  · rintro ⟨b, p₁, hb, hrun⟩
    split at hb
    · next hres =>
      cases hb
      cases hrun
      exact ⟨b, hres, rfl⟩
    · cases hb
  · rintro ⟨b, hres, rfl⟩
    exact ⟨b, p, by rw [hres], rfl⟩

theorem completeType_eq_ok_iff {t : TypeEntry} {id : TypeId} :
    completeType t id p = .ok () p' ↔ ∃ details, resolveDetails p id t = .ok details ∧
      p' = p.update id details.addTo :=
  ask_modify_eq_ok_iff

/-- Where all types could be completed, each has received the details that resolve at the start. -/
theorem completed_of_forM (hp : p.OuterFirst) {pairs : List (TypeEntry × TypeId)}
    (hheaders : HaveHeaders p pairs) (hnodup : (pairs.map (·.2)).Nodup)
    (hrun : (pairs.forM fun (t, id) => completeType t id) p = .ok () p') :
    Completed p pairs p' ∧ p'.assemblyAttributes = p.assemblyAttributes ∧
      p'.invocations = p.invocations := by
  induction pairs generalizing p with
  | nil =>
    cases hrun
    exact ⟨⟨.refl _, fun _ _ => rfl, List.forall_mem_nil _⟩, rfl, rfl⟩
  | cons x rest ih =>
    obtain ⟨t, id⟩ := x
    rw [List.forM] at hrun
    obtain ⟨⟨⟩, p₁, hcomplete, hrest⟩ := bind_eq_ok_iff.1 hrun
    obtain ⟨details, hdetails, rfl⟩ := completeType_eq_ok_iff.1 hcomplete
    obtain ⟨hid, hnames⟩ := hheaders (t, id) List.mem_cons_self
    have hheaders' : HaveHeaders p rest := fun y hy => hheaders y (List.mem_cons_of_mem _ hy)
    rw [List.map_cons, List.nodup_cons] at hnodup
    have hsame : p.SameOutlines (p.update id details.addTo) :=
      Program.sameOutlines_update hid
        ((parameterNames_of_resolveDetails hdetails).trans hnames.symm)
    obtain ⟨hcompleted, hattributes, hinvocations⟩ :=
      ih (hsame.outerFirst hp) (hheaders'.of_sameOutlines hsame) hnodup.2 hrest
    refine ⟨⟨hsame.trans hcompleted.toSameOutlines, ?_, ?_⟩, hattributes, hinvocations⟩
    · intro other hother
      rw [List.map_cons, List.mem_cons, not_or] at hother
      rw [hcompleted.others other hother.2, Program.declaration_update_of_ne _ hother.1]
    · refine List.forall_mem_cons.2 ⟨⟨details, hdetails, ?_⟩, ?_⟩
      · rw [hcompleted.others id hnodup.1, Program.declaration_update_self _ hid]
      · intro y hy
        obtain ⟨details', hdetails', hdeclaration⟩ := hcompleted.detailed y hy
        have hne : y.2 ≠ id := fun heq => hnodup.1 (List.mem_map.2 ⟨y, hy, heq⟩)
        refine ⟨details', resolveDetails_of_sameOutlines (hsame.outerFirst hp) hsame.symm hdetails',
          ?_⟩
        rw [hdeclaration, Program.declaration_update_of_ne _ hne]

/-- Types whose details resolve at the start are all completed. -/
theorem exists_forM_completeType (hp : p.OuterFirst) {pairs : List (TypeEntry × TypeId)}
    (hheaders : HaveHeaders p pairs)
    (hdetails : ∀ x ∈ pairs, ∃ details, resolveDetails p x.2 x.1 = .ok details) :
    ∃ p', (pairs.forM fun (t, id) => completeType t id) p = .ok () p' := by
  induction pairs generalizing p with
  | nil => exact ⟨p, rfl⟩
  | cons x rest ih =>
    obtain ⟨t, id⟩ := x
    obtain ⟨hid, hnames⟩ := hheaders (t, id) List.mem_cons_self
    have hheaders' : HaveHeaders p rest := fun y hy => hheaders y (List.mem_cons_of_mem _ hy)
    obtain ⟨⟨details, hfirst⟩, hdetails⟩ := List.forall_mem_cons.1 hdetails
    have hsame : p.SameOutlines (p.update id details.addTo) :=
      Program.sameOutlines_update hid ((parameterNames_of_resolveDetails hfirst).trans hnames.symm)
    obtain ⟨p', hrest⟩ := ih (hsame.outerFirst hp) (hheaders'.of_sameOutlines hsame) fun y hy => by
      obtain ⟨details', hdetails'⟩ := hdetails y hy
      exact ⟨details', resolveDetails_of_sameOutlines hp hsame hdetails'⟩
    rw [List.forM]
    exact ⟨p', bind_eq_ok_iff.2 ⟨(), _, completeType_eq_ok_iff.2 ⟨details, hfirst, rfl⟩, hrest⟩⟩

/-! ## Additions -/

/-- Entries are resolved and added one after the other. Where additions do not change what others
are resolved to, all of them are resolved at the start. -/
theorem forM_eq_ok_iff {α β : Type} (resolve : Program → α → Except LoadError β)
    (extend : Program → β → Program) {step : α → Loading Unit}
    (hstep : ∀ a p p', step a p = .ok () p' ↔ ∃ b, resolve p a = .ok b ∧ p' = extend p b)
    (hkept : ∀ p b a x, resolve (extend p b) a = .ok x ↔ resolve p a = .ok x) {l : List α} :
    l.forM step p = .ok () p' ↔ ∃ r, l.mapM (resolve p) = .ok r ∧ p' = r.foldl extend p := by
  induction l generalizing p with
  | nil =>
    constructor
    · rintro ⟨⟩
      exact ⟨[], rfl, rfl⟩
    · rintro ⟨_, ⟨⟩, rfl⟩
      rfl
  | cons a rest ih =>
    rw [List.forM, bind_eq_ok_iff, List.mapM_cons]
    simp only [ih, hstep, mapM_eq_ok_iff, EventWrap.bind_eq_ok_iff]
    constructor
    · rintro ⟨⟨⟩, _, ⟨b, hb, rfl⟩, r, hr, rfl⟩
      exact ⟨b :: r, ⟨b, hb, r, hr.imp fun _ _ => (hkept p b _ _).1, rfl⟩, rfl⟩
    · rintro ⟨_, ⟨b, hb, r, hr, ⟨⟩⟩, rfl⟩
      exact ⟨(), _, ⟨b, hb, rfl⟩, r, hr.imp fun _ _ => (hkept p b _ _).2, rfl⟩

theorem foldl_addAssemblyAttribute (attributes : List Attribute) (p : Program) :
    attributes.foldl Program.addAssemblyAttribute p =
      { p with assemblyAttributes := p.assemblyAttributes ++ attributes } := by
  induction attributes generalizing p with
  | nil => rw [List.foldl_nil, List.append_nil]
  | cons a rest ih =>
    rw [List.foldl_cons, ih, Program.addAssemblyAttribute, List.append_assoc]
    rfl

theorem foldl_addInvocation (invocations : List Invocation) (p : Program) :
    invocations.foldl Program.addInvocation p =
      { p with invocations := p.invocations ++ invocations } := by
  induction invocations generalizing p with
  | nil => rw [List.foldl_nil, List.append_nil]
  | cons i rest ih =>
    rw [List.foldl_cons, ih, Program.addInvocation, List.append_assoc]
    rfl

theorem forM_addAssemblyAttribute_eq_ok_iff {entries : List AttributeEntry} :
    entries.forM addAssemblyAttribute p = .ok () p' ↔ ∃ attributes,
      entries.mapM (resolveAttribute p [] "assembly") = .ok attributes ∧
        p' = { p with assemblyAttributes := p.assemblyAttributes ++ attributes } := by
  have hsame : ∀ (p : Program) (a : Attribute), p.SameOutlines (p.addAssemblyAttribute a) :=
    fun _ _ => ⟨rfl, rfl, fun _ => rfl⟩
  rw [forM_eq_ok_iff (fun p => resolveAttribute p [] "assembly") Program.addAssemblyAttribute
    (fun _ _ _ => ask_modify_eq_ok_iff) fun _ _ _ _ =>
      resolveAttribute_eq_ok_iff_of_sameOutlines (hsame _ _)]
  simp only [foldl_addAssemblyAttribute]

theorem forM_addInvocation_eq_ok_iff {entries : List InvocationEntry} :
    entries.forM addInvocation p = .ok () p' ↔ ∃ invocations,
      entries.mapM (resolveInvocation p) = .ok invocations ∧
        p' = { p with invocations := p.invocations ++ invocations } := by
  have hsame : ∀ (p : Program) (i : Invocation), p.SameOutlines (p.addInvocation i) :=
    fun _ _ => ⟨rfl, rfl, fun _ => rfl⟩
  rw [forM_eq_ok_iff resolveInvocation Program.addInvocation
    (fun _ _ _ => ask_modify_eq_ok_iff) fun _ _ _ _ =>
    resolveInvocation_eq_ok_iff_of_sameOutlines (hsame _ _)]
  simp only [foldl_addInvocation]

end Loading

/-! ## Whole documents -/

namespace Document

theorem Declared.haveHeaders {base p : Program} {entries : List TypeEntry}
    (h : Declared base entries p) :
    HaveHeaders p (places base entries) := by
  intro x hx
  obtain ⟨hres, hdeclaration⟩ := h.placed x hx
  refine ⟨(h.indexed.resolve?_iff.1 hres).1, ?_⟩
  rw [hdeclaration, TypeEntry.headerIn, Declaration.parameterNames, TypeEntry.header, List.map_map]
  rfl

/-- What a document has made of a program, by way of one that holds the headers of its types. -/
structure Loaded (base : Program) (d : Document) (headers p : Program) : Prop where
  declarable : Declarable base d.types
  declared : Declared base d.types headers
  completed : Completed headers (places base d.types) p
  assemblyAttributes :
    ∃ attributes, d.assemblyAttributes.mapM (resolveAttribute headers [] "assembly") =
      .ok attributes ∧
    p.assemblyAttributes = base.assemblyAttributes ++ attributes
  invocations : ∃ invocations, d.invocations.mapM (resolveInvocation headers) = .ok invocations ∧
    p.invocations = base.invocations ++ invocations

end Document

namespace Loading

variable {base headers p : Program} {d : Document}

theorem loadDocument_eq_ok_iff :
    loadDocument d base = .ok () p ↔ ∃ ids headers p₁ p₂,
      d.types.mapM declareType base = .ok ids headers ∧
      ((d.types.zip ids).forM fun (t, id) => completeType t id) headers = .ok () p₁ ∧
      d.assemblyAttributes.forM addAssemblyAttribute p₁ = .ok () p₂ ∧
        d.invocations.forM addInvocation p₂ = .ok () p := by
  unfold loadDocument
  constructor
  · intro hrun
    obtain ⟨ids, headers, htypes, hrun⟩ := bind_eq_ok_iff.1 hrun
    obtain ⟨⟨⟩, p₁, hcomplete, hrun⟩ := bind_eq_ok_iff.1 hrun
    obtain ⟨⟨⟩, p₂, hattributes, hinvocations⟩ := bind_eq_ok_iff.1 hrun
    exact ⟨ids, headers, p₁, p₂, htypes, hcomplete, hattributes, hinvocations⟩
  · rintro ⟨ids, headers, p₁, p₂, htypes, hcomplete, hattributes, hinvocations⟩
    exact bind_eq_ok_iff.2 ⟨ids, headers, htypes, bind_eq_ok_iff.2 ⟨(), p₁, hcomplete,
      bind_eq_ok_iff.2 ⟨(), p₂, hattributes, hinvocations⟩⟩⟩

/-- A document that could be loaded has been declared, completed and added to as its text says. -/
theorem loaded_of_loadDocument (h : base.Indexed) (hrun : loadDocument d base = .ok () p) :
    ∃ headers, Loaded base d headers p := by
  obtain ⟨ids, headers, p₁, p₂, htypes, hcomplete, hattributes, hinvocations⟩ :=
    loadDocument_eq_ok_iff.1 hrun
  obtain ⟨hdeclared, hdeclarable, rfl⟩ := declared_of_mapM h htypes
  obtain ⟨hcompleted, hkept, hkept'⟩ :=
    completed_of_forM hdeclared.indexed.outerFirst hdeclared.haveHeaders
      (nodup_snd_places base d.types) hcomplete
  obtain ⟨attributes, hresolved, rfl⟩ := forM_addAssemblyAttribute_eq_ok_iff.1 hattributes
  obtain ⟨invocations, hresolved', rfl⟩ := forM_addInvocation_eq_ok_iff.1 hinvocations
  have hsame : headers.SameOutlines
      { p₁ with assemblyAttributes := p₁.assemblyAttributes ++ attributes } :=
    ⟨hcompleted.index, hcompleted.size, hcompleted.outline⟩
  refine ⟨headers, hdeclarable, hdeclared,
    ⟨⟨hcompleted.index, hcompleted.size, hcompleted.outline⟩, hcompleted.others,
      hcompleted.detailed⟩,
    ⟨attributes, ?_, ?_⟩, invocations, ?_, ?_⟩
  · rw [mapM_eq_ok_iff] at hresolved ⊢
    exact hresolved.imp fun _ _ => (resolveAttribute_eq_ok_iff_of_sameOutlines
      hcompleted.toSameOutlines).1
  · calc p₁.assemblyAttributes ++ attributes
      _ = headers.assemblyAttributes ++ attributes := by rw [hkept]
      _ = base.assemblyAttributes ++ attributes := by rw [hdeclared.assemblyAttributes]
  · rw [mapM_eq_ok_iff] at hresolved' ⊢
    exact hresolved'.imp fun _ _ => (resolveInvocation_eq_ok_iff_of_sameOutlines hsame).1
  · calc p₁.invocations ++ invocations
      _ = headers.invocations ++ invocations := by rw [hkept']
      _ = base.invocations ++ invocations := by rw [hdeclared.invocations]

/-- A document is loaded when its types can be declared and what it says of them can be resolved. -/
theorem exists_loadDocument (h : base.Indexed) {ids : List TypeId}
    (htypes : d.types.mapM declareType base = .ok ids headers)
    (hdetails : ∀ x ∈ places base d.types, ∃ details, resolveDetails headers x.2 x.1 = .ok details)
    (hattributes : ∃ attributes, d.assemblyAttributes.mapM
      (resolveAttribute headers [] "assembly") = .ok attributes)
    (hinvocations : ∃ invocations, d.invocations.mapM (resolveInvocation headers) =
      .ok invocations) :
    ∃ p, loadDocument d base = .ok () p := by
  obtain ⟨hdeclared, -, rfl⟩ := declared_of_mapM h htypes
  obtain ⟨p₁, hcomplete⟩ :=
    exists_forM_completeType hdeclared.indexed.outerFirst hdeclared.haveHeaders hdetails
  obtain ⟨hcompleted, -, -⟩ := completed_of_forM hdeclared.indexed.outerFirst hdeclared.haveHeaders
    (nodup_snd_places base d.types) hcomplete
  obtain ⟨attributes, hresolved⟩ := hattributes
  obtain ⟨invocations, hresolved'⟩ := hinvocations
  have hsame : headers.SameOutlines
      { p₁ with assemblyAttributes := p₁.assemblyAttributes ++ attributes } :=
    ⟨hcompleted.index, hcompleted.size, hcompleted.outline⟩
  refine ⟨_, loadDocument_eq_ok_iff.2 ⟨_, headers, p₁, _, htypes, hcomplete,
    forM_addAssemblyAttribute_eq_ok_iff.2 ⟨attributes, ?_, rfl⟩,
    forM_addInvocation_eq_ok_iff.2 ⟨invocations, ?_, rfl⟩⟩⟩
  · rw [mapM_eq_ok_iff] at hresolved ⊢
    exact hresolved.imp fun _ _ => (resolveAttribute_eq_ok_iff_of_sameOutlines
      hcompleted.toSameOutlines).2
  · rw [mapM_eq_ok_iff] at hresolved' ⊢
    exact hresolved'.imp fun _ _ => (resolveInvocation_eq_ok_iff_of_sameOutlines hsame).2

end Loading

end EventWrap
