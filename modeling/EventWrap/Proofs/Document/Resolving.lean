import EventWrap.Document.Loading
import EventWrap.Proofs.Occurrence
import EventWrap.Proofs.Renaming.Basic
import Mathlib.Data.List.Forall2

/-!
# Resolving in two programs

What is written in a document is resolved by names and by the arities of the types behind them.
Programs in which the same names stand for types of the same arities, at other places, resolve
everything alike: what comes out is renamed.
-/

namespace EventWrap

/-! ## Answers of several questions -/

section Answers

variable {ε α β γ : Type} {f : α → Except ε β} {g : α → Except ε γ} {r : β → γ}

theorem bind_eq_ok_iff {x : Except ε α} {b : β} :
    (x >>= f) = .ok b ↔ ∃ a, x = .ok a ∧ f a = .ok b := by
  cases x with
  | error e =>
    constructor
    · rintro ⟨⟩
    · rintro ⟨_, ⟨⟩, _⟩
  | ok a =>
    constructor
    · exact fun h => ⟨a, rfl, h⟩
    · rintro ⟨_, ⟨⟩, h⟩
      exact h

theorem map_eq_ok_iff {x : Except ε α} {f : α → β} {b : β} :
    f <$> x = .ok b ↔ ∃ a, x = .ok a ∧ f a = b := by
  cases x with
  | error e =>
    constructor
    · rintro ⟨⟩
    · rintro ⟨_, ⟨⟩, _⟩
  | ok a =>
    constructor
    · exact fun h => ⟨a, rfl, Except.ok.inj h⟩
    · rintro ⟨_, ⟨⟩, rfl⟩
      rfl

/-- Questions that are asked one after the other are all answered, or one of them is not. -/
theorem mapM_eq_ok_iff {l : List α} {l' : List β} :
    l.mapM f = .ok l' ↔ List.Forall₂ (fun a b => f a = .ok b) l l' := by
  induction l generalizing l' with
  | nil =>
    rw [List.mapM_nil, List.forall₂_nil_left_iff]
    exact ⟨fun h => (Except.ok.inj h).symm, fun h => congrArg _ h.symm⟩
  | cons a rest ih =>
    rw [List.mapM_cons, bind_eq_ok_iff, List.forall₂_cons_left_iff]
    simp only [bind_eq_ok_iff, ih]
    constructor
    · rintro ⟨b, hb, rest', hrest, ⟨⟩⟩
      exact ⟨b, rest', hb, hrest, rfl⟩
    · rintro ⟨b, rest', hb, hrest, rfl⟩
      exact ⟨b, hb, rest', hrest, rfl⟩

theorem exists_of_mem_mapM {l : List α} {l' : List β} {b : β} (h : l.mapM f = .ok l')
    (hb : b ∈ l') : ∃ a ∈ l, f a = .ok b := by
  have hrel := mapM_eq_ok_iff.1 h
  clear h
  induction hrel with
  | nil => cases hb
  | @cons a _ _ _ hab _ ih =>
    rcases List.mem_cons.1 hb with rfl | hb
    · exact ⟨a, List.mem_cons_self, hab⟩
    · obtain ⟨a', ha', hab'⟩ := ih hb
      exact ⟨a', List.mem_cons_of_mem _ ha', hab'⟩

theorem exists_of_mem_optionMapM {o : Option α} {o' : Option β} {b : β} (h : o.mapM f = .ok o')
    (hb : b ∈ o') : ∃ a ∈ o, f a = .ok b := by
  cases o with
  | none =>
    cases h
    cases hb
  | some a =>
    obtain ⟨b', hb', rfl⟩ := map_eq_ok_iff.1 h
    cases Option.mem_some_iff.1 hb
    exact ⟨a, rfl, hb'⟩

theorem mapM_ok_map (hfg : ∀ a b, f a = .ok b → g a = .ok (r b)) {l : List α} {l' : List β}
    (h : l.mapM f = .ok l') :
    l.mapM g = .ok (l'.map r) := by
  rw [mapM_eq_ok_iff, List.forall₂_map_right_iff]
  exact (mapM_eq_ok_iff.1 h).imp hfg

theorem optionMapM_ok_map (hfg : ∀ a b, f a = .ok b → g a = .ok (r b)) {o : Option α}
    {o' : Option β} (h : o.mapM f = .ok o') : o.mapM g = .ok (o'.map r) := by
  cases o with
  | none =>
    cases h
    rfl
  | some a =>
    obtain ⟨b, hb, rfl⟩ := map_eq_ok_iff.1 h
    exact map_eq_ok_iff.2 ⟨r b, hfg a b hb, rfl⟩

end Answers

/-! ## Renamed details -/

namespace Document

def Details.rename (σ : TypeId → TypeId) (details : Details) : Details where
  typeParameters := details.typeParameters.map (·.rename σ)
  base := details.base.map (·.rename σ)
  events := details.events.map (·.rename σ)
  attributes := details.attributes.map (·.rename σ)
  invoke := details.invoke.map (·.rename σ)

theorem Details.rename_id (details : Details) : details.rename id = details := by
  rw [rename, map_eq_self TypeParameter.rename_id, optionMap_eq_self TypeRef.rename_id,
    map_eq_self EventDeclaration.rename_id, map_eq_self Attribute.rename_id,
    optionMap_eq_self Signature.rename_id]

/-- The details of a type are resolved part by part, with the type parameters in scope. -/
theorem resolveDetails_eq_ok_iff {p : Program} {id : TypeId} {t : TypeEntry} {details : Details} :
    let scope := (p.typeParametersInScope id).map (·.name)
    resolveDetails p id t = .ok details ↔
      t.typeParameters.mapM (resolveTypeParameter p scope t.name) = .ok details.typeParameters ∧
      t.base.mapM (resolveReference p scope t.name) = .ok details.base ∧
      t.events.mapM (resolveEvent p scope t.name) = .ok details.events ∧
      t.attributes.mapM (resolveAttribute p scope t.name) = .ok details.attributes ∧
      t.invoke.mapM (resolveSignature p scope t.name) = .ok details.invoke := by
  intro scope
  rw [resolveDetails]
  simp only [bind_eq_ok_iff]
  constructor
  · rintro ⟨typeParameters, htypeParameters, base, hbase, events, hevents, attributes, hattributes,
      invoke, hinvoke, ⟨⟩⟩
    exact ⟨htypeParameters, hbase, hevents, hattributes, hinvoke⟩
  · rintro ⟨htypeParameters, hbase, hevents, hattributes, hinvoke⟩
    exact ⟨_, htypeParameters, _, hbase, _, hevents, _, hattributes, _, hinvoke, rfl⟩

end Document

/-- The same names stand for types of the same arities, under new places. -/
structure Program.ResolvesAlike (σ : TypeId → TypeId) (p q : Program) : Prop where
  resolve? : ∀ {name id}, p.resolve? name = some id → q.resolve? name = some (σ id)
  arity : ∀ id, (q.declaration (σ id)).arity = (p.declaration id).arity

namespace Program.ResolvesAlike

open Document

variable {σ : TypeId → TypeId} {p q : Program}

/-! ## References -/

section Names

variable (h : p.ResolvesAlike σ q) {scope : List String} {context name : String}

include h

theorem resolveName {id : TypeId} (hname : resolveName p context name = .ok id) :
    Document.resolveName q context name = .ok (σ id) := by
  unfold Document.resolveName at hname ⊢
  split at hname
  · next id' hres =>
    cases hname
    rw [h.resolve? hres]
  · cases hname

theorem resolvePlain {r : TypeRef} (hr : resolvePlain p scope context name = .ok r) :
    Document.resolvePlain q scope context name = .ok (r.rename σ) := by
  unfold Document.resolvePlain at hr ⊢
  split at hr
  · next hscope =>
    cases hr
    rw [if_pos hscope]
    rfl
  · next hscope =>
    rw [if_neg hscope]
    split at hr
    all_goals
      next hkeyword =>
      obtain ⟨id, hid, rfl⟩ := map_eq_ok_iff.1 hr
      exact map_eq_ok_iff.2 ⟨σ id, h.resolveName hid, rfl⟩

end Names

mutual

theorem resolveReference (h : p.ResolvesAlike σ q) {scope : List String} {context : String} :
    ∀ (reference : Reference) (r : TypeRef), resolveReference p scope context reference = .ok r →
      Document.resolveReference q scope context reference = .ok (r.rename σ)
  | .name name, r, hr => by
    rw [Document.resolveReference] at hr ⊢
    exact h.resolvePlain hr
  | .generic name arguments, r, hr => by
    rw [Document.resolveReference] at hr ⊢
    obtain ⟨id, hid, hr⟩ := bind_eq_ok_iff.1 hr
    refine bind_eq_ok_iff.2 ⟨σ id, h.resolveName hid, ?_⟩
    simp only [h.arity]
    by_cases hcount : (p.declaration id).arity ≠ arguments.length
    · simp only [if_pos hcount] at hr
      cases hr
    · simp only [if_neg hcount] at hr ⊢
      obtain ⟨refs, hrefs, ⟨⟩⟩ := bind_eq_ok_iff.1 hr
      refine bind_eq_ok_iff.2 ⟨_, resolveReferences h arguments refs hrefs, ?_⟩
      rw [TypeRef.rename, TypeRef.renameAll_eq_map]
      rfl
  | .array element rank, r, hr => by
    rw [Document.resolveReference] at hr ⊢
    obtain ⟨inner, hinner, ⟨⟩⟩ := bind_eq_ok_iff.1 hr
    exact bind_eq_ok_iff.2 ⟨_, resolveReference h element inner hinner, rfl⟩
  | .nullable reference, r, hr => by
    rw [Document.resolveReference] at hr ⊢
    obtain ⟨inner, hinner, ⟨⟩⟩ := bind_eq_ok_iff.1 hr
    exact bind_eq_ok_iff.2 ⟨_, resolveReference h reference inner hinner, rfl⟩

theorem resolveReferences (h : p.ResolvesAlike σ q) {scope : List String} {context : String} :
    ∀ (references : List Reference) (refs : List TypeRef),
      resolveReferences p scope context references = .ok refs →
      Document.resolveReferences q scope context references = .ok (refs.map (·.rename σ))
  | [], refs, hrefs => by
    cases hrefs
    rfl
  | reference :: rest, refs, hrefs => by
    rw [Document.resolveReferences] at hrefs ⊢
    obtain ⟨first, hfirst, hrest⟩ := bind_eq_ok_iff.1 hrefs
    obtain ⟨rest', hrest', ⟨⟩⟩ := bind_eq_ok_iff.1 hrest
    exact bind_eq_ok_iff.2 ⟨_, resolveReference h reference first hfirst,
      bind_eq_ok_iff.2 ⟨_, resolveReferences h rest rest' hrest', rfl⟩⟩

end

/-! ## Parts of declarations -/

section Parts

variable (h : p.ResolvesAlike σ q) {scope : List String} {context : String}

include h

theorem resolveArgument (a : ArgumentEntry) (x : Attribute.Argument)
    (hx : resolveArgument p scope context a = .ok x) :
    Document.resolveArgument q scope context a = .ok (x.rename σ) := by
  cases a with
  | typeOf reference =>
    obtain ⟨r, hr, ⟨⟩⟩ := bind_eq_ok_iff.1 hx
    exact bind_eq_ok_iff.2 ⟨_, h.resolveReference reference r hr, rfl⟩
  | flag | number | text | null =>
    cases hx
    rfl

theorem resolveAttribute (a : AttributeEntry) (x : Attribute)
    (hx : resolveAttribute p scope context a = .ok x) :
    Document.resolveAttribute q scope context a = .ok (x.rename σ) := by
  obtain ⟨arguments, harguments, ⟨⟩⟩ := bind_eq_ok_iff.1 hx
  exact bind_eq_ok_iff.2 ⟨_, mapM_ok_map h.resolveArgument harguments, rfl⟩

theorem resolveParameter (a : ParameterEntry) (x : Parameter)
    (hx : resolveParameter p scope context a = .ok x) :
    Document.resolveParameter q scope context a = .ok (x.rename σ) := by
  obtain ⟨r, hr, ⟨⟩⟩ := bind_eq_ok_iff.1 hx
  exact bind_eq_ok_iff.2 ⟨_, h.resolveReference a.type r hr, rfl⟩

theorem resolveSignature (s : SignatureEntry) (x : Signature)
    (hx : resolveSignature p scope context s = .ok x) :
    Document.resolveSignature q scope context s = .ok (x.rename σ) := by
  obtain ⟨result, hresult, hx⟩ := bind_eq_ok_iff.1 hx
  obtain ⟨parameters, hparameters, ⟨⟩⟩ := bind_eq_ok_iff.1 hx
  exact bind_eq_ok_iff.2 ⟨_, h.resolveReference _ result hresult,
    bind_eq_ok_iff.2 ⟨_, mapM_ok_map h.resolveParameter hparameters, rfl⟩⟩

theorem resolveTypeParameter (a : TypeParameterEntry) (x : TypeParameter)
    (hx : resolveTypeParameter p scope context a = .ok x) :
    Document.resolveTypeParameter q scope context a = .ok (x.rename σ) := by
  obtain ⟨bounds, hbounds, ⟨⟩⟩ := bind_eq_ok_iff.1 hx
  exact bind_eq_ok_iff.2 ⟨_, h.resolveReferences a.bounds bounds hbounds, rfl⟩

theorem resolveEvent (e : EventEntry) (x : EventDeclaration)
    (hx : resolveEvent p scope context e = .ok x) :
    Document.resolveEvent q scope context e = .ok (x.rename σ) := by
  obtain ⟨delegate, hdelegate, hx⟩ := bind_eq_ok_iff.1 hx
  obtain ⟨attributes, hattributes, ⟨⟩⟩ := bind_eq_ok_iff.1 hx
  exact bind_eq_ok_iff.2 ⟨_, h.resolveReference e.delegate delegate hdelegate,
    bind_eq_ok_iff.2 ⟨_, mapM_ok_map h.resolveAttribute hattributes, rfl⟩⟩

theorem resolveDetails {id : TypeId} {t : TypeEntry} {details : Details}
    (hscope : (q.typeParametersInScope (σ id)).map (·.name) =
      (p.typeParametersInScope id).map (·.name))
    (hdetails : resolveDetails p id t = .ok details) :
    Document.resolveDetails q (σ id) t = .ok (details.rename σ) := by
  obtain ⟨htypeParameters, hbase, hevents, hattributes, hinvoke⟩ :=
    resolveDetails_eq_ok_iff.1 hdetails
  refine resolveDetails_eq_ok_iff.2 ?_
  rw [hscope]
  refine ⟨?_, ?_, ?_, ?_, ?_⟩
  · exact mapM_ok_map h.resolveTypeParameter htypeParameters
  · exact optionMapM_ok_map (fun a => h.resolveReference a) hbase
  · exact mapM_ok_map h.resolveEvent hevents
  · exact mapM_ok_map h.resolveAttribute hattributes
  · exact optionMapM_ok_map h.resolveSignature hinvoke

theorem resolveInvocation (i : InvocationEntry) (x : Invocation)
    (hx : resolveInvocation p i = .ok x) :
    Document.resolveInvocation q i = .ok (x.rename σ) := by
  unfold Document.resolveInvocation at hx ⊢
  obtain ⟨container, hcontainer, hx⟩ := bind_eq_ok_iff.1 hx
  obtain ⟨arguments, harguments, ⟨⟩⟩ := bind_eq_ok_iff.1 hx
  exact bind_eq_ok_iff.2 ⟨_, optionMapM_ok_map (fun _ _ => h.resolveName) hcontainer,
    bind_eq_ok_iff.2 ⟨_, mapM_ok_map (fun a => h.resolveReference a) harguments, rfl⟩⟩

end Parts

end Program.ResolvesAlike

/-! ## What is resolved -/

namespace Document

variable {p : Program} {scope : List String} {context : String}

theorem name_of_resolveTypeParameter {a : TypeParameterEntry} {x : TypeParameter}
    (hx : resolveTypeParameter p scope context a = .ok x) : x.name = a.name := by
  obtain ⟨bounds, -, ⟨⟩⟩ := bind_eq_ok_iff.1 hx
  rfl

theorem name_of_resolveEvent {e : EventEntry} {x : EventDeclaration}
    (hx : resolveEvent p scope context e = .ok x) :
    x.name = e.name := by
  obtain ⟨delegate, -, hx⟩ := bind_eq_ok_iff.1 hx
  obtain ⟨attributes, -, ⟨⟩⟩ := bind_eq_ok_iff.1 hx
  rfl

/-- What is found in the same order keeps names that the questions tell. -/
theorem map_name_of_mapM {α β : Type} {f : α → Except LoadError β} {nameOf : α → String}
    {name : β → String} (hf : ∀ {a b}, f a = .ok b → name b = nameOf a) {l : List α} {l' : List β}
    (h : l.mapM f = .ok l') :
    l'.map name = l.map nameOf := by
  have hrel := mapM_eq_ok_iff.1 h
  clear h
  induction hrel with
  | nil => rfl
  | cons hab _ ih => rw [List.map_cons, List.map_cons, hf hab, ih]

/-- The details of a type have its type parameters. -/
theorem parameterNames_of_resolveDetails {id : TypeId} {t : TypeEntry} {details : Details}
    (hdetails : resolveDetails p id t = .ok details) :
    details.typeParameters.map (·.name) = t.typeParameters.map (·.name) :=
  map_name_of_mapM name_of_resolveTypeParameter (resolveDetails_eq_ok_iff.1 hdetails).1

/-- Questions in another order are answered in that order. -/
theorem exists_mapM_of_perm {α β : Type} {f : α → Except LoadError β} {l l' : List α} {r : List β}
    (hp : l.Perm l') (h : l.mapM f = .ok r) : ∃ r', l'.mapM f = .ok r' ∧ r.Perm r' := by
  obtain ⟨r', hr', hperm⟩ := List.perm_comp_forall₂ hp.symm (mapM_eq_ok_iff.1 h)
  exact ⟨r', mapM_eq_ok_iff.2 hr', hperm.symm⟩

/-- An entry whose events stand in an order that cannot be noticed. -/
structure TypeEntry.IsReordered (t t' : TypeEntry) : Prop where
  same : t' = { t with events := t'.events }
  events : Occurrence.Reordered (fun e => e.name) t.events t'.events

theorem exists_resolveDetails_of_isReordered {id : TypeId} {t t' : TypeEntry} {details : Details}
    (ht : t.IsReordered t') (hdetails : resolveDetails p id t = .ok details) :
    ∃ events, resolveDetails p id t' = .ok { details with events } ∧
      Occurrence.Reordered (fun e => e.name) details.events events := by
  obtain ⟨htypeParameters, hbase, hevents, hattributes, hinvoke⟩ :=
    resolveDetails_eq_ok_iff.1 hdetails
  have hreordered : ∃ events, t'.events.mapM
    (resolveEvent p ((p.typeParametersInScope id).map (·.name)) t.name) = .ok events ∧
      Occurrence.Reordered (fun e => e.name) details.events events := by
    rcases ht.events with heq | ⟨hp, hn⟩
    · exact ⟨details.events, heq ▸ hevents, .refl _ _⟩
    · obtain ⟨events, hevents', hperm⟩ := exists_mapM_of_perm hp hevents
      refine ⟨events, hevents', .inr ⟨hperm, ?_⟩⟩
      rw [map_name_of_mapM name_of_resolveEvent hevents]
      exact hn
  obtain ⟨events, hevents', hperm⟩ := hreordered
  refine ⟨events, ?_, hperm⟩
  rw [ht.same]
  exact resolveDetails_eq_ok_iff.2 ⟨htypeParameters, hbase, hevents', hattributes, hinvoke⟩

/-! ### Places -/

/-- A name of a type that is found by resolving is one of the index. -/
theorem resolve?_of_resolveName {name : String} {id : TypeId}
    (h : resolveName p context name = .ok id) :
    p.resolve? name = some id := by
  unfold resolveName at h
  split at h
  · next hres =>
    cases h
    exact hres
  · cases h

/-- A resolved reference is a type parameter, a type of the index, an array or a nullable type. -/
theorem resolveReference_cases {reference : Reference} {r : TypeRef}
    (hr : resolveReference p scope context reference = .ok r) :
    (∃ name, r = .parameter name) ∨
    (∃ name id arguments, p.resolve? name = some id ∧ r = .named id arguments) ∨
    (∃ element rank, r = .array element rank) ∨
    (∃ reference' inner, resolveReference p scope context reference' = .ok inner ∧
      r = .nullable inner) := by
  cases reference with
  | name name =>
    rw [resolveReference, resolvePlain] at hr
    split at hr
    · cases hr
      exact .inl ⟨name, rfl⟩
    · split at hr
      all_goals
        obtain ⟨id, hid, rfl⟩ := map_eq_ok_iff.1 hr
        exact .inr (.inl ⟨_, id, [], resolve?_of_resolveName hid, rfl⟩)
  | generic name arguments =>
    rw [resolveReference] at hr
    obtain ⟨id, hid, hr⟩ := bind_eq_ok_iff.1 hr
    by_cases hcount : (p.declaration id).arity ≠ arguments.length
    · simp only [if_pos hcount] at hr
      cases hr
    · simp only [if_neg hcount] at hr
      obtain ⟨refs, -, ⟨⟩⟩ := bind_eq_ok_iff.1 hr
      exact .inr (.inl ⟨name, id, refs, resolve?_of_resolveName hid, rfl⟩)
  | array element rank =>
    rw [resolveReference] at hr
    obtain ⟨inner, -, ⟨⟩⟩ := bind_eq_ok_iff.1 hr
    exact .inr (.inr (.inl ⟨inner, _, rfl⟩))
  | nullable reference =>
    rw [resolveReference] at hr
    obtain ⟨inner, hinner, ⟨⟩⟩ := bind_eq_ok_iff.1 hr
    exact .inr (.inr (.inr ⟨reference, inner, hinner, rfl⟩))

theorem exists_resolve?_of_namedType? {reference : Reference} {r : TypeRef} {id : TypeId}
    (hr : resolveReference p scope context reference = .ok r) (hid : r.namedType? = some id) :
    ∃ name, p.resolve? name = some id := by
  obtain ⟨_, rfl⟩ | ⟨name, _, _, hname, rfl⟩ | ⟨_, _, rfl⟩ | ⟨_, _, -, rfl⟩ :=
    resolveReference_cases hr
  · cases hid
  · cases hid
    exact ⟨name, hname⟩
  · cases hid
  · cases hid

/-- A type that is named through one nullable mark is one of the index, too. -/
theorem exists_resolve?_of_stripNullable {reference : Reference} {r : TypeRef} {id : TypeId}
    (hr : resolveReference p scope context reference = .ok r)
    (hid : r.stripNullable.namedType? = some id) :
    ∃ name, p.resolve? name = some id := by
  obtain ⟨_, rfl⟩ | ⟨name, _, _, hname, rfl⟩ | ⟨_, _, rfl⟩ | ⟨_, _, hinner, rfl⟩ :=
    resolveReference_cases hr
  · cases hid
  · cases hid
    exact ⟨name, hname⟩
  · cases hid
  · exact exists_resolve?_of_namedType? hinner hid

theorem exists_resolve?_of_mem_typeArguments {i : InvocationEntry} {x : Invocation} {r : TypeRef}
    {id : TypeId} (hx : resolveInvocation p i = .ok x) (hr : r ∈ x.typeArguments)
    (hid : r.stripNullable.namedType? = some id) :
    ∃ name, p.resolve? name = some id := by
  obtain ⟨container, -, hx⟩ := bind_eq_ok_iff.1 hx
  obtain ⟨arguments, harguments, ⟨⟩⟩ := bind_eq_ok_iff.1 hx
  obtain ⟨reference, -, hreference⟩ := exists_of_mem_mapM harguments hr
  exact exists_resolve?_of_stripNullable hreference hid

theorem exists_resolve?_of_typeArgument? {a : AttributeEntry} {x : Attribute} {r : TypeRef}
    {id : TypeId} (hx : resolveAttribute p scope context a = .ok x) (hr : x.typeArgument? = some r)
    (hid : r.namedType? = some id) :
    ∃ name, p.resolve? name = some id := by
  obtain ⟨arguments, harguments, ⟨⟩⟩ := bind_eq_ok_iff.1 hx
  unfold Attribute.typeArgument? at hr
  split at hr
  · next first rest hfirst =>
    cases hr
    obtain ⟨entry, -, hentry⟩ := exists_of_mem_mapM harguments (hfirst ▸ List.mem_cons_self)
    cases entry with
    | typeOf reference =>
      obtain ⟨r', hreference, heq⟩ := bind_eq_ok_iff.1 hentry
      cases heq
      exact exists_resolve?_of_namedType? hreference hid
    | flag | number | text | null => cases hentry
  · cases hr

end Document

end EventWrap
