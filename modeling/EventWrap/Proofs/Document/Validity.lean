import EventWrap.Proofs.Program.Applied

/-!
# Valid documents

A document is valid on top of a program when its types can be declared one after the other and every
name that it mentions stands for something: a type parameter in scope, or a type of the program or
of the document, wherever it is listed. This speaks of the names of types and of their numbers of
type parameters alone. Exactly the valid documents can be loaded, and then there is one new type for
each entry, in the order of the entries.
-/

namespace EventWrap

/-! ## Questions that have an answer -/

section Answered

variable {ε α β : Type} {x : Except ε α} {f : α → Except ε β}

theorem exists_ok_map_iff {f : α → β} : (∃ b, f <$> x = .ok b) ↔ ∃ a, x = .ok a := by
  simp only [map_eq_ok_iff]
  exact ⟨fun ⟨_, a, ha, _⟩ => ⟨a, ha⟩, fun ⟨a, ha⟩ => ⟨f a, a, ha, rfl⟩⟩

theorem exists_ok_pure_iff {a : α} : (∃ b, (pure a : Except ε α) = .ok b) ↔ True :=
  ⟨fun _ => trivial, fun _ => ⟨a, rfl⟩⟩

/-- A question that can be answered or not, whatever the answer to the one before it. -/
theorem exists_ok_bind_iff {P : Prop} (hf : ∀ a, (∃ b, f a = .ok b) ↔ P) :
    (∃ b, (x >>= f) = .ok b) ↔ (∃ a, x = .ok a) ∧ P := by
  simp only [bind_eq_ok_iff]
  constructor
  · rintro ⟨b, a, ha, hb⟩
    exact ⟨⟨a, ha⟩, (hf a).1 ⟨b, hb⟩⟩
  · rintro ⟨⟨a, ha⟩, hP⟩
    obtain ⟨b, hb⟩ := (hf a).2 hP
    exact ⟨b, a, ha, hb⟩

theorem exists_ok_bind_pure_iff {f : α → β} :
    (∃ b, (x >>= fun a => pure (f a)) = .ok b) ↔ ∃ a, x = .ok a := by
  rw [exists_ok_bind_iff fun _ => exists_ok_pure_iff, and_true]

theorem exists_ok_mapM_iff {l : List α} :
    (∃ l', l.mapM f = .ok l') ↔ ∀ a ∈ l, ∃ b, f a = .ok b := by
  induction l with
  | nil => simp [exists_ok_pure_iff]
  | cons a rest ih =>
    rw [List.mapM_cons, exists_ok_bind_iff fun _ => exists_ok_bind_pure_iff, ih,
      List.forall_mem_cons]

theorem exists_ok_optionMapM_iff {o : Option α} :
    (∃ o', o.mapM f = .ok o') ↔ ∀ a ∈ o, ∃ b, f a = .ok b := by
  cases o with
  | none => exact ⟨fun _ => nofun, fun _ => ⟨none, rfl⟩⟩
  | some a =>
    have hsome : (some a).mapM f = some <$> f a := rfl
    rw [hsome, exists_ok_map_iff]
    simp

end Answered

namespace Document

/-! ## Names and scopes -/

/-- The metadata name of a type of the program or of an entry, with the number of its type
parameters. -/
inductive Names (base : Program) (entries : List TypeEntry) : String → Nat → Prop
  | ofProgram {id : TypeId} (declared : id < base.size) :
      Names base entries (base.metadataName id) (base.declaration id).arity
  | ofEntry {t : TypeEntry} (listed : t ∈ entries) :
      Names base entries t.metadataName t.typeParameters.length

/-- The type parameters in scope of an entry are its own and those in scope of the type that it is
nested in. -/
inductive InScope (base : Program) (entries : List TypeEntry) : TypeEntry → String → Prop
  | own {t : TypeEntry} {q : TypeParameterEntry} (among : q ∈ t.typeParameters) :
      InScope base entries t q.name
  | ofEntry {t outer : TypeEntry} {name : String} (listed : outer ∈ entries)
      (nested : t.container = some outer.metadataName) (around : InScope base entries outer name) :
      InScope base entries t name
  | ofProgram {t : TypeEntry} {outer : TypeId} {q : TypeParameter} (declared : outer < base.size)
      (nested : t.container = some (base.metadataName outer))
      (around : q ∈ base.typeParametersInScope outer) : InScope base entries t q.name

/-- A reference as written can be resolved. A plain name is a type parameter in scope, else the
keyword of a built-in type that there is, else the name of a type. -/
inductive Resolves (base : Program) (entries : List TypeEntry) (scope : String → Prop) :
    Reference → Prop
  | parameter {name : String} (inScope : scope name) : Resolves base entries scope (.name name)
  | keyword {name : String} {b : BuiltIn} {arity : Nat} (free : ¬scope name)
      (reserved : b.keyword = name)
      (known : Names base entries ("System." ++ b.systemName) arity) :
      Resolves base entries scope (.name name)
  | type {name : String} {arity : Nat} (free : ¬scope name)
      (unreserved : ∀ b : BuiltIn, b.keyword ≠ name) (known : Names base entries name arity) :
      Resolves base entries scope (.name name)
  | generic {name : String} {arguments : List Reference}
      (known : Names base entries name arguments.length)
      (among : ∀ r ∈ arguments, Resolves base entries scope r) :
      Resolves base entries scope (.generic name arguments)
  | array {element : Reference} {rank : UInt32} (inner : Resolves base entries scope element) :
      Resolves base entries scope (.array element rank)
  | nullable {inner : Reference} (marked : Resolves base entries scope inner) :
      Resolves base entries scope (.nullable inner)

/-! ## References of entries -/

def ArgumentEntry.references : ArgumentEntry → List Reference
  | .typeOf type => [type]
  | _ => []

def AttributeEntry.references (a : AttributeEntry) : List Reference :=
  a.arguments.flatMap (·.references)

/-- A result that is left out stands for the plain name `void`. -/
def SignatureEntry.references (s : SignatureEntry) : List Reference :=
  s.result.getD (.name "void") :: s.parameters.map (·.type)

def EventEntry.references (e : EventEntry) : List Reference :=
  e.delegate :: e.attributes.flatMap (·.references)

def TypeEntry.references (t : TypeEntry) : List Reference :=
  t.typeParameters.flatMap (·.bounds) ++ t.base.toList ++ t.events.flatMap (·.references) ++
    t.attributes.flatMap (·.references) ++ t.invoke.toList.flatMap (·.references)

/-! ## Validity -/

/-- A document describes types, attributes and invocations that make sense on top of a program.
Attributes of the assembly and invocations are in no scope. -/
structure Valid (base : Program) (d : Document) : Prop where
  named : ∀ t ∈ d.types, t.name ≠ ""
  signed : ∀ t ∈ d.types, t.kind = .delegateType → t.invoke ≠ none
  contained : ∀ before t after, d.types = before ++ t :: after → ∀ outer, t.container = some outer →
    (∃ id < base.size, base.metadataName id = outer) ∨ ∃ t' ∈ before, t'.metadataName = outer
  distinct : (d.types.map (·.metadataName)).Nodup
  fresh : ∀ t ∈ d.types, ∀ id < base.size, base.metadataName id ≠ t.metadataName
  types : ∀ t ∈ d.types, ∀ r ∈ t.references, Resolves base d.types (InScope base d.types t) r
  assemblyAttributes : ∀ a ∈ d.assemblyAttributes, ∀ r ∈ a.references,
    Resolves base d.types (fun _ => False) r
  invocations : ∀ i ∈ d.invocations,
    (∀ name, i.container = some name → ∃ arity, Names base d.types name arity) ∧
    ∀ r ∈ i.typeArguments, Resolves base d.types (fun _ => False) r

/-! ## Names that are known once all types are declared -/

section Declared

variable {base p : Program} {entries : List TypeEntry} (h : Declared base entries p)
  (hbase : base.Indexed)

theorem arity_headerIn (t : TypeEntry) (p : Program) :
    (t.headerIn p).arity = t.typeParameters.length :=
  List.length_map _

include h hbase

/-- The names that stand for something are those of the program that holds the headers. -/
theorem Declared.names_iff {name : String} {arity : Nat} : Names base entries name arity ↔
    ∃ id, p.resolve? name = some id ∧ (p.declaration id).arity = arity := by
  constructor
  · rintro (⟨declared⟩ | ⟨listed⟩)
    · exact ⟨_, h.found (hbase.resolve?_metadataName declared), by rw [h.kept declared]⟩
    · obtain ⟨id, hx⟩ := exists_place base listed
      obtain ⟨hres, hdeclaration⟩ := h.placed _ hx
      exact ⟨id, hres, by rw [hdeclaration, arity_headerIn]⟩
  · rintro ⟨id, hres, rfl⟩
    obtain ⟨hid, rfl⟩ := h.indexed.resolve?_iff.1 hres
    by_cases hlt : id < base.size
    · rw [h.metadataName_of_lt hbase hlt, h.kept hlt]
      exact .ofProgram hlt
    · obtain ⟨t, hx⟩ := h.exists_entry (Nat.le_of_not_lt hlt) hid
      obtain ⟨hplace, hdeclaration⟩ := h.placed _ hx
      rw [(h.indexed.resolve?_iff.1 hplace).2, hdeclaration, arity_headerIn]
      exact .ofEntry (fst_mem_of_mem_places hx)

/-- The types of the base keep their type parameters in scope. -/
theorem Declared.typeParametersInScope_of_lt {id : TypeId} (hid : id < base.size) :
    p.typeParametersInScope id = base.typeParametersInScope id := by
  rw [Program.typeParametersInScope, Program.typeParametersInScope,
    Program.nesting_eq_of_declaration_eq (· < base.size) hbase.outerFirst h.indexed.outerFirst
      (fun id outer hlt hc => Nat.lt_trans (hbase.outerFirst id outer hc) hlt)
      (fun _ hlt => h.kept hlt) hid]

omit hbase in
theorem Declared.container_eq {t : TypeEntry} {id : TypeId} (hx : (t, id) ∈ places base entries) :
    (p.declaration id).container = t.container.bind p.resolve? := by
  rw [(h.placed _ hx).2]
  rfl

omit hbase in
/-- In scope of a declared type is what is in scope of its container, and what its entry lists. -/
theorem Declared.mem_scopeNames_iff {t : TypeEntry} {id : TypeId}
    (hx : (t, id) ∈ places base entries) {name : String} :
    name ∈ p.scopeNames id ↔
      (∃ container outer, t.container = some container ∧ p.resolve? container = some outer ∧
        name ∈ p.scopeNames outer) ∨ name ∈ t.typeParameters.map (·.name) := by
  have hparameters : (p.declaration id).typeParameters.map (·.name) =
      t.typeParameters.map (·.name) := by
    rw [(h.placed _ hx).2, TypeEntry.headerIn, TypeEntry.header, List.map_map]
    rfl
  rw [Program.scopeNames, Program.typeParametersInScope_eq h.indexed.outerFirst, List.map_append,
    List.mem_append, hparameters, h.container_eq hx]
  refine or_congr_left ?_
  cases hc : t.container with
  | none => simp
  | some container => cases hres : p.resolve? container <;> simp [hres, Program.scopeNames]

/-- A type parameter is in scope of a declared type when it is in scope of its entry. -/
theorem Declared.inScope_iff {t : TypeEntry} {id : TypeId} (hx : (t, id) ∈ places base entries)
    {name : String} : InScope base entries t name ↔ name ∈ p.scopeNames id := by
  -- Induction on the place, since types are nested in earlier ones.
  induction id using Nat.strongRecOn generalizing t with
  | ind id ih =>
    have hbefore {container : String} {outer : TypeId} (hc : t.container = some container)
        (hres : p.resolve? container = some outer) : outer < id := by
      refine h.indexed.outerFirst id outer ?_
      rw [h.container_eq hx, hc, Option.bind_some, hres]
    rw [h.mem_scopeNames_iff hx]
    constructor
    · rintro (⟨among⟩ | ⟨listed, nested, around⟩ | ⟨declared, nested, around⟩)
      · exact .inr (List.mem_map_of_mem among)
      · obtain ⟨outer, hx'⟩ := exists_place base listed
        obtain ⟨hres, -⟩ := h.placed _ hx'
        exact .inl ⟨_, outer, nested, hres, (ih outer (hbefore nested hres) hx').1 around⟩
      · have hres := h.found (hbase.resolve?_metadataName declared)
        refine .inl ⟨_, _, nested, hres, ?_⟩
        rw [Program.scopeNames, h.typeParametersInScope_of_lt hbase declared]
        exact List.mem_map_of_mem around
    · rintro (⟨container, outer, hc, hres, hname⟩ | hname)
      · have hearlier := hbefore hc hres
        obtain ⟨hlt, rfl⟩ := h.indexed.resolve?_iff.1 hres
        by_cases hbelow : outer < base.size
        · rw [Program.scopeNames, h.typeParametersInScope_of_lt hbase hbelow] at hname
          obtain ⟨q, hq, rfl⟩ := List.mem_map.1 hname
          refine .ofProgram hbelow ?_ hq
          rw [hc, h.metadataName_of_lt hbase hbelow]
        · obtain ⟨t', hx'⟩ := h.exists_entry (Nat.le_of_not_lt hbelow) hlt
          refine .ofEntry (fst_mem_of_mem_places hx') ?_ ((ih outer hearlier hx').2 hname)
          rw [hc, (h.indexed.resolve?_iff.1 (h.placed _ hx').1).2]
      · obtain ⟨q, hq, rfl⟩ := List.mem_map.1 hname
        exact .own hq

/-! ## Resolving -/

omit h hbase in
/-- Outside of types no type parameter is in scope. -/
theorem noScope_iff (name : String) : False ↔ name ∈ ([] : List String) :=
  (List.mem_nil_iff name).symm

section Resolving

variable {scope : String → Prop} {names : List String} (hscope : ∀ name, scope name ↔ name ∈ names)
  {context : String}

theorem exists_resolveName_iff {name : String} :
    (∃ id, resolveName p context name = .ok id) ↔ ∃ arity, Names base entries name arity := by
  simp only [h.names_iff hbase, resolveName]
  cases p.resolve? name <;> simp

omit h hbase in
theorem ofKeyword?_eq_some_iff {name : String} {b : BuiltIn} :
    BuiltIn.ofKeyword? name = some b ↔ b.keyword = name := by
  constructor
  · exact fun hb => by simpa using List.find?_some hb
  · rintro rfl
    exact BuiltIn.ofKeyword?_keyword b

include hscope

theorem exists_resolvePlain_iff {name : String} :
    (∃ r, resolvePlain p names context name = .ok r) ↔
      Resolves base entries scope (.name name) := by
  unfold resolvePlain
  by_cases hname : name ∈ names
  · rw [if_pos hname]
    exact ⟨fun _ => .parameter ((hscope name).2 hname), fun _ => ⟨_, rfl⟩⟩
  · rw [if_neg hname]
    have hfree : ¬scope name := fun hs => hname ((hscope name).1 hs)
    cases hb : BuiltIn.ofKeyword? name with
    | some b =>
      have hkeyword := ofKeyword?_eq_some_iff.1 hb
      simp only [exists_ok_map_iff, exists_resolveName_iff h hbase]
      constructor
      · exact fun ⟨_, known⟩ => .keyword hfree hkeyword known
      · rintro (inScope | @⟨_, b', arity, -, reserved, known⟩ | ⟨-, unreserved, -⟩)
        · exact absurd inScope hfree
        · rw [← ofKeyword?_eq_some_iff, hb] at reserved
          cases reserved
          exact ⟨arity, known⟩
        · exact absurd hkeyword (unreserved b)
    | none =>
      have hunreserved : ∀ b : BuiltIn, b.keyword ≠ name := fun b hkeyword => by
        rw [ofKeyword?_eq_some_iff.2 hkeyword] at hb
        cases hb
      simp only [exists_ok_map_iff, exists_resolveName_iff h hbase]
      constructor
      · exact fun ⟨_, known⟩ => .type hfree hunreserved known
      · rintro (inScope | ⟨-, reserved, -⟩ | @⟨_, arity, -, -, known⟩)
        · exact absurd inScope hfree
        · exact absurd reserved (hunreserved _)
        · exact ⟨arity, known⟩

omit h hbase hscope

mutual

/-- A reference is resolved exactly when it can be by the names that there are. -/
theorem exists_resolveReference_iff (h : Declared base entries p) (hbase : base.Indexed)
    (hscope : ∀ name, scope name ↔ name ∈ names) : ∀ reference : Reference,
    (∃ r, resolveReference p names context reference = .ok r) ↔
      Resolves base entries scope reference
  | .name name => by
    rw [resolveReference]
    exact exists_resolvePlain_iff h hbase hscope
  | .generic name arguments => by
    have hamong := exists_resolveReferences_iff h hbase hscope arguments
    rw [resolveReference]
    simp only [bind_eq_ok_iff]
    constructor
    · rintro ⟨r, id, hid, hr⟩
      by_cases hcount : (p.declaration id).arity ≠ arguments.length
      · simp only [if_pos hcount] at hr
        cases hr
      · simp only [if_neg hcount] at hr
        obtain ⟨refs, hrefs, -⟩ := bind_eq_ok_iff.1 hr
        refine .generic ((h.names_iff hbase).2 ⟨id, resolve?_of_resolveName hid, ?_⟩)
          (hamong.1 ⟨refs, hrefs⟩)
        exact not_not.1 hcount
    · intro hresolves
      cases hresolves with
      | generic known among =>
        obtain ⟨id, hres, harity⟩ := (h.names_iff hbase).1 known
        obtain ⟨refs, hrefs⟩ := hamong.2 among
        refine ⟨.named id refs, id, by rw [resolveName, hres], ?_⟩
        simp only [if_neg (not_not.2 harity)]
        exact bind_eq_ok_iff.2 ⟨refs, hrefs, rfl⟩
  | .array element rank => by
    rw [resolveReference, exists_ok_bind_pure_iff,
      exists_resolveReference_iff h hbase hscope element]
    exact ⟨.array, fun | .array inner => inner⟩
  | .nullable inner => by
    rw [resolveReference, exists_ok_bind_pure_iff, exists_resolveReference_iff h hbase hscope inner]
    exact ⟨.nullable, fun | .nullable marked => marked⟩

theorem exists_resolveReferences_iff (h : Declared base entries p) (hbase : base.Indexed)
    (hscope : ∀ name, scope name ↔ name ∈ names) : ∀ references : List Reference,
    (∃ refs, resolveReferences p names context references = .ok refs) ↔
      ∀ r ∈ references, Resolves base entries scope r
  | [] => by
    rw [resolveReferences, exists_ok_pure_iff]
    exact ⟨fun _ => List.forall_mem_nil _, fun _ => trivial⟩
  | reference :: rest => by
    rw [resolveReferences, exists_ok_bind_iff fun _ => exists_ok_bind_pure_iff,
      exists_resolveReference_iff h hbase hscope reference,
      exists_resolveReferences_iff h hbase hscope rest, List.forall_mem_cons]

end

include h hbase hscope

/-! ### Parts of entries -/

theorem exists_resolveAttribute_iff (a : AttributeEntry) :
    (∃ x, resolveAttribute p names context a = .ok x) ↔
      ∀ r ∈ a.references, Resolves base entries scope r := by
  have hargument (q : ArgumentEntry) : (∃ x, resolveArgument p names context q = .ok x) ↔
      ∀ r ∈ q.references, Resolves base entries scope r := by
    cases q with
    | typeOf type =>
      rw [resolveArgument, exists_ok_bind_pure_iff, exists_resolveReference_iff h hbase hscope,
        ArgumentEntry.references, List.forall_mem_singleton]
    | flag | number | text | null =>
      exact ⟨fun _ => List.forall_mem_nil _, fun _ => ⟨_, rfl⟩⟩
  rw [resolveAttribute, exists_ok_bind_pure_iff, exists_ok_mapM_iff, AttributeEntry.references]
  simp only [hargument, List.forall_mem_flatMap]

theorem exists_resolveSignature_iff (s : SignatureEntry) :
    (∃ x, resolveSignature p names context s = .ok x) ↔
      ∀ r ∈ s.references, Resolves base entries scope r := by
  rw [resolveSignature, exists_ok_bind_iff fun _ => exists_ok_bind_pure_iff, exists_ok_mapM_iff,
    exists_resolveReference_iff h hbase hscope, SignatureEntry.references, List.forall_mem_cons,
    List.forall_mem_map]
  simp only [resolveParameter, exists_ok_bind_pure_iff, exists_resolveReference_iff h hbase hscope]

theorem exists_resolveEvent_iff (e : EventEntry) :
    (∃ x, resolveEvent p names context e = .ok x) ↔
      ∀ r ∈ e.references, Resolves base entries scope r := by
  rw [resolveEvent, exists_ok_bind_iff fun _ => exists_ok_bind_pure_iff, exists_ok_mapM_iff,
    exists_resolveReference_iff h hbase hscope, EventEntry.references, List.forall_mem_cons,
    List.forall_mem_flatMap]
  simp only [exists_resolveAttribute_iff h hbase hscope]

end Resolving

/-- The details of a type are resolved exactly when all its references can be. -/
theorem exists_resolveDetails_iff {t : TypeEntry} {id : TypeId}
    (hx : (t, id) ∈ places base entries) : (∃ details, resolveDetails p id t = .ok details) ↔
      ∀ r ∈ t.references, Resolves base entries (InScope base entries t) r := by
  unfold resolveDetails
  extract_lets scope
  have hscope : ∀ name, InScope base entries t name ↔ name ∈ scope :=
    fun _ => h.inScope_iff hbase hx
  have hparameter (q : TypeParameterEntry) : (∃ x, resolveTypeParameter p scope t.name q = .ok x) ↔
      ∀ r ∈ q.bounds, Resolves base entries (InScope base entries t) r := by
    rw [resolveTypeParameter, exists_ok_bind_pure_iff, exists_resolveReferences_iff h hbase hscope]
  rw [exists_ok_bind_iff fun _ => exists_ok_bind_iff fun _ => exists_ok_bind_iff fun _ =>
    exists_ok_bind_iff fun _ => exists_ok_bind_pure_iff]
  simp only [exists_ok_mapM_iff, exists_ok_optionMapM_iff, hparameter,
    exists_resolveReference_iff h hbase hscope, exists_resolveEvent_iff h hbase hscope,
    exists_resolveAttribute_iff h hbase hscope, exists_resolveSignature_iff h hbase hscope,
    TypeEntry.references, List.forall_mem_append, List.forall_mem_flatMap, Option.mem_toList,
    Option.mem_def, and_assoc]

/-- An invocation is resolved exactly when the type it is on has a name and its type arguments can
be resolved in no scope. -/
theorem exists_resolveInvocation_iff (i : InvocationEntry) :
    (∃ x, resolveInvocation p i = .ok x) ↔
      (∀ name, i.container = some name → ∃ arity, Names base entries name arity) ∧
      ∀ r ∈ i.typeArguments, Resolves base entries (fun _ => False) r := by
  rw [resolveInvocation, exists_ok_bind_iff fun _ => exists_ok_bind_pure_iff]
  simp only [exists_ok_mapM_iff, exists_ok_optionMapM_iff, exists_resolveName_iff h hbase,
    exists_resolveReference_iff h hbase noScope_iff, Option.mem_def]

end Declared

/-! ## Order of declaration -/

section Order

variable {base : Program} {d : Document} (hbase : base.Indexed)

include hbase

/-- A type is declared after the type of the document that it is nested in. -/
theorem container_earlier_of_mapM {before : List TypeEntry} {t : TypeEntry} {after : List TypeEntry}
    {ids : List TypeId} {p : Program}
    (hrun : (before ++ t :: after).mapM Loading.declareType base = .ok ids p) {outer : String}
    (hc : t.container = some outer) :
    (∃ id, base.resolve? outer = some id) ∨ ∃ t' ∈ before, t'.metadataName = outer := by
  induction before generalizing base ids p with
  | nil =>
    rw [List.nil_append, List.mapM_cons] at hrun
    obtain ⟨_, _, hdeclare, -⟩ := Loading.bind_eq_ok_iff.1 hrun
    obtain ⟨ht, -, -⟩ := (Loading.declareType_eq_ok_iff hbase).1 hdeclare
    exact .inl (ht.container outer hc)
  | cons first before ih =>
    rw [List.cons_append, List.mapM_cons] at hrun
    obtain ⟨_, _, hdeclare, hrun⟩ := Loading.bind_eq_ok_iff.1 hrun
    obtain ⟨_, _, hrest, -⟩ := Loading.bind_eq_ok_iff.1 hrun
    obtain ⟨hfirst, -, rfl⟩ := (Loading.declareType_eq_ok_iff hbase).1 hdeclare
    rcases ih (indexed_push_headerIn hbase hfirst) hrest with ⟨id, hres⟩ | ⟨t', ht', hname⟩
    · rw [resolve?_push_headerIn hbase hfirst] at hres
      split at hres
      · next heq => exact .inr ⟨first, List.mem_cons_self, heq.symm⟩
      · exact .inl ⟨id, hres⟩
    · exact .inr ⟨t', List.mem_cons_of_mem _ ht', hname⟩

/-- The names of a program are those of its types. -/
theorem exists_resolve?_iff {name : String} :
    (∃ id, base.resolve? name = some id) ↔ ∃ id < base.size, base.metadataName id = name :=
  exists_congr fun _ => hbase.resolve?_iff

theorem Valid.declarable (h : d.Valid base) : Declarable base d.types where
  worded t ht := {
    name := by simpa using h.named t ht
    signature := fun ⟨hkind, hinvoke⟩ => h.signed t ht hkind (Option.isNone_iff_eq_none.1 hinvoke) }
  contained t ht outer hc := by
    obtain ⟨before, after, hsplit⟩ := List.append_of_mem ht
    rw [exists_resolve?_iff hbase]
    refine (h.contained before t after hsplit outer hc).imp_right ?_
    rintro ⟨t', ht', hname⟩
    exact ⟨t', hsplit ▸ List.mem_append_left _ ht', hname⟩
  fresh t ht := by
    refine Option.eq_none_iff_forall_ne_some.2 fun id hres => ?_
    obtain ⟨hid, hname⟩ := hbase.resolve?_iff.1 hres
    exact h.fresh t ht id hid hname
  distinct := h.distinct

omit hbase in
/-- No type is nested in a later one, since the names of later ones are new. -/
theorem Valid.pairwise (h : d.Valid base) :
    d.types.Pairwise fun t t' => t.container ≠ some t'.metadataName := by
  rw [List.pairwise_iff_getElem]
  intro i j hi hj hij hc
  have hsplit : d.types = d.types.take i ++ d.types[i] :: d.types.drop (i + 1) := by
    rw [← List.drop_eq_getElem_cons hi, List.take_append_drop]
  rcases h.contained _ _ _ hsplit _ hc with ⟨id, hid, hname⟩ | ⟨t, ht, hname⟩
  · exact h.fresh _ (List.getElem_mem hj) id hid hname
  · obtain ⟨k, hk, rfl⟩ := List.mem_take_iff_getElem.1 ht
    have hk' : k < (d.types.map (·.metadataName)).length := by
      rw [List.length_map]
      omega
    have hj' : j < (d.types.map (·.metadataName)).length := by rwa [List.length_map]
    have heq : (d.types.map (·.metadataName))[k] = (d.types.map (·.metadataName))[j] := by
      rwa [List.getElem_map, List.getElem_map]
    have hkj : k = j := h.distinct.getElem_inj_iff.1 heq
    omega

end Order

/-! ## Loading -/

/-- A program has received a document: one type for each entry, in their order, described as the
entry tells, and one attribute or invocation for each entry of these. Everything is resolved as the
program itself does. -/
structure Received (base : Program) (d : Document) (p : Program) : Prop where
  size : p.size = base.size + d.types.length
  kept : ∀ id < base.size, p.declaration id = base.declaration id
  placed : ∀ x ∈ places base d.types, p.metadataName x.2 = x.1.metadataName ∧
    ∃ details, resolveDetails p x.2 x.1 = .ok details ∧
      p.declaration x.2 = details.addTo (x.1.headerIn p)
  assemblyAttributes :
    ∃ attributes, d.assemblyAttributes.mapM (resolveAttribute p [] "assembly") = .ok attributes ∧
      p.assemblyAttributes = base.assemblyAttributes ++ attributes
  invocations : ∃ invocations, d.invocations.mapM (resolveInvocation p) = .ok invocations ∧
    p.invocations = base.invocations ++ invocations

theorem Loaded.received {base headers p : Program} {d : Document} (h : Loaded base d headers p) :
    Received base d p := by
  have hsame := h.completed.toSameOutlines
  have houter := h.declared.indexed.outerFirst
  refine ⟨?_, ?_, ?_, ?_, ?_⟩
  · rw [hsame.size, h.declared.size]
  · intro id hid
    rw [h.completed.others id, h.declared.kept hid]
    exact fun hmem => Nat.not_lt_of_le (h.declared.mem_snd_places_iff.1 hmem).1 hid
  · intro x hx
    obtain ⟨hres, hdeclaration⟩ := h.declared.placed x hx
    obtain ⟨details, hdetails, hdetailed⟩ := h.completed.detailed x hx
    have hheader : x.1.headerIn headers = x.1.headerIn p := by
      rw [TypeEntry.headerIn, TypeEntry.headerIn, funext hsame.resolve?]
    refine ⟨?_, details, resolveDetails_of_sameOutlines houter hsame hdetails, ?_⟩
    · rw [hsame.metadataName houter, (h.declared.indexed.resolve?_iff.1 hres).2]
    · rw [hdetailed, hdeclaration, hheader]
  · obtain ⟨attributes, hresolved, happend⟩ := h.assemblyAttributes
    refine ⟨attributes, ?_, happend⟩
    rw [mapM_eq_ok_iff] at hresolved ⊢
    exact hresolved.imp fun _ _ => (resolveAttribute_eq_ok_iff_of_sameOutlines hsame).2
  · obtain ⟨invocations, hresolved, happend⟩ := h.invocations
    refine ⟨invocations, ?_, happend⟩
    rw [mapM_eq_ok_iff] at hresolved ⊢
    exact hresolved.imp fun _ _ => (resolveInvocation_eq_ok_iff_of_sameOutlines hsame).2

/-- A loaded document was valid: its entries were declared in order, and everything was resolved
against all of them. -/
theorem Loaded.valid {base headers p : Program} {d : Document} (h : Loaded base d headers p)
    (hbase : base.Indexed) (hload : Loading.loadDocument d base = .ok () p) : d.Valid base where
  named t ht := by simpa using (h.declarable.worded t ht).name
  signed t ht hkind hinvoke :=
    (h.declarable.worded t ht).signature ⟨hkind, Option.isNone_iff_eq_none.2 hinvoke⟩
  contained before t after hsplit outer hc := by
    obtain ⟨ids, _, _, _, hrun, -⟩ := Loading.loadDocument_eq_ok_iff.1 hload
    rw [← exists_resolve?_iff hbase]
    exact container_earlier_of_mapM hbase (hsplit ▸ hrun) hc
  distinct := h.declarable.distinct
  fresh t ht id hid hname := by
    have hres := hbase.resolve?_metadataName hid
    rw [hname, h.declarable.fresh t ht] at hres
    cases hres
  types t ht := by
    obtain ⟨id, hx⟩ := exists_place base ht
    obtain ⟨details, hdetails, -⟩ := h.completed.detailed _ hx
    exact (exists_resolveDetails_iff h.declared hbase hx).1 ⟨details, hdetails⟩
  assemblyAttributes a ha := by
    obtain ⟨attributes, hresolved, -⟩ := h.assemblyAttributes
    exact (exists_resolveAttribute_iff h.declared hbase noScope_iff a).1
      (exists_ok_mapM_iff.1 ⟨attributes, hresolved⟩ a ha)
  invocations i hi := by
    obtain ⟨invocations, hresolved, -⟩ := h.invocations
    exact (exists_resolveInvocation_iff h.declared hbase i).1
      (exists_ok_mapM_iff.1 ⟨invocations, hresolved⟩ i hi)

theorem Valid.exists_loadDocument {base : Program} {d : Document} (h : d.Valid base)
    (hbase : base.Indexed) : ∃ p, Loading.loadDocument d base = .ok () p := by
  obtain ⟨ids, headers, hrun⟩ :=
    Loading.exists_mapM_declareType hbase (h.declarable hbase) h.pairwise
  obtain ⟨hdeclared, -, -⟩ := Loading.declared_of_mapM hbase hrun
  apply Loading.exists_loadDocument hbase hrun
  case hdetails =>
    intro x hx
    exact (exists_resolveDetails_iff hdeclared hbase hx).2 (h.types x.1 (fst_mem_of_mem_places hx))
  case hattributes =>
    refine exists_ok_mapM_iff.2 fun a ha => ?_
    exact (exists_resolveAttribute_iff hdeclared hbase noScope_iff a).2
      (h.assemblyAttributes a ha)
  case hinvocations =>
    refine exists_ok_mapM_iff.2 fun i hi => ?_
    exact (exists_resolveInvocation_iff hdeclared hbase i).2 (h.invocations i hi)

end Document

namespace Program

/-- Whatever has been done to a program, exactly the valid documents can be loaded into it, and it
then has received one type for each entry. -/
theorem Reached.loadDocument_iff_valid {base : Program} (hbase : base.Reached) (d : Document) :
    ((∃ p, Loading.loadDocument d base = .ok () p) ↔ d.Valid base) ∧
      ∀ p, Loading.loadDocument d base = .ok () p → d.Received base p := by
  have hindexed := hbase.indexed
  refine ⟨⟨?_, fun h => h.exists_loadDocument hindexed⟩, ?_⟩
  · rintro ⟨p, hload⟩
    obtain ⟨headers, hloaded⟩ := Loading.loaded_of_loadDocument hindexed hload
    exact hloaded.valid hindexed hload
  · intro p hload
    obtain ⟨headers, hloaded⟩ := Loading.loaded_of_loadDocument hindexed hload
    exact hloaded.received

/-- A type that is listed before the one that it is nested in. -/
def hastyDocument : Document where
  types := [{ name := "Inner", container := some "Later" }, { name := "Later" }]

theorem withNested_received : withOuter.Reached ∧ nestedDocument.Valid withOuter ∧
    nestedDocument.Received withOuter withNested ∧ ¬hastyDocument.Valid withOuter := by
  have hrun : (Loading.loadDocument nestedDocument).run' withOuter = some () := by decide
  have hload : Loading.loadDocument nestedDocument withOuter = .ok () withNested :=
    Loading.eq_ok_leaves hrun
  have hfail : (Loading.loadDocument hastyDocument).run' withOuter = none := by decide
  obtain ⟨hvalid, hreceived⟩ := reached_withOuter.loadDocument_iff_valid nestedDocument
  refine ⟨reached_withOuter, hvalid.1 ⟨_, hload⟩, hreceived _ hload, fun hhasty => ?_⟩
  obtain ⟨p, hloaded⟩ := (reached_withOuter.loadDocument_iff_valid hastyDocument).1.2 hhasty
  rw [Loading.run'_of_ok hloaded] at hfail
  cases hfail

end Program

end EventWrap
