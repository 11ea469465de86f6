import EventWrap.Proofs.Events.Hiding
import EventWrap.Proofs.Text.Lines
import EventWrap.Wrapper.Naming

/-!
# Names on one line

Programs in which no name contains a line feed. Every type, namespace and event of such a program
is written on one line, and so is what is seen of an event through a base chain: substitution
brings in no names but those of the arguments.
-/

namespace EventWrap

open Text Code

/-! ## Names -/

def TypeParameter.names (q : TypeParameter) : List String :=
  q.name :: q.bounds.flatMap (·.parameters)

def Signature.names (s : Signature) : List String :=
  s.result.parameters ++ s.parameters.flatMap fun q => q.name :: q.type.parameters

def EventDeclaration.names (e : EventDeclaration) : List String := e.name :: e.delegate.parameters

/-- The names that a declaration gives or mentions. -/
def Declaration.names (d : Declaration) : List String :=
  d.namespaceName :: d.name :: (d.typeParameters.flatMap (·.names) ++
    d.base.toList.flatMap (·.parameters) ++ d.events.flatMap (·.names) ++
    d.invoke.toList.flatMap (·.names))

/-- No name of a program contains a line feed. -/
def Program.HasOneLineNames (p : Program) : Prop :=
  ∀ d ∈ p.types.toList, ∀ name ∈ d.names, IsOneLine name

instance (p : Program) : Decidable p.HasOneLineNames :=
  inferInstanceAs (Decidable (∀ d ∈ _, ∀ name ∈ _, _))

/-! ## References -/

namespace TypeRef

/-- A reference mentions only type parameters with names on one line. -/
def IsOneLine (r : TypeRef) : Prop := ∀ name ∈ r.parameters, Text.IsOneLine name

theorem isOneLine_named {type : TypeId} {arguments : List TypeRef} :
    (named type arguments).IsOneLine ↔ ∀ r ∈ arguments, r.IsOneLine := by
  simp only [IsOneLine, parameters, parametersOfAll_eq_flatMap, List.mem_flatMap]
  exact ⟨fun h r hr name hname => h name ⟨r, hr, hname⟩,
    fun h name ⟨r, hr, hname⟩ => h r hr name hname⟩

theorem IsOneLine.stripNullable {r : TypeRef} (h : r.IsOneLine) : r.stripNullable.IsOneLine := by
  cases r with
  | nullable inner => exact h
  | named | parameter | array => exact h

theorem mem_of_argumentFor? {params : List String} {arguments : List TypeRef} {name : String}
    {a : TypeRef} (h : argumentFor? params arguments name = some a) : a ∈ arguments := by
  induction params generalizing arguments with
  | nil => cases h
  | cons q rest ih =>
    cases arguments with
    | nil => cases h
    | cons b others =>
      rw [argumentFor?, List.zip_cons_cons, List.lookup_cons] at h
      split at h
      · cases h
        exact List.mem_cons_self
      · exact List.mem_cons_of_mem _ (ih h)

mutual

theorem IsOneLine.substitute {params : List String} {arguments : List TypeRef}
    (harguments : ∀ a ∈ arguments, a.IsOneLine) :
    ∀ {r : TypeRef}, r.IsOneLine → (r.substitute params arguments).IsOneLine
  | .named type refs, h => by
    rw [TypeRef.substitute, isOneLine_named]
    exact isOneLine_substituteAll harguments (isOneLine_named.1 h)
  | .parameter name, h => by
    rw [TypeRef.substitute]
    cases hfound : argumentFor? params arguments name with
    | none => exact h
    | some a => exact harguments a (mem_of_argumentFor? hfound)
  | .array element rank, h => IsOneLine.substitute harguments (r := element) h
  | .nullable inner, h => IsOneLine.substitute harguments (r := inner) h

theorem isOneLine_substituteAll {params : List String} {arguments : List TypeRef}
    (harguments : ∀ a ∈ arguments, a.IsOneLine) : ∀ {refs : List TypeRef},
    (∀ r ∈ refs, r.IsOneLine) → ∀ r ∈ substituteAll params arguments refs, r.IsOneLine
  | [], _ => List.forall_mem_nil _
  | _ :: _, h => by
    obtain ⟨hfirst, hrest⟩ := List.forall_mem_cons.1 h
    exact List.forall_mem_cons.2
      ⟨IsOneLine.substitute harguments hfirst, isOneLine_substituteAll harguments hrest⟩

end

end TypeRef

/-- A signature with all its names on one line. -/
def Signature.IsOneLine (s : Signature) : Prop := ∀ name ∈ s.names, Text.IsOneLine name

theorem Signature.isOneLine_iff {s : Signature} : s.IsOneLine ↔ s.result.IsOneLine ∧
    ∀ q ∈ s.parameters, Text.IsOneLine q.name ∧ q.type.IsOneLine := by
  rw [IsOneLine, names, List.forall_mem_append, List.forall_mem_flatMap]
  simp only [List.forall_mem_cons]
  rfl

theorem Signature.IsOneLine.substitute {params : List String} {arguments : List TypeRef}
    {s : Signature} (h : s.IsOneLine) (harguments : ∀ a ∈ arguments, a.IsOneLine) :
    (s.substitute params arguments).IsOneLine := by
  obtain ⟨hresult, hparameters⟩ := isOneLine_iff.1 h
  refine isOneLine_iff.2 ⟨hresult.substitute harguments, List.forall_mem_map.2 fun q hq => ?_⟩
  exact ⟨(hparameters q hq).1, (hparameters q hq).2.substitute harguments⟩

/-! ## Texts -/

theorem isOneLine_qualify {namespaceName name : String} (hspace : IsOneLine namespaceName)
    (hname : IsOneLine name) : IsOneLine (qualify namespaceName name) := by
  rw [qualify]
  split
  · exact hname
  · exact isOneLine_append.2 ⟨isOneLine_append.2 ⟨hspace, by decide⟩, hname⟩

theorem isOneLine_escape {name : String} (h : IsOneLine name) : IsOneLine (escape name) := by
  rw [escape]
  split
  · exact isOneLine_append.2 ⟨by decide, h⟩
  · exact h

namespace Program

theorem isOneLine_argumentsText {texts : List String} (h : ∀ text ∈ texts, IsOneLine text) :
    IsOneLine (argumentsText texts) := by
  rw [argumentsText]
  split
  · decide
  · exact isOneLine_append.2
      ⟨isOneLine_append.2 ⟨by decide, isOneLine_intercalate (by decide) h⟩, by decide⟩

theorem isOneLine_rankText (rank : UInt32) : IsOneLine (rankText rank) := by
  rw [rankText, isOneLine_append, isOneLine_append]
  refine ⟨⟨by decide, ?_⟩, by decide⟩
  rw [IsOneLine, String.toList_ofList, List.mem_replicate]
  exact fun h => absurd h.2 (by decide)

namespace HasOneLineNames

variable {p : Program} (h : p.HasOneLineNames)

include h

theorem declaration (id : TypeId) : ∀ name ∈ (p.declaration id).names, IsOneLine name :=
  forall_declaration h (by decide) id

theorem name (id : TypeId) : IsOneLine (p.declaration id).name :=
  h.declaration id _ (by simp [Declaration.names])

theorem namespaceName (id : TypeId) : IsOneLine (p.declaration id).namespaceName :=
  h.declaration id _ (by simp [Declaration.names])

theorem typeParameters (id : TypeId) : ∀ q ∈ (p.declaration id).typeParameters,
    IsOneLine q.name ∧ ∀ r ∈ q.bounds, r.IsOneLine := by
  intro q hq
  have hnames : ∀ name ∈ q.names, IsOneLine name := fun name hname => h.declaration id name (by
    simp only [Declaration.names, List.mem_cons, List.mem_append, List.mem_flatMap]
    exact .inr (.inr (.inl (.inl (.inl ⟨q, hq, hname⟩)))))
  rw [TypeParameter.names, List.forall_mem_cons, List.forall_mem_flatMap] at hnames
  exact hnames

theorem base (id : TypeId) : ∀ r ∈ (p.declaration id).base, r.IsOneLine := by
  intro r hr name hname
  refine h.declaration id name ?_
  simp only [Declaration.names, List.mem_cons, List.mem_append, List.mem_flatMap]
  exact .inr (.inr (.inl (.inl (.inr ⟨r, Option.mem_toList.2 hr, hname⟩))))

theorem events (id : TypeId) : ∀ e ∈ (p.declaration id).events,
    IsOneLine e.name ∧ e.delegate.IsOneLine := by
  intro e he
  have hnames : ∀ name ∈ e.names, IsOneLine name := fun name hname => h.declaration id name (by
    simp only [Declaration.names, List.mem_cons, List.mem_append, List.mem_flatMap]
    exact .inr (.inr (.inl (.inr ⟨e, he, hname⟩))))
  exact List.forall_mem_cons.1 hnames

theorem invoke (id : TypeId) : ∀ s ∈ (p.declaration id).invoke, s.IsOneLine := by
  intro s hs name hname
  refine h.declaration id name ?_
  simp only [Declaration.names, List.mem_cons, List.mem_append, List.mem_flatMap]
  exact .inr (.inr (.inr ⟨s, Option.mem_toList.2 hs, hname⟩))

theorem ownArguments (id : TypeId) : ∀ r ∈ (p.declaration id).ownArguments, r.IsOneLine := by
  rw [Declaration.ownArguments, Declaration.parameterNames, List.map_map]
  refine List.forall_mem_map.2 fun q hq => List.forall_mem_singleton.2 ?_
  exact (h.typeParameters id q hq).1

/-! ### Types as written -/

theorem nestingNamespace (id : TypeId) : IsOneLine (p.nesting id).namespaceName :=
  forall_namespaceName IsOneLine h.namespaceName (by decide) id

theorem openText (id : TypeId) : IsOneLine (Program.openText (p.declaration id)) := by
  refine isOneLine_append.2 ⟨h.name id, isOneLine_argumentsText ?_⟩
  rw [Declaration.parameterNames, List.map_map]
  exact List.forall_mem_map.2 fun q hq => isOneLine_escape (h.typeParameters id q hq).1

theorem namedText (id : TypeId) {texts : List String} (htexts : ∀ text ∈ texts, IsOneLine text) :
    IsOneLine (p.namedText id texts) := by
  rw [Program.namedText, isOneLine_append]
  refine ⟨by decide, isOneLine_qualify (h.nestingNamespace id) ?_⟩
  refine isOneLine_intercalate (by decide) ?_
  rw [List.forall_mem_append, List.forall_mem_singleton]
  refine ⟨List.forall_mem_map.2 fun d hd => ?_, ?_⟩
  · obtain ⟨outer, rfl⟩ := exists_of_mem_nesting (List.dropLast_subset _ hd)
    exact h.openText outer
  · exact isOneLine_append.2 ⟨h.name id, isOneLine_argumentsText htexts⟩

omit h in
mutual

theorem typeText (h : p.HasOneLineNames) : ∀ {r : TypeRef}, r.IsOneLine → IsOneLine (p.typeText r)
  | .named id arguments, hr => by
    rw [Program.typeText]
    split
    · next b _ => cases b <;> decide
    · exact h.namedText id (typeTexts h (TypeRef.isOneLine_named.1 hr))
  | .parameter name, hr => isOneLine_escape (hr name List.mem_cons_self)
  | .array element rank, hr =>
    isOneLine_append.2 ⟨typeText h (r := element) hr, isOneLine_rankText rank⟩
  | .nullable inner, hr => isOneLine_append.2 ⟨typeText h (r := inner) hr, by decide⟩

theorem typeTexts (h : p.HasOneLineNames) : ∀ {refs : List TypeRef}, (∀ r ∈ refs, r.IsOneLine) →
    ∀ text ∈ p.typeTexts refs, IsOneLine text
  | [], _ => List.forall_mem_nil _
  | _ :: _, hrefs => by
    obtain ⟨hfirst, hrest⟩ := List.forall_mem_cons.1 hrefs
    exact List.forall_mem_cons.2 ⟨typeText h hfirst, typeTexts h hrest⟩

end

theorem definitionText (id : TypeId) : IsOneLine (p.definitionText id) :=
  h.typeText (TypeRef.isOneLine_named.2 (h.ownArguments id))

theorem wrapperName (id : TypeId) : IsOneLine (p.wrapperName id) := by
  simp only [Program.wrapperName, isOneLine_append]
  refine ⟨⟨⟨by decide, ?_⟩, h.name id⟩, by decide⟩
  refine isOneLine_join.2 (List.forall_mem_map.2 fun d hd => ?_)
  obtain ⟨outer, rfl⟩ := exists_of_mem_nesting (List.dropLast_subset _ hd)
  rw [wrapperNameLevel]
  split
  · exact isOneLine_append.2
      ⟨isOneLine_append.2 ⟨h.name outer, by decide⟩, isOneLine_toString _⟩
  · exact h.name outer

theorem typeParametersInScope (id : TypeId) : ∀ q ∈ p.typeParametersInScope id,
    IsOneLine q.name ∧ ∀ r ∈ q.bounds, r.IsOneLine := by
  intro q hq
  obtain ⟨d, hd, hq⟩ := List.mem_flatMap.1 hq
  obtain ⟨outer, rfl⟩ := exists_of_mem_nesting hd
  exact h.typeParameters outer q hq

theorem wrapperText (id : TypeId) {arguments : List TypeRef}
    (harguments : ∀ r ∈ arguments, r.IsOneLine) : IsOneLine (p.wrapperText id arguments) := by
  simp only [Program.wrapperText, isOneLine_append]
  refine ⟨⟨by decide, isOneLine_qualify (h.nestingNamespace id) (h.wrapperName id)⟩,
    isOneLine_argumentsText (h.typeTexts (List.forall_mem_append.2 ⟨?_, harguments⟩))⟩
  refine List.forall_mem_map.2 fun q hq => List.forall_mem_singleton.2 ?_
  obtain ⟨d, hd, hq⟩ := List.mem_flatMap.1 hq
  obtain ⟨outer, rfl⟩ := exists_of_mem_nesting (List.dropLast_subset _ hd)
  exact (h.typeParameters outer q hq).1

/-! ### Events as seen -/

theorem baseSeenFrom {current base : Constructed} (hcurrent : ∀ r ∈ current.2, r.IsOneLine)
    (hseen : p.baseSeenFrom current = some base) : ∀ r ∈ base.2, r.IsOneLine := by
  simp only [Program.baseSeenFrom] at hseen
  split at hseen
  · next type arguments hbase =>
    cases hseen
    have harguments := TypeRef.isOneLine_named.1 (h.base current.1 _ hbase)
    exact TypeRef.isOneLine_substituteAll hcurrent harguments
  · cases hseen

theorem baseChainFrom {steps : Nat} {met : List TypeId} {current : Constructed}
    (hcurrent : ∀ r ∈ current.2, r.IsOneLine) :
    ∀ c ∈ p.baseChainFrom steps met current, ∀ r ∈ c.2, r.IsOneLine := by
  induction steps generalizing met current with
  | zero => exact List.forall_mem_nil _
  | succ steps ih =>
    rw [Program.baseChainFrom]
    split
    · next base hseen =>
      have hbase := h.baseSeenFrom hcurrent hseen
      split
      · exact List.forall_mem_nil _
      · exact List.forall_mem_cons.2 ⟨hbase, ih hbase⟩
    · exact List.forall_mem_nil _

theorem ancestorsWithEvents (id : TypeId) (isStatic : Bool) :
    ∀ c ∈ p.ancestorsWithEvents id isStatic, ∀ r ∈ c.2, r.IsOneLine := fun c hc =>
  h.baseChainFrom (h.ownArguments id) c (List.mem_of_mem_filter hc)

theorem collectedTypes (id : TypeId) (inherited isStatic : Bool) :
    ∀ c ∈ p.collectedTypes id inherited isStatic, ∀ r ∈ c.2, r.IsOneLine := by
  refine List.forall_mem_cons.2 ⟨h.ownArguments id, ?_⟩
  split
  · exact h.ancestorsWithEvents id isStatic
  · exact List.forall_mem_nil _

theorem signature {delegate : TypeRef} {s : Signature} (hdelegate : delegate.IsOneLine)
    (hs : p.signature? delegate = some s) : s.IsOneLine := by
  have hstripped := hdelegate.stripNullable
  rw [signature?] at hs
  split at hs
  · next type arguments hd =>
    rw [hd] at hstripped
    obtain ⟨invoke, hinvoke, rfl⟩ := Option.map_eq_some_iff.1 hs
    exact (h.invoke type invoke hinvoke).substitute (TypeRef.isOneLine_named.1 hstripped)
  · cases hs

/-- What is collected of an event is on one line, and its handlers complete in a known way. -/
theorem collected {id : TypeId} {inherited isStatic : Bool} {e : EventDescriptor}
    (he : e ∈ (p.collect id inherited isStatic).events) :
    IsOneLine e.name ∧ e.signature.IsOneLine ∧ p.Completes e.signature.result e.returnKind := by
  obtain ⟨type, declared, hfirst, hdescribes⟩ := mem_collect_iff.1 he
  obtain ⟨before, after, hsplit, -⟩ := hfirst.among
  obtain ⟨earlier, later, hevents, -⟩ := hfirst.within
  have htype := h.collectedTypes id inherited isStatic type (hsplit ▸ by simp)
  obtain ⟨hname, hdelegate⟩ := h.events type.1 declared (hevents ▸ by simp)
  exact ⟨hdescribes.name ▸ hname,
    h.signature (hdelegate.substitute htype) hdescribes.eligible.invoked,
    hdescribes.eligible.completes⟩

end HasOneLineNames

end Program

end EventWrap
