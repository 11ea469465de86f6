import EventWrap.Proofs.Events.Ancestry
import EventWrap.Proofs.Events.Hiding
import EventWrap.Proofs.Program.Applied

/-!
# Inheritance of events

The ancestors with events of a type are the types of its base chain that offer an event, in every
program. Where there are no cycles, what the walk from a type finds beyond an ancestor is what the
walk from that ancestor finds, with the ancestor's arguments put in place of its parameters. In the
same way an event that is inherited from an ancestor is the ancestor's own event, instantiated: its
delegate and its signature are those that the ancestor collects, seen through its arguments.
-/

namespace EventWrap

/-- A descriptor with arguments in place of type parameters, in its delegate and its signature. -/
def EventDescriptor.substitute (names : List String) (arguments : List TypeRef)
    (d : EventDescriptor) : EventDescriptor :=
  { d with
    delegate := d.delegate.substitute names arguments
    signature := d.signature.substitute names arguments }

namespace Program

variable {p : Program} {t a : TypeId} {isStatic : Bool}

/-! ## Ancestors that offer an event -/

theorem lt_size_of_mem_events {e : EventDeclaration} (he : e ∈ (p.declaration a).events) :
    a < p.size := by
  apply lt_size_of_declaration_ne
  intro hempty
  rw [hempty] at he
  cases he

theorem lt_size_of_hasEligibleEvents (h : p.hasEligibleEvents a isStatic = true) : a < p.size := by
  obtain ⟨e, he, -⟩ := List.any_eq_true.1 h
  exact lt_size_of_mem_events (Occurrence.mem_of_mem_firsts he)

theorem length_ancestorIds_lt (ht : t < p.size) (isStatic : Bool) :
    (p.ancestorIds t isStatic).length < p.size := by
  apply length_le_size (p.nodup_ancestorIds t isStatic)
  intro a ha
  rcases List.mem_cons.1 ha with rfl | ha
  · exact ht
  · exact lt_size_of_hasEligibleEvents (hasEligibleEvents_of_mem_ancestorIds ha)

/-- In every program, one with cycles of base types too, the walk from a type ends, and the
ancestors with events are the types that it passes and that offer an event: those of the one base
chain that the type has, in its order. None of them occurs twice or is the type itself, and there
are fewer of them than types. -/
theorem ancestorsWithEvents_exact (ht : t < p.size) (isStatic : Bool) :
    (∃ walked, p.Walks [t] (t, (p.declaration t).ownArguments) walked ∧
      p.ancestorsWithEvents t isStatic = walked.filter fun c => p.hasEligibleEvents c.1 isStatic) ∧
    (∃! chain, p.IsBaseChain t chain) ∧
    (∀ chain, p.IsBaseChain t chain → (p.ancestorIds t isStatic).Sublist chain ∧
      ∀ a, a ∈ p.ancestorIds t isStatic ↔ a ∈ chain ∧ ∃ e, p.Offers isStatic a e) ∧
    (p.ancestorIds t isStatic).Nodup ∧ t ∉ p.ancestorIds t isStatic ∧
    (p.ancestorsWithEvents t isStatic).length < p.size := by
  obtain ⟨hself, hnodup⟩ := List.nodup_cons.1 (p.nodup_ancestorIds t isStatic)
  refine ⟨⟨p.baseChain t, p.walks_baseChain t, rfl⟩,
    ⟨_, p.isBaseChain_baseChain t, fun _ => isBaseChain_iff.1⟩, ?_, hnodup, hself, ?_⟩
  · intro chain hchain
    rw [ancestorIds_eq_filter, ← isBaseChain_iff.1 hchain]
    refine ⟨List.filter_sublist, fun a => ?_⟩
    rw [List.mem_filter, hasEligibleEvents_iff_offers]
  · have hlength := length_ancestorIds_lt ht isStatic
    rwa [ancestorIds, List.length_map] at hlength

/-- Two types that are written over each other, the second without an event of its own, and one that
is written over the first. -/
def looping : Program :=
  let declarations : List Declaration := [
    { kind := .structType, namespaceName := "System", name := "Void", builtIn := some .void },
    { kind := .delegateType, name := "Notice",
      invoke := some { result := .named 0 [], parameters := [] } },
    { name := "Entry", base := some (.named 3 []) },
    { name := "Left", base := some (.named 4 []),
      events := [{ name := "Shown", delegate := .named 1 [] }] },
    { name := "Right", base := some (.named 3 []) }]
  declarations.foldl push {}

theorem looping_ancestors_exact :
    ¬ looping.Acyclic ∧ 2 < looping.size ∧ looping.IsBaseChain 2 [3, 4] ∧
      (∀ a, a ∈ looping.ancestorIds 2 false ↔ a ∈ [3, 4] ∧ ∃ e, looping.Offers false a e) ∧
      looping.ancestorIds 2 false = [3] ∧
      (looping.ancestorsWithEvents 2 false).length < looping.size := by
  have hsize : 2 < looping.size := by decide
  have hchain : looping.IsBaseChain 2 [3, 4] := isBaseChain_iff.2 (by decide)
  obtain ⟨-, -, hexact, -, -, hlength⟩ := ancestorsWithEvents_exact hsize false
  refine ⟨fun hacyclic => ?_, hsize, hchain, (hexact _ hchain).2, by decide, hlength⟩
  have hleft : looping.DerivesFrom 3 4 := rfl
  have hright : looping.DerivesFrom 4 3 := rfl
  exact hacyclic 3 (.tail (.single hleft) hright)

/-! ## Types as seen through an ancestor -/

/-- The type that a reference names itself, not in its arguments, has all of its arguments. -/
def AppliesAll (p : Program) (r : TypeRef) : Prop :=
  ∀ type ∈ r.namedType?, r.typeArguments.length = (p.declaration type).arity

instance (p : Program) (r : TypeRef) : Decidable (p.AppliesAll r) :=
  inferInstanceAs
    (Decidable (∀ type ∈ r.namedType?, r.typeArguments.length = (p.declaration type).arity))

/-- Every base has all of its arguments and mentions only parameters of the type written over it. -/
def HasAppliedBases (p : Program) : Prop :=
  ∀ t < p.size, ∀ r ∈ (p.declaration t).base, p.AppliesAll r ∧
    ∀ name ∈ r.parameters, name ∈ (p.declaration t).parameterNames

instance (p : Program) : Decidable p.HasAppliedBases :=
  inferInstanceAs (Decidable (∀ t < p.size, ∀ r ∈ (p.declaration t).base, p.AppliesAll r ∧
    ∀ name ∈ r.parameters, name ∈ (p.declaration t).parameterNames))

/-- A type that an ancestor sees, seen through the arguments of the ancestor. -/
def seenVia (p : Program) (ancestor type : Constructed) : Constructed :=
  (type.1, TypeRef.substituteAll (p.declaration ancestor.1).parameterNames ancestor.2 type.2)

/-- What a type refers to is seen from afar as it is seen from an ancestor, through the arguments of
the ancestor. -/
structure SeesVia (p : Program) (ancestor far near : Constructed) : Prop where
  type : far.1 = near.1
  references : ∀ r : TypeRef,
    (∀ name ∈ r.parameters, name ∈ (p.declaration near.1).parameterNames) →
    r.substitute (p.declaration near.1).parameterNames far.2 =
      (r.substitute (p.declaration near.1).parameterNames near.2).substitute
        (p.declaration ancestor.1).parameterNames ancestor.2

variable {ancestor far near base : Constructed} {met : List TypeId} {chain : List Constructed}

/-- What an ancestor refers to itself, seen through its arguments, is seen with these arguments. -/
theorem seesVia_own (p : Program) (ancestor : Constructed) :
    p.SeesVia ancestor ancestor (ancestor.1, (p.declaration ancestor.1).ownArguments) where
  type := rfl
  references r _ := by rw [Declaration.substitute_ownArguments]

theorem seesVia_seenVia (hall : base.2.length = (p.declaration base.1).arity) :
    p.SeesVia ancestor (p.seenVia ancestor base) base where
  type := rfl
  references r hr := by
    rw [Declaration.arity_eq_length] at hall
    exact (TypeRef.substitute_substitute (Nat.le_of_eq hall.symm) r hr).symm

/-- One step of a walk: the base is seen through the ancestor, and so is what it refers to. -/
theorem SeesVia.step (h : p.SeesVia ancestor far near) (hbases : p.HasAppliedBases)
    (hbase : p.baseSeenFrom near = some base) :
    p.baseSeenFrom far = some (p.seenVia ancestor base) ∧
      p.SeesVia ancestor (p.seenVia ancestor base) base := by
  have hlt := (derivesFrom_of_baseSeenFrom hbase).lt_size
  simp only [baseSeenFrom] at hbase
  split at hbase
  · next type arguments hwritten =>
    cases hbase
    obtain ⟨hall, hmentions⟩ := hbases near.1 hlt _ hwritten
    refine ⟨?_, seesVia_seenVia ?_⟩
    · have hreference := h.references (.named type arguments) hmentions
      rw [TypeRef.substitute, TypeRef.substitute, TypeRef.substitute,
        TypeRef.named.injEq] at hreference
      simp only [baseSeenFrom, h.type, hwritten, hreference.2]
      rfl
    · rw [TypeRef.substituteAll_eq_map, List.length_map]
      exact hall type rfl
  · cases hbase

/-- What a walk passes from afar is what it passes from the ancestor, seen through the ancestor. -/
theorem Walks.seenVia (hwalk : p.Walks met near chain) (hbases : p.HasAppliedBases)
    (h : p.SeesVia ancestor far near) : p.Walks met far (chain.map (p.seenVia ancestor)) := by
  induction hwalk generalizing far with
  | ended last =>
    apply Walks.ended
    rw [← Option.map_eq_none_iff, baseSeenFrom_map_fst, h.type, ← baseSeenFrom_map_fst, last]
    rfl
  | returned next again => exact .returned (h.step hbases next).1 again
  | passed next new _ ih =>
    obtain ⟨hnext, hrest⟩ := h.step hbases next
    exact .passed hnext new (ih hrest)

/-! ## Walks without cycles -/

/-- From every type that a walk has met, base types lead to the one where it stands. -/
def CameFrom (p : Program) (met : List TypeId) (t : TypeId) : Prop :=
  ∀ m ∈ met, Relation.ReflTransGen p.DerivesFrom m t

theorem cameFrom_start (p : Program) (t : TypeId) : p.CameFrom [t] t := by
  intro m hm
  rw [List.mem_singleton.1 hm]

theorem CameFrom.step {b : TypeId} (h : p.CameFrom met t) (hb : p.DerivesFrom t b) :
    p.CameFrom (b :: met) b := by
  intro m hm
  rcases List.mem_cons.1 hm with rfl | hm
  · exact .refl
  · exact (h m hm).tail hb

theorem CameFrom.not_mem {b : TypeId} (h : p.CameFrom met t) (hp : p.Acyclic)
    (hb : p.DerivesFrom t b) : b ∉ met :=
  fun hm => hp b (Relation.TransGen.tail' (h b hm) hb)

/-- Without cycles it does not matter which types a walk came from. -/
theorem Walks.of_cameFrom {current : Constructed} (h : p.Walks met current chain) (hp : p.Acyclic)
    (hmet : p.CameFrom met current.1) {met' : List TypeId} (hmet' : p.CameFrom met' current.1) :
    p.Walks met' current chain := by
  induction h generalizing met' with
  | ended last => exact .ended last
  | returned next again =>
    exact absurd again (hmet.not_mem hp (derivesFrom_of_baseSeenFrom next))
  | passed next _ _ ih =>
    have hstep := derivesFrom_of_baseSeenFrom next
    exact .passed next (hmet'.not_mem hp hstep) (ih (hmet.step hstep) (hmet'.step hstep))

/-- From each type that it passes a walk goes on. -/
theorem Walks.rest {current : Constructed} {nearer further : List Constructed}
    (h : p.Walks met current (nearer ++ ancestor :: further)) (hmet : p.CameFrom met current.1) :
    ∃ met', p.CameFrom met' ancestor.1 ∧ p.Walks met' ancestor further := by
  induction nearer generalizing met current with
  | nil =>
    cases h with
    | passed next _ rest => exact ⟨_, hmet.step (derivesFrom_of_baseSeenFrom next), rest⟩
  | cons c nearer ih =>
    cases h with
    | passed next _ rest => exact ih rest (hmet.step (derivesFrom_of_baseSeenFrom next))

/-- The rest of a base chain is the base chain of the type that it follows, seen through it. -/
theorem baseChain_rest (hp : p.Acyclic) (hbases : p.HasAppliedBases)
    {nearer further : List Constructed} (h : p.baseChain t = nearer ++ ancestor :: further) :
    further = (p.baseChain ancestor.1).map (p.seenVia ancestor) := by
  have hwalk := p.walks_baseChain t
  rw [h] at hwalk
  obtain ⟨met, hmet, hfurther⟩ := hwalk.rest (p.cameFrom_start t)
  have hown := (p.walks_baseChain ancestor.1).seenVia hbases (p.seesVia_own ancestor)
  exact hfurther.unique (hown.of_cameFrom hp (p.cameFrom_start ancestor.1) hmet)

/-- Where no type is its own ancestor and every base is applied, the ancestors with events beyond
the nearest one are its own ancestors with events, in the same order, with its parameters replaced
by the arguments that it has. -/
theorem ancestorsWithEvents_rest (hp : p.Acyclic) (hbases : p.HasAppliedBases)
    {parent : TypeId} {arguments : List TypeRef} {further : List Constructed}
    (h : p.ancestorsWithEvents t isStatic = (parent, arguments) :: further) :
    further = (p.ancestorsWithEvents parent isStatic).map fun c =>
      (c.1, TypeRef.substituteAll (p.declaration parent).parameterNames arguments c.2) := by
  obtain ⟨nearer, beyond, hchain, -, -, rfl⟩ := List.filter_eq_cons_iff.1 h
  have hrest := baseChain_rest hp hbases hchain
  rw [hrest, List.filter_map]
  rfl

/-- A generic type over another one over a third, whose parameters share a name and stand for
different types. -/
def layers : Program :=
  let declarations : List Declaration := [
    { kind := .structType, namespaceName := "System", name := "Void", builtIn := some .void },
    { kind := .delegateType, name := "Notice", typeParameters := [{ name := "T" }],
      invoke := some { result := .named 0 [], parameters := [⟨"value", .parameter "T"⟩] } },
    { name := "Store", typeParameters := [{ name := "T" }],
      events := [{
        name := "Stored", delegate := .nullable (.named 1 [.array (.parameter "T") 2]) }] },
    { name := "Shelf", typeParameters := [{ name := "T" }, { name := "U" }],
      base := some (.named 2 [.array (.parameter "U") 1]),
      events := [{ name := "Moved", delegate := .named 1 [.parameter "T"] }] },
    { name := "Box", typeParameters := [{ name := "T" }],
      base := some (.named 3 [.nullable (.parameter "T"), .parameter "T"]) }]
  declarations.foldl push {}

theorem layers_ancestors_rest :
    layers.Acyclic ∧ layers.HasAppliedBases ∧
      layers.ancestorsWithEvents 4 false =
        [(3, [.nullable (.parameter "T"), .parameter "T"]), (2, [.array (.parameter "T") 1])] ∧
      layers.ancestorsWithEvents 3 false = [(2, [.array (.parameter "U") 1])] ∧
      [(2, [.array (.parameter "T") 1])] = (layers.ancestorsWithEvents 3 false).map fun c =>
        (c.1, TypeRef.substituteAll ["T", "U"]
          [.nullable (.parameter "T"), .parameter "T"] c.2) := by
  have hacyclic : layers.Acyclic := acyclic_of_base_lt (by decide)
  have hbases : layers.HasAppliedBases := by decide
  have hbox : layers.ancestorsWithEvents 4 false =
      [(3, [.nullable (.parameter "T"), .parameter "T"]), (2, [.array (.parameter "T") 1])] := rfl
  exact ⟨hacyclic, hbases, hbox, rfl, ancestorsWithEvents_rest hacyclic hbases hbox⟩

/-! ## Instantiated signatures -/

/-- The delegate of every event has all of its arguments, and a signature mentions only parameters
of the delegate that it belongs to. -/
def HasAppliedDelegates (p : Program) : Prop :=
  ∀ t < p.size, (∀ e ∈ (p.declaration t).events, p.AppliesAll e.delegate.stripNullable) ∧
    ∀ s ∈ (p.declaration t).invoke, ∀ r ∈ s.references, ∀ name ∈ r.parameters,
      name ∈ (p.declaration t).parameterNames

instance (p : Program) : Decidable p.HasAppliedDelegates :=
  inferInstanceAs (Decidable (∀ t < p.size,
    (∀ e ∈ (p.declaration t).events, p.AppliesAll e.delegate.stripNullable) ∧
    ∀ s ∈ (p.declaration t).invoke, ∀ r ∈ s.references, ∀ name ∈ r.parameters,
      name ∈ (p.declaration t).parameterNames))

/-- The signature of an instantiated delegate is the instantiated signature. -/
theorem signature?_substitute (h : p.HasAppliedDelegates) {delegate : TypeRef} {s : Signature}
    (hall : p.AppliesAll delegate.stripNullable) (hs : p.signature? delegate = some s)
    (names : List String) (arguments : List TypeRef) :
    p.signature? (delegate.substitute names arguments) = some (s.substitute names arguments) := by
  rw [signature?] at hs
  split at hs
  · next type args hstripped =>
    obtain ⟨invoke, hinvoke, rfl⟩ := Option.map_eq_some_iff.1 hs
    have hlt : type < p.size := by
      apply lt_size_of_declaration_ne
      intro hempty
      simp [hempty] at hinvoke
    have hlength : args.length = (p.declaration type).parameterNames.length := by
      rw [hstripped] at hall
      rw [← Declaration.arity_eq_length]
      exact hall type rfl
    rw [signature?, TypeRef.stripNullable_substitute hstripped,
      Signature.substitute_substitute (Nat.le_of_eq hlength.symm) ((h type hlt).2 invoke hinvoke)]
    simp only [hinvoke, Option.map_some]
  · cases hs

/-- What completes a handler stays as it is, whatever stands for type parameters. -/
theorem Completes.substitute_eq_self {result : TypeRef} {kind : ReturnKind}
    (h : p.Completes result kind) (hplain : result.isConstructed = false) (names : List String)
    (arguments : List TypeRef) : result.substitute names arguments = result := by
  cases h with
  | @void id args =>
    cases args with
    | nil => rfl
    | cons => cases hplain
  | task => rfl
  | valueTask => rfl

/-- An event that its type describes for itself is described with any arguments of the type. -/
theorem Describes.substitute (h : p.HasAppliedDelegates) {e : EventDeclaration}
    (he : e ∈ (p.declaration a).events) {descriptor : EventDescriptor}
    (hd : p.Describes isStatic (a, (p.declaration a).ownArguments) e descriptor)
    (arguments : List TypeRef) :
    p.Describes isStatic (a, arguments) e
      (descriptor.substitute (p.declaration a).parameterNames arguments) := by
  have hdelegate := hd.delegate
  have hinvoked := hd.eligible.invoked
  rw [delegateSeen_own] at hdelegate hinvoked
  have hresult := hd.eligible.completes.substitute_eq_self hd.eligible.unconstructed
    (p.declaration a).parameterNames arguments
  have hsignature :
      (descriptor.substitute (p.declaration a).parameterNames arguments).signature.result =
        descriptor.signature.result := hresult
  exact {
    eligible := {
      accessibility := hd.eligible.accessibility
      staticness := hd.eligible.staticness
      invoked := signature?_substitute h ((h a (lt_size_of_mem_events he)).1 e he) hinvoked _ _
      unconstructed := hsignature ▸ hd.eligible.unconstructed
      completes := hsignature ▸ hd.eligible.completes }
    name := hd.name
    declaringType := hd.declaringType
    delegate := congrArg (·.substitute (p.declaration a).parameterNames arguments) hdelegate
    staticness := hd.staticness
    obsolescence := hd.obsolescence }

/-! ## Inherited events -/

theorem FirstDeclared.mem {types : List Constructed} {name : String} {type : Constructed}
    {e : EventDeclaration} (h : p.FirstDeclared types name type e) : type ∈ types := by
  obtain ⟨before, after, rfl, -⟩ := h.among
  exact List.mem_append_right _ List.mem_cons_self

theorem FirstDeclared.mem_events {types : List Constructed} {name : String} {type : Constructed}
    {e : EventDeclaration} (h : p.FirstDeclared types name type e) :
    e ∈ (p.declaration type.1).events := by
  obtain ⟨before, after, hevents, -⟩ := h.within
  rw [hevents]
  exact List.mem_append_right _ List.mem_cons_self

/-- What an ancestor collects for itself is inherited under every name that neither the type nor an
ancestor listed before declares: the same event, whose delegate and signature have the ancestor's
arguments in place of its parameters. It takes that delegates are applied and that their signatures
mention their own parameters only, which may have the names of parameters of the ancestor. -/
theorem inherited_of_collected (h : p.HasAppliedDelegates) {arguments : List TypeRef}
    {nearer further : List Constructed}
    (ha : p.ancestorsWithEvents t isStatic = nearer ++ (a, arguments) :: further)
    {descriptor : EventDescriptor} (hd : descriptor ∈ (p.collect a false isStatic).events)
    (hown : ∀ e ∈ (p.declaration t).events, e.name ≠ descriptor.name)
    (hnearer : ∀ c ∈ nearer, ∀ e ∈ (p.declaration c.1).events, e.name ≠ descriptor.name) :
    ∃ inherited ∈ (p.collect t true isStatic).events,
      inherited.name = descriptor.name ∧ inherited.declaringType = a ∧
      inherited.returnKind = descriptor.returnKind ∧ inherited.isStatic = descriptor.isStatic ∧
      inherited.obsolescence = descriptor.obsolescence ∧
      inherited.delegate =
        descriptor.delegate.substitute (p.declaration a).parameterNames arguments ∧
      inherited.signature =
        descriptor.signature.substitute (p.declaration a).parameterNames arguments := by
  obtain ⟨type, e, hfirst, hdescribes⟩ := mem_collect_iff.1 hd
  obtain rfl : type = (a, (p.declaration a).ownArguments) := List.mem_singleton.1 hfirst.mem
  have hinherited := hdescribes.substitute h hfirst.mem_events arguments
  have htypes : p.collectedTypes t true isStatic =
      ((t, (p.declaration t).ownArguments) :: nearer) ++ (a, arguments) :: further := by
    rw [collectedTypes, if_pos rfl, ha]
    rfl
  have hvisible : p.FirstDeclared (p.collectedTypes t true isStatic) descriptor.name
      (a, arguments) e :=
    ⟨hfirst.named, ⟨_, further, htypes, List.forall_mem_cons.2 ⟨hown, hnearer⟩⟩, hfirst.within⟩
  exact ⟨descriptor.substitute (p.declaration a).parameterNames arguments,
    mem_collect_iff.2 ⟨(a, arguments), e, hvisible, hinherited⟩, rfl,
    hdescribes.declaringType, rfl, rfl, rfl, rfl, rfl⟩

theorem layers_stored_inherited :
    layers.HasAppliedDelegates ∧
      ∃ descriptor ∈ (layers.collect 2 false false).events,
      ∃ inherited ∈ (layers.collect 4 true false).events,
        inherited.name = "Stored" ∧ inherited.declaringType = 2 ∧
        inherited.delegate = descriptor.delegate.substitute ["T"] [.array (.parameter "T") 1] ∧
        inherited.signature =
          descriptor.signature.substitute ["T"] [.array (.parameter "T") 1] := by
  have hdelegates : layers.HasAppliedDelegates := by decide
  have hstored : ∃ descriptor ∈ (layers.collect 2 false false).events,
      descriptor.name = "Stored" := by decide +kernel
  obtain ⟨descriptor, hdescriptor, hname⟩ := hstored
  have hancestors : layers.ancestorsWithEvents 4 false =
      [(3, [.nullable (.parameter "T"), .parameter "T"])] ++
        (2, [.array (.parameter "T") 1]) :: [] := rfl
  have hbox : ∀ e ∈ (layers.declaration 4).events, e.name ≠ "Stored" := by decide
  have hshelf : ∀ e ∈ (layers.declaration 3).events, e.name ≠ "Stored" := by decide
  obtain ⟨inherited, hmem, hsame, htype, -, -, -, hdelegate, hsignature⟩ :=
    inherited_of_collected hdelegates hancestors hdescriptor (hname ▸ hbox)
      (List.forall_mem_singleton.2 (hname ▸ hshelf))
  exact ⟨hdelegates, descriptor, hdescriptor, inherited, hmem, hsame.trans hname, htype, hdelegate,
    hsignature⟩

end Program

end EventWrap
