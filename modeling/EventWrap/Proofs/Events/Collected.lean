import EventWrap.Events.Collected
import EventWrap.Proofs.Occurrence
import EventWrap.Proofs.Program.TypeRef

/-!
# Collected events of a single type

What a type itself offers: one descriptor for every eligible event among the first declarations of
each name, in the order of the names. There is one exactly when the quick test for eligible events
succeeds.
-/

namespace EventWrap.Program

variable (p : Program) (id : TypeId) (isStatic : Bool)

/-- The descriptor of an event as its own type sees it. -/
def describeOwn? (e : EventDeclaration) : Option EventDescriptor :=
  p.describe? isStatic id e e.delegate

section Described

variable {p : Program} {isStatic : Bool} {declaringType : TypeId} {e : EventDeclaration}
  {delegate : TypeRef} {descriptor : EventDescriptor}

/-- What a descriptor has from its event and from the signature of the delegate. -/
theorem eq_of_describe? (h : p.describe? isStatic declaringType e delegate = some descriptor) :
    ∃ signature returnKind, p.signature? delegate = some signature ∧
      p.returnKind? signature.result = some returnKind ∧
      descriptor = {
        name := e.name
        declaringType := declaringType
        delegate := delegate
        signature := signature
        returnKind := returnKind
        isStatic := e.isStatic
        obsolescence := e.obsolescence? } := by
  unfold describe? at h
  split at h
  · obtain ⟨signature, hsignature, h⟩ := Option.bind_eq_some_iff.1 h
    split at h
    · cases h
    · obtain ⟨returnKind, hkind, h⟩ := Option.bind_eq_some_iff.1 h
      exact ⟨signature, returnKind, hsignature, hkind, (Option.some.inj h).symm⟩
  · cases h

theorem describe?_name (h : p.describe? isStatic declaringType e delegate = some descriptor) :
    descriptor.name = e.name := by
  obtain ⟨signature, returnKind, -, -, rfl⟩ := eq_of_describe? h
  rfl

end Described

/-- The name of a descriptor is that of its event. -/
theorem map_name_filterMap_describe? {α : Type} (f : α → EventDeclaration) (declaring : α → TypeId)
    (delegate : α → TypeRef) (l : List α) :
    ((l.filterMap fun e => p.describe? isStatic (declaring e) (f e) (delegate e)).map
      (·.name)).Sublist
      (l.map fun e => (f e).name) := by
  induction l with
  | nil => exact List.Sublist.slnil
  | cons e rest ih =>
    rw [List.filterMap_cons, List.map_cons]
    cases h : p.describe? isStatic (declaring e) (f e) (delegate e) with
    | none => exact ih.cons _
    | some descriptor =>
      rw [List.map_cons, describe?_name h]
      exact ih.cons_cons _

theorem nodup_names_described (inherited : Bool) :
    (((p.visibleEvents id inherited isStatic).filterMap fun e =>
      p.describe? isStatic e.declaringType e.event e.delegate).map (·.name)).Nodup :=
  (Occurrence.nodup_map_firsts _ _ _).sublist
    (map_name_filterMap_describe? p isStatic SeenEvent.event _ _ _)

/-- Collected events are strictly sorted by name. -/
theorem collect_sorted (inherited : Bool) :
    (p.collect id inherited isStatic).events.Pairwise fun a b => a.name < b.name :=
  sortedBy_pairwise_lt (nodup_names_described p id isStatic inherited)

theorem eventsSeen_own :
    p.eventsSeen (id, (p.declaration id).ownArguments) =
      (p.declaration id).events.map fun e => ⟨id, e, e.delegate⟩ := by
  simp only [eventsSeen, Declaration.substitute_ownArguments]

theorem visibleEvents_own :
    p.visibleEvents id false isStatic = (p.distinctEvents id).map fun e => ⟨id, e, e.delegate⟩ := by
  have hseen : (p.collectedTypes id false isStatic).flatMap p.eventsSeen =
      (p.declaration id).events.map fun e => ⟨id, e, e.delegate⟩ := by
    rw [collectedTypes, if_neg Bool.false_ne_true, List.flatMap_cons, List.flatMap_nil,
      List.append_nil, eventsSeen_own]
  calc p.visibleEvents id false isStatic
    _ = Occurrence.firsts (·.event.name) []
        ((p.declaration id).events.map fun e => ⟨id, e, e.delegate⟩) := by
      rw [visibleEvents, hseen]
    _ = (p.distinctEvents id).map fun e => ⟨id, e, e.delegate⟩ := Occurrence.firsts_map _ _ _ _

theorem collect_own :
    (p.collect id false isStatic).events =
      sortedBy (·.name) ((p.distinctEvents id).filterMap (p.describeOwn? id isStatic)) := by
  rw [collect, visibleEvents_own, List.filterMap_map]
  rfl

/-- The quick test agrees with the collector. -/
theorem isEmpty_collect_own :
    (p.collect id false isStatic).isEmpty = !p.hasEligibleEvents id isStatic := by
  rw [TypeEvents.isEmpty, collect_own, Bool.eq_iff_iff, Bool.not_eq_true', List.isEmpty_iff,
    List.eq_nil_iff_forall_not_mem, hasEligibleEvents, List.any_eq_false]
  constructor
  · intro h e he hsome
    obtain ⟨descriptor, hd⟩ := Option.isSome_iff_exists.1 hsome
    exact h descriptor (mem_sortedBy.2 (List.mem_filterMap.2 ⟨e, he, hd⟩))
  · intro h descriptor hd
    obtain ⟨e, he, hsome⟩ := List.mem_filterMap.1 (mem_sortedBy.1 hd)
    exact h e he (Option.isSome_iff_exists.2 ⟨descriptor, hsome⟩)

end EventWrap.Program
