import EventWrap.Proofs.Events.Collected
import EventWrap.Proofs.Renaming.Program

/-!
# Events of renamed programs

Which events are eligible, the ancestors of a type and what is collected for it are renamed along
with the program. The order of the declarations is forgotten when collected events are sorted.
-/

namespace EventWrap.Program

variable {σ : TypeId → TypeId} {p q : Program}

/-- An event as it is seen, renamed. -/
def SeenEvent.rename (σ : TypeId → TypeId) (e : SeenEvent) : SeenEvent :=
  ⟨σ e.declaringType, e.event.rename σ, e.delegate.rename σ⟩

theorem isCandidate_rename (σ : TypeId → TypeId) (isStatic : Bool) (e : EventDeclaration) :
    isCandidate isStatic (e.rename σ) = isCandidate isStatic e := rfl

namespace Renames

variable (h : p.Renames σ q)

include h

/-! ## Eligibility -/

theorem describe? (isStatic : Bool) (declaringType : TypeId) (e : EventDeclaration)
    (delegate : TypeRef) :
    q.describe? isStatic (σ declaringType) (e.rename σ) (delegate.rename σ) =
      (p.describe? isStatic declaringType e delegate).map (·.rename σ) := by
  unfold Program.describe?
  rw [isCandidate_rename, h.signature?]
  by_cases hc : isCandidate isStatic e
  · rw [if_pos hc, if_pos hc]
    cases p.signature? delegate with
    | none => rfl
    | some signature =>
      simp only [Option.map_some, Option.bind_eq_bind, Option.bind_some, Signature.rename,
        TypeRef.isConstructed_rename, h.returnKind?]
      cases signature.result.isConstructed with
      | true => rfl
      | false =>
        cases p.returnKind? signature.result with
        | none => rfl
        | some kind =>
          simp only [Bool.false_eq_true, ↓reduceIte, Option.bind_some, Option.pure_def,
            Option.map_some, Option.some.injEq,
            EventDescriptor.rename, Signature.rename, EventDeclaration.obsolescence?_rename]
          rfl
  · rw [if_neg hc, if_neg hc]
    rfl

theorem distinctEvents (id : TypeId) :
    ((p.distinctEvents id).map (·.rename σ)).Perm (q.distinctEvents (σ id)) := by
  have hfirsts := (h.declaration id).events.firsts []
  rw [Occurrence.firsts_map] at hfirsts
  exact hfirsts

theorem hasEligibleEvents (id : TypeId) (isStatic : Bool) :
    q.hasEligibleEvents (σ id) isStatic = p.hasEligibleEvents id isStatic := by
  unfold Program.hasEligibleEvents
  rw [← (h.distinctEvents id).any_eq, List.any_map]
  congr 1
  funext e
  have hdescribe := h.describe? isStatic id e e.delegate
  exact (congrArg Option.isSome hdescribe).trans Option.isSome_map

/-! ## Ancestors -/

theorem baseSeenFrom (c : Constructed) :
    q.baseSeenFrom (Constructed.rename σ c) = (p.baseSeenFrom c).map (Constructed.rename σ) := by
  unfold Program.baseSeenFrom
  simp only [Constructed.rename, (h.declaration c.1).base, (h.declaration c.1).parameterNames]
  cases (p.declaration c.1).base with
  | none => rfl
  | some r =>
    cases r with
    | named base arguments =>
      rw [Option.map_some, Option.map_some, TypeRef.rename]
      simp only [Constructed.rename]
      rw [← TypeRef.renameAll_substituteAll, TypeRef.renameAll_eq_map]
    | parameter => rfl
    | array => rfl
    | nullable => rfl

theorem baseChainFrom (steps : Nat) (met : List TypeId) (c : Constructed) :
    q.baseChainFrom steps (met.map σ) (Constructed.rename σ c) =
      (p.baseChainFrom steps met c).map (Constructed.rename σ) := by
  induction steps generalizing met c with
  | zero => rfl
  | succ steps ih =>
    rw [Program.baseChainFrom, Program.baseChainFrom, h.baseSeenFrom]
    cases p.baseSeenFrom c with
    | none => rfl
    | some base =>
      have hmet : (Constructed.rename σ base).1 ∈ met.map σ ↔ base.1 ∈ met :=
        List.mem_map_of_injective h.injective
      simp only [Option.map_some, hmet]
      split
      · rfl
      · rw [List.map_cons, ← ih (base.1 :: met) base]
        rfl

theorem baseChain (id : TypeId) :
    q.baseChain (σ id) = (p.baseChain id).map (Constructed.rename σ) := by
  rw [Program.baseChain, Program.baseChain, ← h.baseChainFrom, h.size,
    (h.declaration id).ownArguments]
  rfl

theorem ancestorsWithEvents (id : TypeId) (isStatic : Bool) :
    q.ancestorsWithEvents (σ id) isStatic =
      (p.ancestorsWithEvents id isStatic).map (Constructed.rename σ) := by
  rw [Program.ancestorsWithEvents, Program.ancestorsWithEvents, h.baseChain, List.filter_map]
  congr 2
  funext base
  exact h.hasEligibleEvents base.1 isStatic

/-! ## Collected events -/

theorem eventsSeen (c : Constructed) :
    Occurrence.Reordered (fun e => e.event.name) ((p.eventsSeen c).map (SeenEvent.rename σ))
      (q.eventsSeen (Constructed.rename σ c)) := by
  have hseen : (p.eventsSeen c).map (SeenEvent.rename σ) =
    ((p.declaration c.1).events.map (·.rename σ)).map fun e =>
      ⟨σ c.1, e, e.delegate.substitute (p.declaration c.1).parameterNames
        (c.2.map (·.rename σ))⟩ := by
    simp only [Program.eventsSeen, List.map_map, Function.comp_def, SeenEvent.rename,
      TypeRef.rename_substitute, EventDeclaration.rename]
  rw [hseen, Program.eventsSeen]
  simp only [Constructed.rename, (h.declaration c.1).parameterNames]
  exact Occurrence.Reordered.map (h.declaration c.1).events

theorem collectedTypes (id : TypeId) (inherited isStatic : Bool) :
    q.collectedTypes (σ id) inherited isStatic =
      (p.collectedTypes id inherited isStatic).map (Constructed.rename σ) := by
  rw [Program.collectedTypes, Program.collectedTypes, h.ancestorsWithEvents,
    (h.declaration id).ownArguments, List.map_cons]
  cases inherited <;> rfl

theorem visibleEvents (id : TypeId) (inherited isStatic : Bool) :
    ((p.visibleEvents id inherited isStatic).map (SeenEvent.rename σ)).Perm
      (q.visibleEvents (σ id) inherited isStatic) := by
  have hblocks : List.Forall₂ (Occurrence.Reordered fun e => e.event.name)
      ((p.collectedTypes id inherited isStatic).map fun c =>
        (p.eventsSeen c).map (SeenEvent.rename σ))
      ((q.collectedTypes (σ id) inherited isStatic).map q.eventsSeen) := by
    rw [h.collectedTypes, List.map_map, List.forall₂_map_left_iff, List.forall₂_map_right_iff,
      List.forall₂_same]
    exact fun c _ => h.eventsSeen c
  calc (p.visibleEvents id inherited isStatic).map (SeenEvent.rename σ)
    _ = Occurrence.firsts (fun e => e.event.name) []
        (((p.collectedTypes id inherited isStatic).flatMap p.eventsSeen).map
          (SeenEvent.rename σ)) := by
      rw [Program.visibleEvents, Occurrence.firsts_map]
      rfl
    _ = Occurrence.firsts (fun e => e.event.name) []
        ((p.collectedTypes id inherited isStatic).map fun c =>
          (p.eventsSeen c).map (SeenEvent.rename σ)).flatten := by
      rw [List.flatMap_def, List.map_flatten, List.map_map]
      rfl
    List.Perm _ (q.visibleEvents (σ id) inherited isStatic) :=
      Occurrence.firsts_flatten_perm hblocks []

theorem collect (id : TypeId) (inherited isStatic : Bool) :
    q.collect (σ id) inherited isStatic = (p.collect id inherited isStatic).rename σ := by
  have hdescribed : ((p.visibleEvents id inherited isStatic).filterMap fun e =>
        p.describe? isStatic e.declaringType e.event e.delegate).map (·.rename σ) |>.Perm
      ((q.visibleEvents (σ id) inherited isStatic).filterMap fun e =>
        q.describe? isStatic e.declaringType e.event e.delegate) := by
    have hperm := (h.visibleEvents id inherited isStatic).filterMap fun e =>
      q.describe? isStatic e.declaringType e.event e.delegate
    rw [List.filterMap_map] at hperm
    rw [List.map_filterMap]
    simpa only [Function.comp_def, SeenEvent.rename, h.describe?] using hperm
  have hnodup := nodup_names_described p id isStatic inherited
  have hnodup' : ((((p.visibleEvents id inherited isStatic).filterMap fun e =>
      p.describe? isStatic e.declaringType e.event e.delegate).map (·.rename σ)).map
        (·.name)).Nodup := by
    rw [List.map_map]
    exact hnodup
  have hevents : (q.collect (σ id) inherited isStatic).events =
      (p.collect id inherited isStatic).events.map (·.rename σ) :=
    calc (q.collect (σ id) inherited isStatic).events
      _ = sortedBy (·.name) (((p.visibleEvents id inherited isStatic).filterMap fun e =>
          p.describe? isStatic e.declaringType e.event e.delegate).map (·.rename σ)) :=
        (sortedBy_eq_of_perm hdescribed hnodup').symm
      _ = (p.collect id inherited isStatic).events.map (·.rename σ) := sortedBy_map hnodup
  exact congrArg (TypeEvents.mk (σ id)) hevents

end Renames

end EventWrap.Program
