import EventWrap.Proofs.Pass.Requests
import EventWrap.Proofs.Renaming.Program

/-!
# Requests of rearranged programs

A program is a rearrangement of another when it is the other one renamed, with its invocations and
attributes in any order. Both ask for the same wrappers in the same order, since requests are sorted
by the names of their types.
-/

namespace EventWrap

/-- A request for a renamed type. The place of the request may be another one. -/
def Request.IsRenamed (σ : TypeId → TypeId) (r r' : Request) : Prop :=
  r'.type = σ r.type ∧ r'.mode = r.mode

namespace Program

variable {σ : TypeId → TypeId} {p q : Program} {s : Settings}

/-- A program is another one renamed, with invocations and attributes in any order. The types that
can be requested are declared, and have distinct names. -/
structure Rearranges (σ : TypeId → TypeId) (p q : Program) : Prop extends p.Renames σ q where
  resolve? : ∀ name, q.resolve? name = (p.resolve? name).map σ
  named : ∀ {a b}, a < p.size → b < p.size → p.metadataName a = p.metadataName b → a = b
  invocations : (p.invocations.map (·.rename σ)).Perm q.invocations
  assemblyAttributes : (p.assemblyAttributes.map (·.rename σ)).Perm q.assemblyAttributes
  invoked : ∀ i ∈ p.invocations, ∀ r ∈ i.typeArguments, ∀ id, r.stripNullable.namedType? = some id →
    id < p.size
  marked : ∀ a ∈ p.assemblyAttributes, ∀ r id, a.typeArgument? = some r → r.namedType? = some id →
    id < p.size

/-! ## Single requests -/

theorem instanceRequest?_rename (hσ : Function.Injective σ) (s : Settings) (holder : TypeId)
    (i : Invocation) :
    instanceRequest? s (σ holder) (i.rename σ) =
      (instanceRequest? s holder i).map (·.rename σ) := by
  have hcontainer : (i.rename σ).container = some (σ holder) ↔ i.container = some holder := by
    rw [Invocation.rename, Option.map_eq_some_iff]
    constructor
    · rintro ⟨container, hc, heq⟩
      rw [hc, hσ heq]
    · exact fun hc => ⟨holder, hc, rfl⟩
  have hmethod : (i.rename σ).method = i.method := rfl
  have hlocation : (i.rename σ).location = i.location := rfl
  have harguments : (i.rename σ).typeArguments = i.typeArguments.map (·.rename σ) := rfl
  unfold instanceRequest?
  simp only [hcontainer, hmethod, hlocation, harguments]
  split
  · rcases i.typeArguments with _ | ⟨argument, _ | ⟨second, rest⟩⟩
    · rfl
    · simp only [List.map_cons, List.map_nil, TypeRef.stripNullable_rename,
        TypeRef.namedType?_rename, Option.map_map]
      rfl
    · rfl
  · rfl

theorem staticRequest?_rename (σ : TypeId → TypeId) (s : Settings) (a : Attribute) :
    staticRequest? s (a.rename σ) = (staticRequest? s a).map (·.rename σ) := by
  have hclass : (a.rename σ).className = a.className := rfl
  have hlocation : (a.rename σ).location = a.location := rfl
  unfold staticRequest?
  rw [hclass, hlocation, Attribute.typeArgument?_rename]
  split
  · cases a.typeArgument? with
    | none => rfl
    | some r =>
      simp only [Option.map_some, Option.bind_some, TypeRef.namedType?_rename, Option.map_map]
      rfl
  · rfl

/-! ## First requests -/

/-- All requested types are among the first requests, where they have distinct names. -/
theorem mem_types_firstRequests {rs : List Request}
    (hnamed : ∀ r ∈ rs, ∀ r' ∈ rs, p.metadataName r.type = p.metadataName r'.type →
      r.type = r'.type) {t : TypeId} :
    t ∈ (p.firstRequests rs).map (·.type) ↔ t ∈ rs.map (·.type) := by
  constructor
  · intro ht
    obtain ⟨r, hr, rfl⟩ := List.mem_map.1 ht
    exact List.mem_map_of_mem (mem_of_mem_firstRequests hr)
  · intro ht
    obtain ⟨r, hr, rfl⟩ := List.mem_map.1 ht
    have hname : p.metadataName r.type ∈
      (Occurrence.firsts (fun r => p.metadataName r.type) [] rs).map
        fun r => p.metadataName r.type := by
      rw [Occurrence.mem_map_firsts]
      exact ⟨List.mem_map_of_mem hr, List.not_mem_nil⟩
    obtain ⟨r', hr', heq⟩ := List.mem_map.1 hname
    rw [← hnamed r' (Occurrence.mem_of_mem_firsts hr') r hr heq]
    exact List.mem_map_of_mem (mem_sortedBy.2 hr')

theorem types_firstRequests_sorted (p : Program) (rs : List Request) :
    ((p.firstRequests rs).map (·.type)).Pairwise fun a b =>
      p.metadataName a < p.metadataName b := by
  rw [List.pairwise_map]
  exact sortedBy_pairwise_lt (Occurrence.nodup_map_firsts _ _ _)

/-- First requests are renamed, whatever the order of the requests. -/
theorem Renames.types_firstRequests (h : p.Renames σ q) {rs rs' : List Request}
    (hperm : (rs.map (·.rename σ)).Perm rs')
    (hnamed : ∀ r ∈ rs, ∀ r' ∈ rs, p.metadataName r.type = p.metadataName r'.type →
      r.type = r'.type) :
    (q.firstRequests rs').map (·.type) = ((p.firstRequests rs).map (·.type)).map σ := by
  have hsorted : (((p.firstRequests rs).map (·.type)).map σ).Pairwise fun a b =>
      q.metadataName a < q.metadataName b := by
    rw [List.pairwise_map]
    simp only [h.metadataName]
    exact types_firstRequests_sorted p rs
  have hnamed' : ∀ r ∈ rs', ∀ r' ∈ rs', q.metadataName r.type = q.metadataName r'.type →
      r.type = r'.type := by
    intro a ha b hb heq
    obtain ⟨r, hr, rfl⟩ := List.mem_map.1 (hperm.mem_iff.2 ha)
    obtain ⟨r', hr', rfl⟩ := List.mem_map.1 (hperm.mem_iff.2 hb)
    have htype : ∀ r : Request, (r.rename σ).type = σ r.type := fun _ => rfl
    rw [htype, htype, h.metadataName, h.metadataName] at heq
    rw [htype, htype, hnamed r hr r' hr' heq]
  apply eq_of_mem_iff_of_sorted (types_firstRequests_sorted q rs') hsorted
  intro t
  rw [mem_types_firstRequests hnamed', ← (hperm.map _).mem_iff, List.mem_map]
  simp only [mem_types_firstRequests hnamed, List.mem_map, Request.rename]
  constructor
  · rintro ⟨_, ⟨r, hr, rfl⟩, rfl⟩
    exact ⟨r.type, ⟨r, hr, rfl⟩, rfl⟩
  · rintro ⟨_, ⟨r, hr, rfl⟩, rfl⟩
    exact ⟨_, ⟨r, hr, rfl⟩, rfl⟩

/-! ## Discovery -/

theorem forall₂_isRenamed {rs rs' : List Request} {mode : WrapperMode}
    (htypes : rs'.map (·.type) = (rs.map (·.type)).map σ)
    (hmode : ∀ r ∈ rs, r.mode = mode) (hmode' : ∀ r ∈ rs', r.mode = mode) :
    List.Forall₂ (Request.IsRenamed σ) rs rs' := by
  induction rs generalizing rs' with
  | nil =>
    rw [List.map_nil, List.map_nil, List.map_eq_nil_iff] at htypes
    rw [htypes]
    exact .nil
  | cons r rest ih =>
    cases rs' with
    | nil => cases htypes
    | cons r' rest' =>
      obtain ⟨htype, hrest⟩ := List.cons.inj htypes
      refine .cons ⟨htype, ?_⟩ (ih hrest (fun a ha => hmode a (List.mem_cons_of_mem _ ha))
        fun a ha => hmode' a (List.mem_cons_of_mem _ ha))
      rw [hmode r List.mem_cons_self, hmode' r' List.mem_cons_self]

namespace Rearranges

variable (h : p.Rearranges σ q)

include h

theorem discover_error {e : PassError} (hd : p.discover s = .error e) :
    q.discover s = .error e := by
  unfold Program.discover at hd ⊢
  rw [h.resolve?]
  cases hres : p.resolve? s.holderName with
  | none =>
    rw [hres] at hd
    exact hd
  | some holder =>
    rw [hres] at hd
    cases hd

/-- A rearranged program makes the same requests, in the same order. -/
theorem discover {requests : Requests} (hd : p.discover s = .ok requests) :
    ∃ requests', q.discover s = .ok requests' ∧
      List.Forall₂ (Request.IsRenamed σ) requests.toList requests'.toList := by
  obtain ⟨holder, hholder, hinstances, hstatics⟩ := eq_of_discover hd
  have hholder' : q.resolve? s.holderName = some (σ holder) := by
    rw [h.resolve?, hholder, Option.map_some]
  obtain ⟨requests', hd'⟩ := exists_discover hholder'
  obtain ⟨holder', hres, hinstances', hstatics'⟩ := eq_of_discover hd'
  obtain rfl : holder' = σ holder := Option.some.inj (hres.symm.trans hholder')
  have hinvocations : ((p.invocations.filterMap (instanceRequest? s holder)).map (·.rename σ)).Perm
      (q.invocations.filterMap (instanceRequest? s (σ holder))) := by
    have hperm := h.invocations.filterMap (instanceRequest? s (σ holder))
    rw [List.filterMap_map] at hperm
    rw [List.map_filterMap]
    simpa only [Function.comp_def, instanceRequest?_rename h.injective] using hperm
  have hattributes : ((p.assemblyAttributes.filterMap (staticRequest? s)).map (·.rename σ)).Perm
      (q.assemblyAttributes.filterMap (staticRequest? s)) := by
    have hperm := h.assemblyAttributes.filterMap (staticRequest? s)
    rw [List.filterMap_map] at hperm
    rw [List.map_filterMap]
    simpa only [Function.comp_def, staticRequest?_rename] using hperm
  have hinvoked : ∀ r ∈ p.invocations.filterMap (instanceRequest? s holder), r.type < p.size := by
    intro r hr
    obtain ⟨i, hi, hri⟩ := List.mem_filterMap.1 hr
    have hasks := instanceRequest?_eq_some_iff.1 hri
    obtain ⟨arguments, hargument | hargument⟩ := hasks.typeArguments <;>
      exact h.invoked i hi _ (hargument ▸ List.mem_singleton_self _) r.type rfl
  have hmarked : ∀ r ∈ p.assemblyAttributes.filterMap (staticRequest? s), r.type < p.size := by
    intro r hr
    obtain ⟨a, ha, hra⟩ := List.mem_filterMap.1 hr
    obtain ⟨arguments, rest, harguments⟩ := (staticRequest?_eq_some_iff.1 hra).arguments
    have htype : a.typeArgument? = some (.named r.type arguments) := by
      rw [Attribute.typeArgument?, harguments]
    exact h.marked a ha _ r.type htype rfl
  refine ⟨requests', hd', ?_⟩
  rw [Requests.toList, Requests.toList]
  apply List.rel_append
  · refine forall₂_isRenamed ?_ (fun _ => mode_of_mem_ofStatics hd)
      (fun _ => mode_of_mem_ofStatics hd')
    rw [hstatics, hstatics']
    exact h.types_firstRequests hattributes fun r hr r' hr' heq =>
      h.named (hmarked r hr) (hmarked r' hr') heq
  · refine forall₂_isRenamed ?_ (fun _ => mode_of_mem_ofInstances hd)
      (fun _ => mode_of_mem_ofInstances hd')
    rw [hinstances, hinstances']
    exact h.types_firstRequests hinvocations fun r hr r' hr' heq =>
      h.named (hinvoked r hr) (hinvoked r' hr') heq

end Rearranges

end Program

end EventWrap
