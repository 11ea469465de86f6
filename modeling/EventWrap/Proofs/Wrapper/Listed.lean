import EventWrap.Proofs.Wrapper.Exposed

/-!
# Listed and offered events

The events of a type and its ancestors can be told in two ways. Collecting them all lists the first
declaration of every name that is eligible as it is seen from the type. The wrappers of the links
offer what each link declares itself, as it sees it. The two differ where a declaration that is not
eligible hides one that an ancestor offers, and where an event is eligible only with the arguments
that a type gives to its base.
-/

namespace EventWrap.Program

variable (p : Program) (t : TypeId) (isStatic : Bool)

/-! ## Listed events -/

/-- Whether an event is eligible as it is seen. -/
def isListed (e : SeenEvent) : Bool :=
  (p.describe? isStatic e.declaringType e.event e.delegate).isSome

theorem mem_names_collect {inherited : Bool} {n : String} :
    n ∈ (p.collect t inherited isStatic).names ↔
      ∃ e ∈ p.visibleEvents t inherited isStatic, p.isListed isStatic e ∧ e.event.name = n := by
  simp only [TypeEvents.names, collect, List.mem_map, mem_sortedBy, List.mem_filterMap]
  constructor
  · rintro ⟨descriptor, ⟨e, he, hd⟩, rfl⟩
    exact ⟨e, he, Option.isSome_iff_exists.2 ⟨descriptor, hd⟩, (describe?_name hd).symm⟩
  · rintro ⟨e, he, hlisted, rfl⟩
    obtain ⟨descriptor, hd⟩ := Option.isSome_iff_exists.1 hlisted
    exact ⟨descriptor, ⟨e, he, hd⟩, describe?_name hd⟩

theorem mem_ownNames_iff {n : String} :
    n ∈ p.ownNames t ↔
      ∃ e ∈ p.visibleEvents t false false, p.isListed false e ∧ e.event.name = n :=
  p.mem_names_collect t false

theorem mem_inheritedNames_iff {n : String} :
    n ∈ p.inheritedNames t ↔ ∃ a ∈ p.ancestorIds t false,
      ∃ e ∈ p.visibleEvents a false false, p.isListed false e ∧ e.event.name = n := by
  simp only [inheritedNames, List.mem_flatMap, mem_ownNames_iff]

/-- The visible events of a type itself come before those that it inherits. -/
theorem visibleEvents_prefix :
    p.visibleEvents t false isStatic <+: p.visibleEvents t true isStatic := by
  have hown : p.collectedTypes t true isStatic =
      p.collectedTypes t false isStatic ++ p.ancestorsWithEvents t isStatic := rfl
  rw [visibleEvents, visibleEvents, hown, List.flatMap_append, Occurrence.firsts_append]
  exact List.prefix_append _ _

theorem eq_of_visible {inherited : Bool} {e e' : SeenEvent}
    (he : e ∈ p.visibleEvents t inherited isStatic)
    (he' : e' ∈ p.visibleEvents t inherited isStatic) (h : e.event.name = e'.event.name) :
    e = e' :=
  List.inj_on_of_nodup_map (Occurrence.nodup_map_firsts _ _ _) he he' h

/-- Of a visible event the name is listed exactly when the event is. -/
theorem name_mem_names_collect {inherited : Bool} {e : SeenEvent}
    (he : e ∈ p.visibleEvents t inherited isStatic) :
    e.event.name ∈ (p.collect t inherited isStatic).names ↔ p.isListed isStatic e := by
  rw [mem_names_collect]
  constructor
  · rintro ⟨e', he', hlisted, hname⟩
    rwa [← p.eq_of_visible t isStatic he' he hname]
  · exact fun hlisted => ⟨e, he, hlisted, rfl⟩

/-- What a type itself declares is listed among its events with the inherited ones. -/
theorem mem_names_of_mem_ownNames {n : String} (h : n ∈ p.ownNames t) :
    n ∈ (p.collect t true false).names := by
  obtain ⟨e, he, hlisted, hname⟩ := (p.mem_ownNames_iff t).1 h
  exact (p.mem_names_collect t false).2
    ⟨e, (p.visibleEvents_prefix t false).subset he, hlisted, hname⟩

/-! ## Offered events -/

/-- Every name that a link offers is declared by a visible event. -/
theorem exists_visible_of_offered {n : String}
    (h : n ∈ p.ownNames t ∨ n ∈ p.inheritedNames t) :
    ∃ e ∈ p.visibleEvents t true false, e.event.name = n := by
  have hdeclared : ∀ a, n ∈ p.ownNames a → n ∈ (p.declaration a).events.map (·.name) := by
    intro a hn
    obtain ⟨e, he, -, rfl⟩ := (p.mem_ownNames_iff a).1 hn
    rw [visibleEvents_own] at he
    obtain ⟨d, hd, rfl⟩ := List.mem_map.1 he
    exact List.mem_map_of_mem (Occurrence.mem_of_mem_firsts hd)
  have hlink : ∃ link ∈ p.collectedTypes t true false,
      n ∈ (p.declaration link.1).events.map (·.name) := by
    rcases h with h | h
    · exact ⟨_, List.mem_cons_self, hdeclared t h⟩
    · obtain ⟨a, ha, hn⟩ := List.mem_flatMap.1 h
      obtain ⟨link, hlink, rfl⟩ := List.mem_map.1 ha
      exact ⟨link, List.mem_cons_of_mem _ hlink, hdeclared _ hn⟩
  obtain ⟨link, hmem, hn⟩ := hlink
  obtain ⟨d, hd, rfl⟩ := List.mem_map.1 hn
  have hname : d.name ∈ (p.visibleEvents t true false).map (·.event.name) := by
    apply (Occurrence.mem_map_firsts _ _ _ _).2
    refine ⟨?_, List.not_mem_nil⟩
    rw [List.map_flatMap]
    apply List.mem_flatMap.2
    refine ⟨link, hmem, ?_⟩
    rw [eventsSeen, List.map_map]
    exact List.mem_map_of_mem hd
  exact List.mem_map.1 hname

/-- Some name is offered exactly when a type has instance events. -/
theorem offersInstanceEvents_iff_exists_name :
    p.offersInstanceEvents t ↔ ∃ n, n ∈ p.ownNames t ∨ n ∈ p.inheritedNames t := by
  have hown : ∀ a, p.hasEligibleEvents a false ↔ ∃ n, n ∈ p.ownNames a := by
    intro a
    have hempty := p.isEmpty_collect_own a false
    rw [← Bool.not_eq_false, ← Bool.not_eq_true', ← hempty, TypeEvents.isEmpty, Bool.not_eq_true,
      List.isEmpty_eq_false_iff_exists_mem, ownNames, TypeEvents.names]
    simp only [List.mem_map]
    constructor
    · rintro ⟨d, hd⟩
      exact ⟨_, d, hd, rfl⟩
    · rintro ⟨_, d, hd, _⟩
      exact ⟨d, hd⟩
  rw [offersInstanceEvents, Bool.or_eq_true, hown, exists_or, Bool.not_eq_true',
    List.isEmpty_eq_false_iff_exists_mem]
  apply or_congr_right
  simp only [inheritedNames, List.mem_flatMap]
  constructor
  · rintro ⟨a, ha⟩
    obtain ⟨n, hn⟩ := (hown a).1 (hasEligibleEvents_of_mem_ancestorIds ha)
    exact ⟨n, a, ha, hn⟩
  · rintro ⟨n, a, ha, -⟩
    exact ⟨a, ha⟩

/-- A type without instance events lists none. -/
theorem names_collect_eq_nil (h : p.offersInstanceEvents t = false) :
    (p.collect t true false).names = [] := by
  rw [offersInstanceEvents, Bool.or_eq_false_iff, Bool.not_eq_false', List.isEmpty_iff] at h
  have hancestors : p.ancestorsWithEvents t false = [] := List.map_eq_nil_iff.1 h.2
  have hempty := p.isEmpty_collect_own t false
  rw [h.1, Bool.not_false, TypeEvents.isEmpty, List.isEmpty_iff] at hempty
  have hsame : p.collect t true false = p.collect t false false := by
    simp only [collect, visibleEvents, collectedTypes, hancestors, ↓reduceIte]
    rfl
  rw [hsame, TypeEvents.names, hempty, List.map_nil]

/-! ## Where the two differ -/

/-- A visible event is not eligible and hides one that an ancestor offers. -/
def Masks (e : SeenEvent) : Prop :=
  ¬ p.isListed false e ∧ e.event.name ∈ p.inheritedNames t

/-- A visible event is eligible as it is seen, but no link offers one of its name. -/
def Unlocks (e : SeenEvent) : Prop :=
  p.isListed false e ∧ e.event.name ∉ p.ownNames t ∧ e.event.name ∉ p.inheritedNames t

instance (e : SeenEvent) : Decidable (p.Masks t e) := inferInstanceAs (Decidable (_ ∧ _))

instance (e : SeenEvent) : Decidable (p.Unlocks t e) := inferInstanceAs (Decidable (_ ∧ _))

/-- No visible event makes a difference between what is listed and what is offered. -/
def ListsOffered : Prop :=
  ∀ e ∈ p.visibleEvents t true false, ¬ p.Masks t e ∧ ¬ p.Unlocks t e

instance : Decidable (p.ListsOffered t) := inferInstanceAs (Decidable (∀ e ∈ _, _))

/-- A visible event that makes no difference is listed exactly when its name is offered. -/
theorem listed_iff_offered {e : SeenEvent} (he : e ∈ p.visibleEvents t true false) :
    (p.isListed false e ↔ e.event.name ∈ p.ownNames t ∨ e.event.name ∈ p.inheritedNames t) ↔
      ¬ p.Masks t e ∧ ¬ p.Unlocks t e := by
  -- an event that the type itself offers is listed
  have hown : e.event.name ∈ p.ownNames t → p.isListed false e := fun h =>
    (p.name_mem_names_collect t false he).1 (p.mem_names_of_mem_ownNames t h)
  unfold Masks Unlocks
  tauto

/-- What is listed is what is offered exactly when no visible event makes a difference. -/
theorem listsOffered_iff : p.ListsOffered t ↔
    ∀ n, n ∈ (p.collect t true false).names ↔ n ∈ p.ownNames t ∨ n ∈ p.inheritedNames t := by
  constructor
  · intro h n
    constructor
    · intro hn
      obtain ⟨e, he, hlisted, rfl⟩ := (p.mem_names_collect t false).1 hn
      exact ((p.listed_iff_offered t he).2 (h e he)).1 hlisted
    · intro hn
      obtain ⟨e, he, rfl⟩ := p.exists_visible_of_offered t hn
      exact (p.name_mem_names_collect t false he).2 (((p.listed_iff_offered t he).2 (h e he)).2 hn)
  · intro h e he
    apply (p.listed_iff_offered t he).1
    rw [← p.name_mem_names_collect t false he]
    exact h e.event.name

/-- Where no event is hidden by one that is not eligible, a type that lists nothing has no instance
events. -/
theorem offersInstanceEvents_eq_false (h : ∀ e ∈ p.visibleEvents t true false, ¬ p.Masks t e)
    (hnone : (p.collect t true false).names = []) : p.offersInstanceEvents t = false := by
  rw [Bool.eq_false_iff]
  intro hoffers
  obtain ⟨n, hn⟩ := (p.offersInstanceEvents_iff_exists_name t).1 hoffers
  obtain ⟨e, he, rfl⟩ := p.exists_visible_of_offered t hn
  have hunlisted : ¬ p.isListed false e := by
    rw [← p.name_mem_names_collect t false he, hnone]
    exact List.not_mem_nil
  rcases hn with hn | hn
  · have hmem := p.mem_names_of_mem_ownNames t hn
    rw [hnone] at hmem
    exact List.not_mem_nil hmem
  · exact h e he ⟨hunlisted, hn⟩

end EventWrap.Program
