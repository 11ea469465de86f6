import EventWrap.Proofs.Document.Scoping
import EventWrap.Proofs.Occurrence
import EventWrap.Wrapper.Factory

/-!
# The class of the factory methods

The factory methods of a pass stand in one class, sorted by the metadata names of the types that
they extend. The index of a program gives every type a name of its own, so that methods for distinct
types have distinct names to be sorted by, and the order in which they were made is forgotten.
-/

namespace EventWrap

open Code

/-! ## Classes of a unit -/

/-- The first class of a unit is its only one, in whichever namespace. -/
theorem Code.SourceUnit.classes_addClass_of_empty {u : SourceUnit} (hnamespaces : u.namespaces = [])
    (hglobals : u.globals = []) (namespaceName : String) (c : ClassBlock) :
    (u.addClass namespaceName c).classes = [c] := by
  rw [addClass]
  split <;> simp [classes, addToNamespace, hnamespaces, hglobals]

namespace Settings

variable (s : Settings) {factories others : List FactoryMethod}

theorem extensionsUnit_eq_some (h : factories ≠ []) : s.extensionsUnit factories =
    some (s.emptyUnit.addClass s.extensionsNamespace (s.extensionsClassOf factories)) := by
  rw [extensionsUnit, if_neg (by simpa using h)]

theorem renderExtensions_eq_none_iff : s.renderExtensions factories = none ↔ factories = [] := by
  rw [renderExtensions, Option.map_eq_none_iff, extensionsUnit]
  split <;> simp_all

/-- Sorting by distinct keys makes one class of all orders. -/
theorem renderExtensions_eq_of_perm (hperm : others.Perm factories)
    (hkeys : (factories.map (·.sortKey)).Nodup) :
    s.renderExtensions others = s.renderExtensions factories := by
  have hclass : s.extensionsClassOf others = s.extensionsClassOf factories := by
    rw [extensionsClassOf, extensionsClassOf, sortedBy_eq_of_perm hperm.symm hkeys]
  rw [renderExtensions, renderExtensions, extensionsUnit, extensionsUnit, hclass, hperm.isEmpty_eq]

end Settings

namespace Program

variable {p : Program} {factories : List FactoryMethod}

/-! ## Methods for distinct types -/

/-- A factory method that was made for a type of the program, with whichever settings. -/
def IsFactory (p : Program) (f : FactoryMethod) : Prop :=
  f.source < p.size ∧ ∃ s w, p.factory? s w = some f

theorem IsFactory.sortKey_eq {f : FactoryMethod} (h : p.IsFactory f) :
    f.sortKey = p.metadataName f.source := by
  obtain ⟨-, s, w, hfactory⟩ := h
  rw [factory?] at hfactory
  split at hfactory <;> cases hfactory
  rfl

theorem map_sortKey (hmade : ∀ f ∈ factories, p.IsFactory f) :
    factories.map (·.sortKey) = factories.map fun f => p.metadataName f.source :=
  List.map_congr_left fun f hf => (hmade f hf).sortKey_eq

/-- Distinct types have distinct metadata names, and so have the methods that extend them. -/
theorem nodup_sortKeys (h : p.Indexed) (hmade : ∀ f ∈ factories, p.IsFactory f)
    (hdistinct : (factories.map (·.source)).Nodup) : (factories.map (·.sortKey)).Nodup := by
  have hnames : ((factories.map (·.source)).map p.metadataName).Nodup := by
    apply hdistinct.map_on
    intro a ha b hb hname
    obtain ⟨f, hf, rfl⟩ := List.mem_map.1 ha
    obtain ⟨g, hg, rfl⟩ := List.mem_map.1 hb
    exact h.eq_of_metadataName_eq (hmade f hf).1 (hmade g hg).1 hname
  rw [map_sortKey hmade]
  rwa [List.map_map] at hnames

/-- However the methods for distinct types are ordered, the file of all of them is the same. There
is none without methods. Else it holds one class, which has each of the methods once, strictly in
the order of the metadata names of the extended types. -/
theorem renderExtensions_of_distinct (h : p.Reached) (s : Settings)
    (hmade : ∀ f ∈ factories, p.IsFactory f) (hdistinct : (factories.map (·.source)).Nodup) :
    (∀ others, others.Perm factories →
      s.renderExtensions others = s.renderExtensions factories) ∧
    (s.renderExtensions factories = none ↔ factories = []) ∧
    (factories ≠ [] → ∃ (unit : SourceUnit) (block : ClassBlock)
      (ordered : List FactoryMethod),
      s.extensionsUnit factories = some unit ∧ s.renderExtensions factories = some unit.render ∧
      unit.classes = [block] ∧ block.members = ordered.map (fun f => .method f.declaration) ∧
      ordered.Perm factories ∧
      ordered.Pairwise fun f g => p.metadataName f.source < p.metadataName g.source) := by
  have hkeys := nodup_sortKeys h.indexed hmade hdistinct
  refine ⟨fun others hperm => s.renderExtensions_eq_of_perm hperm hkeys,
    s.renderExtensions_eq_none_iff, fun hsome => ?_⟩
  let block := s.extensionsClassOf factories
  let ordered := sortedBy (·.sortKey) factories
  have hperm : ordered.Perm factories := sortedBy_perm _ _
  have hsorted : ordered.Pairwise fun f g => p.metadataName f.source < p.metadataName g.source := by
    apply (sortedBy_pairwise_lt hkeys).imp_of_mem
    intro f g hf hg hlt
    rwa [(hmade f (hperm.subset hf)).sortKey_eq, (hmade g (hperm.subset hg)).sortKey_eq] at hlt
  have hunit := s.extensionsUnit_eq_some hsome
  refine ⟨s.emptyUnit.addClass s.extensionsNamespace block, block, ordered, hunit, ?_,
    SourceUnit.classes_addClass_of_empty rfl rfl _ _, rfl, hperm, hsorted⟩
  rw [Settings.renderExtensions, hunit, Option.map_some]

theorem withNested_extensions_sorted : ∃ f g, withNested.IsFactory f ∧ withNested.IsFactory g ∧
    f.source = 31 ∧ g.source = 30 ∧
    Settings.renderExtensions {} [f, g] = Settings.renderExtensions {} [g, f] ∧
    ∃ (unit : SourceUnit) (block : ClassBlock),
      Settings.extensionsUnit {} [f, g] = some unit ∧ unit.classes = [block] ∧
      block.members = [.method g.declaration, .method f.declaration] := by
  have hreached : withNested.Reached := .step reached_withOuter fun _ _ hop _ => nomatch hop
  -- a wrapper of any type, also of one without events
  have hmake : ∀ id, ∃ w f, withNested.synthesize {} {
      events := withNested.collect id false false
      mode := .ofInstance
      evenEmpty := true } = some w ∧ withNested.factory? {} w = some f ∧ f.source = id := by
    intro id
    rw [synthesize, if_neg (by simp)]
    exact ⟨_, _, rfl, rfl, rfl⟩
  have hsize : withNested.size = 32 := by decide
  obtain ⟨v, f, -, hf, hinner⟩ := hmake 31
  obtain ⟨w, g, -, hg, houter⟩ := hmake 30
  have hmadeInner : withNested.IsFactory f := ⟨by rw [hinner, hsize]; decide, _, v, hf⟩
  have hmadeOuter : withNested.IsFactory g := ⟨by rw [houter, hsize]; decide, _, w, hg⟩
  have hmade : ∀ e ∈ [f, g], withNested.IsFactory e := by simp [hmadeInner, hmadeOuter]
  have hdistinct : ([f, g].map (·.source)).Nodup := by simp [hinner, houter]
  obtain ⟨hsame, -, hclass⟩ := renderExtensions_of_distinct hreached {} hmade hdistinct
  obtain ⟨unit, block, ordered, hunit, -, hclasses, hmembers, hperm, hsorted⟩ :=
    hclass (List.cons_ne_nil _ _)
  have hlt : withNested.metadataName 30 < withNested.metadataName 31 := by decide
  have hordered : ordered = [g, f] := by
    apply eq_of_perm_of_sorted (hperm.trans (.swap g f [])) hsorted
    simpa [houter, hinner] using hlt
  refine ⟨f, g, hmadeInner, hmadeOuter, hinner, houter, (hsame _ (.swap f g [])).symm, unit, block,
    hunit, hclasses, ?_⟩
  rw [hmembers, hordered]
  rfl

end Program

end EventWrap
