import EventWrap.Proofs.Wrapper.Grown

/-!
# Exposed events

An instance wrapper exposes the events of its type together with those of all its ancestors with
events, and hides exactly the names that the ancestors have. What it was handed on by its parent
does not depend on when and for which request the parent was made.
-/

namespace EventWrap

open Code

theorem mem_sortedNames {names : List String} {n : String} : n ∈ sortedNames names ↔ n ∈ names := by
  have hfirsts := Occurrence.mem_map_firsts (id : String → String) [] names n
  rw [List.map_id, List.map_id] at hfirsts
  rw [sortedNames, mem_sortedBy, hfirsts]
  simp

theorem sortedNames_sorted (names : List String) : (sortedNames names).Pairwise fun a b => a < b :=
  sortedBy_pairwise_lt (Occurrence.nodup_map_firsts _ _ _)

theorem Wrapper.mem_exposed {w : Wrapper} {n : String} :
    n ∈ w.exposed ↔ n ∈ w.events ∨ n ∈ w.inherited := by
  rw [exposed, mem_sortedNames, List.mem_append]

/-- What is looked up in an exposure is what a delivered wrapper exposes. -/
theorem exists_of_lookup_exposureOf {ws : List Wrapper} {t : TypeId} {names : List String}
    (h : (exposureOf ws).lookup t = some names) :
    ∃ w ∈ ws, w.mode = .ofInstance ∧ w.source = t ∧ w.exposed = names := by
  have hmem : (t, names) ∈ exposureOf ws := by
    obtain ⟨before, after, hsplit, -⟩ := List.lookup_eq_some_iff.1 h
    rw [hsplit]
    exact List.mem_append_right _ List.mem_cons_self
  simp only [exposureOf, List.mem_reverse, List.mem_map, List.mem_filter, decide_eq_true_eq] at hmem
  obtain ⟨w, ⟨hw, hm⟩, heq⟩ := hmem
  obtain ⟨hsource, hnames⟩ := Prod.mk.inj heq
  exact ⟨w, hw, hm, hsource, hnames⟩

namespace Program

variable {p : Program} {s : Settings} {requests : List Request} {ws : List Wrapper} {w : Wrapper}

/-- The names of the events of a type itself. -/
def ownNames (p : Program) (t : TypeId) : List String := (p.collect t false false).names

/-- The names of the events of all ancestors with events. -/
def inheritedNames (p : Program) (t : TypeId) : List String :=
  (p.ancestorIds t false).flatMap p.ownNames

/-- A wrapper exposes its own events and those of all ancestors. -/
def ExposesAll (p : Program) (w : Wrapper) : Prop :=
  ∀ n, n ∈ w.exposed ↔ n ∈ p.ownNames w.source ∨ n ∈ p.inheritedNames w.source

/-- A wrapper that fits inherits all events of the ancestors, when what is known does. -/
theorem mem_inherited (hp : p.Acyclic) (hfits : p.Fits s (exposureOf ws) w)
    (hall : ∀ v ∈ ws, v.mode = .ofInstance → p.ExposesAll v) (n : String) :
    n ∈ w.inherited ↔ n ∈ p.inheritedNames w.source := by
  have hparent := parent_of_linkWrapper? hfits.built
  rw [Wrapper.inherited, hparent]
  cases hpar : p.parentWrapper? (exposureOf ws) w.source with
  | none =>
    have hnil : p.ancestorIds w.source false = [] := by
      have hsome := parentWrapper?_isSome (p := p) (exposureOf ws) w.source
      rw [hpar] at hsome
      simpa using hsome.symm
    rw [inheritedNames, hnil]
    rfl
  | some parent =>
    obtain ⟨⟨further, hids⟩, hexposed⟩ := ancestorIds_of_parentWrapper? hpar
    obtain ⟨names, hnames⟩ :=
      Option.isSome_iff_exists.1 (hfits.below parent.type (hids ▸ List.mem_cons_self))
    obtain ⟨v, hv, hm, hsource, rfl⟩ := exists_of_lookup_exposureOf hnames
    rw [hnames, Option.getD_some] at hexposed
    -- what follows the parent's type among the ancestors are the ancestors of the parent's type
    have hrest : p.ancestorIds parent.type false = further :=
      ancestorIds_of_append_cons hp
        (show p.ancestorIds w.source false = [] ++ parent.type :: further from hids)
    rw [Option.map_some, Option.getD_some, hexposed, hall v hv hm n, hsource, inheritedNames,
      inheritedNames, hids, hrest, List.flatMap_cons, List.mem_append]

/-- In a grown list every instance wrapper exposes its own events and those of all ancestors. -/
theorem Grown.exposesAll (hp : p.Acyclic) (h : p.Grown s requests ws) :
    ∀ w ∈ ws, w.mode = .ofInstance → p.ExposesAll w := by
  induction h with
  | none => exact fun _ hw => absurd hw List.not_mem_nil
  | @append ws v _ hadmits ih =>
    intro w hw hm
    rcases List.mem_append.1 hw with hw | hw
    · exact ih w hw hm
    · rw [List.mem_singleton] at hw
      subst hw
      have hfits := hadmits.fits hm
      intro n
      rw [Wrapper.mem_exposed, mem_inherited hp hfits ih, events_of_linkWrapper? hfits.built]
      rfl

/-! ## Hiding -/

theorem properties_wrapperClass (p : Program) (s : Settings) (mode : WrapperMode)
    (parent : Option ParentWrapper) (t : TypeEvents) :
    (p.wrapperClass s mode parent t).properties = t.events.map fun e =>
      p.eventProperty s mode (p.eventTarget t.type mode)
        (((parent.map (·.exposed)).getD []).contains e.name) e := by
  cases mode <;>
    simp [wrapperClass, ClassBlock.properties, holdingMembers, List.filterMap_map,
      WrapperMode.isStatic]

theorem hiding_mem_eventProperty (s : Settings) (mode : WrapperMode) (target : Expr) (hides : Bool)
    (e : EventDescriptor) :
    Modifier.hiding ∈ (p.eventProperty s mode target hides e).modifiers ↔ hides := by
  cases mode <;> cases hides <;> simp [eventProperty, WrapperMode.isStatic]

/-- In a grown list the properties of an instance wrapper are those of its type's own events, and
the hiding ones are those whose name an ancestor has. -/
theorem Grown.properties (hp : p.Acyclic) (h : p.Grown s requests ws) (hw : w ∈ ws)
    (hm : w.mode = .ofInstance) :
    List.Forall₂ (fun e q => q.name = escape e.name ∧
      (Modifier.hiding ∈ q.modifiers ↔ e.name ∈ p.inheritedNames w.source))
      (p.collect w.source false false).events w.declaration.properties := by
  obtain ⟨before, after, hws⟩ := List.append_of_mem hw
  obtain ⟨hbefore, hadmits⟩ := h.at_split hws
  have hfits := hadmits.fits hm
  rw [declaration_of_linkWrapper? hfits.built, properties_wrapperClass, List.forall₂_map_right_iff,
    List.forall₂_same]
  intro e _
  refine ⟨rfl, ?_⟩
  rw [hiding_mem_eventProperty, List.contains_iff_mem]
  exact mem_inherited hp hfits (hbefore.exposesAll hp) e.name

end Program

end EventWrap
