import EventWrap.Pass.Chain
import EventWrap.Proofs.Events.Ancestry
import EventWrap.Proofs.Events.Collected

/-!
# Chains of wrappers

A link of a chain has a wrapper exactly when its type or an ancestor of it has eligible events. The
wrappers for a chain are built one on the other: each is new, and is made from what the ones before
it expose. Afterwards every link of the chain has a wrapper. Without cycles each one finds the
wrappers of all its ancestors with events.
-/

namespace EventWrap

/-- What the instance wrappers among some delivered ones expose, the latest first. -/
def exposureOf (wrappers : List Wrapper) : Exposure :=
  ((wrappers.filter (·.mode = .ofInstance)).map fun w => (w.source, w.exposed)).reverse

@[simp] theorem exposureOf_nil : exposureOf [] = [] := rfl

theorem exposureOf_append (ws ws' : List Wrapper) :
    exposureOf (ws ++ ws') = exposureOf ws' ++ exposureOf ws := by
  simp [exposureOf]

theorem exposureOf_instance {w : Wrapper} (h : w.mode = .ofInstance) :
    exposureOf [w] = [(w.source, w.exposed)] := by
  simp [exposureOf, h]

theorem exposureOf_static {w : Wrapper} (h : w.mode = .ofStatics) : exposureOf [w] = [] := by
  simp [exposureOf, h]

theorem exposureOf_cons {w : Wrapper} (h : w.mode = .ofInstance) (ws : List Wrapper) :
    exposureOf (w :: ws) = exposureOf ws ++ [(w.source, w.exposed)] := by
  rw [← exposureOf_instance h, ← exposureOf_append]
  rfl

/-- The types in an exposure are those of the instance wrappers. -/
theorem lookup_exposureOf_isSome {ws : List Wrapper} {t : TypeId} :
    ((exposureOf ws).lookup t).isSome ↔ ∃ w ∈ ws, w.mode = .ofInstance ∧ w.source = t := by
  simp only [exposureOf, List.lookup_isSome_iff, List.mem_reverse, List.mem_map, List.mem_filter,
    decide_eq_true_eq]
  constructor
  · rintro ⟨_, ⟨w, ⟨hw, hm⟩, rfl⟩, ht⟩
    exact ⟨w, hw, hm, (beq_iff_eq.1 ht).symm⟩
  · rintro ⟨w, hw, hm, rfl⟩
    exact ⟨_, ⟨w, ⟨hw, hm⟩, rfl⟩, beq_self_eq_true _⟩

theorem lookup_append_isSome {known known' : Exposure} {t : TypeId} :
    ((known ++ known').lookup t).isSome ↔ (known.lookup t).isSome ∨ (known'.lookup t).isSome := by
  rw [List.lookup_append, Option.isSome_or, Bool.or_eq_true]

namespace Program

variable {p : Program} {s : Settings} {known : Exposure} {t a : TypeId} {w : Wrapper}

/-! ## A single link -/

/-- Whether a type or one of its ancestors has eligible instance events. -/
def offersInstanceEvents (p : Program) (t : TypeId) : Bool :=
  p.hasEligibleEvents t false || !(p.ancestorIds t false).isEmpty

theorem synthesize_isSome (plan : WrapperPlan) :
    (p.synthesize s plan).isSome = (!plan.events.isEmpty || plan.evenEmpty) := by
  simp only [synthesize]
  cases plan.events.isEmpty <;> cases plan.evenEmpty <;> rfl

theorem exists_synthesize {plan : WrapperPlan}
    (h : plan.events.isEmpty = false ∨ plan.evenEmpty = true) :
    ∃ w, p.synthesize s plan = some w := by
  rw [← Option.isSome_iff_exists, synthesize_isSome, Bool.or_eq_true, Bool.not_eq_true']
  exact h

/-- A type with eligible events of its own has a wrapper of these. -/
theorem exists_synthesize_own {mode : WrapperMode} {isStatic : Bool}
    (h : p.hasEligibleEvents t isStatic = true) :
    ∃ w, p.synthesize s { events := p.collect t false isStatic, mode := mode } = some w := by
  apply exists_synthesize
  rw [isEmpty_collect_own, h]
  exact .inl rfl

/-- What a wrapper has from its plan. -/
theorem eq_of_synthesize {plan : WrapperPlan} (h : p.synthesize s plan = some w) :
    w.source = plan.events.type ∧ w.mode = plan.mode ∧
      w.parent = (if plan.mode.isStatic then none else plan.parent) ∧ w.events = plan.events.names ∧
      w.declaration = p.wrapperClass s plan.mode w.parent plan.events := by
  simp only [synthesize] at h
  split at h
  · cases h
  · cases h
    exact ⟨rfl, rfl, rfl, rfl, rfl⟩

/-- A parent is for the first of the ancestors with events, and is made from what is known of it. -/
theorem ancestorIds_of_parentWrapper? {parent : ParentWrapper}
    (h : p.parentWrapper? known t = some parent) :
    (∃ further, p.ancestorIds t false = parent.type :: further) ∧
      parent.exposed = (known.lookup parent.type).getD [] := by
  rw [parentWrapper?] at h
  rw [ancestorIds]
  cases ha : p.ancestorsWithEvents t false with
  | nil =>
    rw [ha] at h
    cases h
  | cons a further =>
    rw [ha] at h
    cases h
    exact ⟨⟨_, rfl⟩, rfl⟩

theorem parentWrapper?_isSome (known : Exposure) (t : TypeId) :
    (p.parentWrapper? known t).isSome = !(p.ancestorIds t false).isEmpty := by
  rw [parentWrapper?, ancestorIds, Option.isSome_map, List.isEmpty_map]
  cases p.ancestorsWithEvents t false <;> rfl

theorem linkWrapper?_isSome (known : Exposure) (t : TypeId) :
    (p.linkWrapper? s known t).isSome = p.offersInstanceEvents t := by
  rw [linkWrapper?, synthesize_isSome, isEmpty_collect_own, Bool.not_not, parentWrapper?_isSome]
  rfl

section Link

variable (h : p.linkWrapper? s known t = some w)

include h

theorem source_of_linkWrapper? : w.source = t := (eq_of_synthesize h).1

theorem mode_of_linkWrapper? : w.mode = .ofInstance := (eq_of_synthesize h).2.1

theorem parent_of_linkWrapper? : w.parent = p.parentWrapper? known t := (eq_of_synthesize h).2.2.1

theorem events_of_linkWrapper? : w.events = (p.collect t false false).names :=
  (eq_of_synthesize h).2.2.2.1

theorem declaration_of_linkWrapper? :
    w.declaration = p.wrapperClass s .ofInstance w.parent (p.collect t false false) :=
  (eq_of_synthesize h).2.2.2.2

end Link

theorem mode_of_staticWrapper? (h : p.staticWrapper? s t = some w) :
    w.source = t ∧ w.mode = .ofStatics :=
  ⟨(eq_of_synthesize h).1, (eq_of_synthesize h).2.1⟩

/-! ## The links of a request -/

theorem links_eq (p : Program) (t : TypeId) :
    p.links t = (p.ancestorIds t false).reverse ++ [t] := by
  rw [links, ancestorIds, List.map_reverse]

theorem mem_links : a ∈ p.links t ↔ a = t ∨ a ∈ p.ancestorIds t false := by
  rw [links_eq, List.mem_append, List.mem_reverse, List.mem_singleton, or_comm]

theorem instanceWrappers?_eq (p : Program) (s : Settings) (known : Exposure) (t : TypeId) :
    p.instanceWrappers? s known t =
      if p.offersInstanceEvents t then some (p.linkWrappers s known (p.links t)) else none := by
  rw [instanceWrappers?, isEmpty_collect_own, offersInstanceEvents, ancestorIds, List.isEmpty_map]
  cases p.hasEligibleEvents t false <;> cases (p.ancestorsWithEvents t false).isEmpty <;> rfl

/-- Every link of a request that can be answered has a wrapper of its own. -/
theorem offers_of_mem_links (ht : p.offersInstanceEvents t) (ha : a ∈ p.links t) :
    p.offersInstanceEvents a := by
  rcases mem_links.1 ha with rfl | ha
  · exact ht
  · rw [offersInstanceEvents, hasEligibleEvents_of_mem_ancestorIds ha]
    rfl

/-! ## Building a chain -/

theorem linkWrappers_cons (p : Program) (s : Settings) (known : Exposure) (link : TypeId)
    (rest : List TypeId) :
    p.linkWrappers s known (link :: rest) =
      if (known.lookup link).isSome then p.linkWrappers s known rest
      else match p.linkWrapper? s known link with
        | some w => w :: p.linkWrappers s ((link, w.exposed) :: known) rest
        | none => p.linkWrappers s known rest := rfl

theorem source_of_mem_linkWrappers {links : List TypeId} (h : w ∈ p.linkWrappers s known links) :
    w.source ∈ links := by
  induction links generalizing known with
  | nil => cases h
  | cons link rest ih =>
    rw [linkWrappers_cons] at h
    split at h
    · exact List.mem_cons_of_mem _ (ih h)
    · split at h
      · next v hv =>
        rcases List.mem_cons.1 h with rfl | h
        · rw [source_of_linkWrapper? hv]
          exact List.mem_cons_self
        · exact List.mem_cons_of_mem _ (ih h)
      · exact List.mem_cons_of_mem _ (ih h)

/-- Once its wrappers are delivered, every link of a chain has one. -/
theorem lookup_linkWrappers_isSome {links : List TypeId}
    (hoffers : ∀ link ∈ links, p.offersInstanceEvents link)
    (ha : a ∈ links) : ((exposureOf (p.linkWrappers s known links) ++ known).lookup a).isSome := by
  induction links generalizing known with
  | nil => cases ha
  | cons link rest ih =>
    have hrest : ∀ l ∈ rest, p.offersInstanceEvents l :=
      fun l hl => hoffers l (List.mem_cons_of_mem _ hl)
    rw [linkWrappers_cons]
    split
    · next hknown =>
      rcases List.mem_cons.1 ha with rfl | ha
      · exact lookup_append_isSome.2 (.inr hknown)
      · exact ih hrest ha
    · obtain ⟨v, hv⟩ := Option.isSome_iff_exists.1
        ((linkWrapper?_isSome (s := s) known link).trans (hoffers link List.mem_cons_self))
      rw [hv]
      simp only
      rw [exposureOf_cons (mode_of_linkWrapper? hv), source_of_linkWrapper? hv, List.append_assoc]
      rcases List.mem_cons.1 ha with rfl | ha
      · exact lookup_append_isSome.2 (.inr (by simp))
      · exact ih hrest ha

/-- A wrapper that is new and made from what is known, with all ancestors of its type known. -/
structure Fits (p : Program) (s : Settings) (known : Exposure) (w : Wrapper) : Prop where
  fresh : known.lookup w.source = none
  built : p.linkWrapper? s known w.source = some w
  below : ∀ a ∈ p.ancestorIds w.source false, (known.lookup a).isSome

namespace Fits

variable (h : p.Fits s known w)

include h

/-- The parent of a fitting wrapper is for the nearest ancestor with events, which is known. -/
theorem of_parent (hp : p.Acyclic) {parent : ParentWrapper} (hparent : w.parent = some parent) :
    p.IsNearestWithEvents false w.source parent.type ∧ (known.lookup parent.type).isSome := by
  rw [parent_of_linkWrapper? h.built] at hparent
  obtain ⟨⟨further, hids⟩, -⟩ := ancestorIds_of_parentWrapper? hparent
  exact ⟨isNearestWithEvents_of_cons hp hids, h.below _ (hids ▸ List.mem_cons_self)⟩

theorem parent_eq_none (hp : p.Acyclic) :
    w.parent = none ↔ ∀ a, p.HasAncestor w.source a → ¬ p.hasEligibleEvents a false := by
  have hnone : w.parent = none ↔ p.ancestorIds w.source false = [] := by
    rw [parent_of_linkWrapper? h.built, ← Option.not_isSome_iff_eq_none, parentWrapper?_isSome]
    simp
  rw [hnone, List.eq_nil_iff_forall_not_mem]
  constructor
  · intro hnil a ha he
    exact hnil a ((mem_ancestorIds hp).2 ⟨ha, he⟩)
  · intro hall a ha
    obtain ⟨hanc, he⟩ := (mem_ancestorIds hp).1 ha
    exact hall a hanc he

end Fits

/-- Wrappers of which each fits what is known when those before it are delivered. -/
inductive FitInTurn (p : Program) (s : Settings) : Exposure → List Wrapper → Prop
  | nil {known : Exposure} : FitInTurn p s known []
  | cons {known : Exposure} {w : Wrapper} {rest : List Wrapper} : p.Fits s known w →
      FitInTurn p s ((w.source, w.exposed) :: known) rest → FitInTurn p s known (w :: rest)

/-- Wrappers for links of which each comes after its ancestors fit in turn. -/
theorem fitInTurn_linkWrappers {links : List TypeId}
    (hoffers : ∀ link ∈ links, p.offersInstanceEvents link)
    (horder : ∀ before t after, links = before ++ t :: after →
      ∀ a ∈ p.ancestorIds t false, a ∈ before ∨ (known.lookup a).isSome) :
    p.FitInTurn s known (p.linkWrappers s known links) := by
  induction links generalizing known with
  | nil => exact .nil
  | cons link rest ih =>
    have hrest : ∀ l ∈ rest, p.offersInstanceEvents l :=
      fun l hl => hoffers l (List.mem_cons_of_mem _ hl)
    have hlater : ∀ before t after, rest = before ++ t :: after → ∀ a ∈ p.ancestorIds t false,
        a = link ∨ a ∈ before ∨ (known.lookup a).isSome := by
      intro before t after hsplit a ha
      rcases horder (link :: before) t after (by rw [hsplit]; rfl) a ha with h | h
      · rcases List.mem_cons.1 h with h | h
        · exact .inl h
        · exact .inr (.inl h)
      · exact .inr (.inr h)
    rw [linkWrappers_cons]
    split
    · next hknown =>
      apply ih hrest
      intro before t after hsplit a ha
      rcases hlater before t after hsplit a ha with rfl | h
      · exact .inr hknown
      · exact h
    · next hknown =>
      obtain ⟨v, hv⟩ := Option.isSome_iff_exists.1
        ((linkWrapper?_isSome (s := s) known link).trans (hoffers link List.mem_cons_self))
      have hsource := source_of_linkWrapper? hv
      rw [hv]
      refine .cons ⟨?_, ?_, ?_⟩ ?_
      · rw [hsource]
        exact Option.not_isSome_iff_eq_none.1 hknown
      · rw [hsource, hv]
      · rw [hsource]
        intro a ha
        exact (horder [] link rest rfl a ha).resolve_left List.not_mem_nil
      · rw [hsource]
        apply ih hrest
        intro before t after hsplit a ha
        rcases hlater before t after hsplit a ha with rfl | h | h
        · exact .inr (by simp)
        · exact .inl h
        · right
          rw [← List.singleton_append]
          exact lookup_append_isSome.2 (.inr h)

/-- Without cycles the links of a request come in order: each after its own ancestors. -/
theorem ancestors_before_links (hp : p.Acyclic) {before after : List TypeId}
    (h : p.links t = before ++ a :: after) : ∀ b ∈ p.ancestorIds a false, b ∈ before := by
  rw [links_eq] at h
  rcases List.append_eq_append_iff.1 h with ⟨middle, hbefore, hlast⟩ | ⟨middle, hancestors, hlast⟩
  · -- the link is the requested type itself
    cases middle with
    | nil =>
      obtain ⟨rfl, -⟩ := List.cons.inj hlast
      intro b hb
      rw [hbefore, List.append_nil]
      exact List.mem_reverse.2 hb
    | cons c middle =>
      have := congrArg List.length hlast
      simp at this
  · cases middle with
    | nil =>
      obtain ⟨rfl, -⟩ := List.cons.inj hlast
      rw [List.append_nil] at hancestors
      intro b hb
      rw [← hancestors]
      exact List.mem_reverse.2 hb
    | cons c middle =>
      obtain ⟨rfl, -⟩ := List.cons.inj hlast
      have hids : p.ancestorIds t false = middle.reverse ++ a :: before.reverse := by
        rw [← List.reverse_reverse (p.ancestorIds t false), hancestors]
        simp
      rw [ancestorIds_of_append_cons hp hids]
      intro b hb
      exact List.mem_reverse.1 hb

theorem fitInTurn_links (hp : p.Acyclic) (ht : p.offersInstanceEvents t) (known : Exposure) :
    p.FitInTurn s known (p.linkWrappers s known (p.links t)) :=
  fitInTurn_linkWrappers (fun _ ha => offers_of_mem_links ht ha)
    fun _ _ _ hsplit b hb => .inl (ancestors_before_links hp hsplit b hb)

end Program

end EventWrap
