import EventWrap.Proofs.Events.BaseChain
import Mathlib.Logic.Relation

/-!
# Ancestors in programs without cycles

Ancestors are the types reached by following base types. Where no type is its own ancestor, the
base chain of a type lists all its ancestors, and the chain of its base is the rest of it. So the
ancestors with events of a type are the nearest one, followed by that one's own.
-/

namespace EventWrap.Program

/-- The types reached from a type by following base types. -/
def HasAncestor (p : Program) : TypeId → TypeId → Prop := Relation.TransGen p.DerivesFrom

/-- No type is its own ancestor. -/
def Acyclic (p : Program) : Prop := ∀ t, ¬ p.HasAncestor t t

/-- The ancestor with events that all others are ancestors of. -/
structure IsNearestWithEvents (p : Program) (isStatic : Bool) (t a : TypeId) : Prop where
  ancestor : p.HasAncestor t a
  eligible : p.hasEligibleEvents a isStatic
  nearest : ∀ b, p.HasAncestor t b → p.hasEligibleEvents b isStatic → b = a ∨ p.HasAncestor a b

/-- The ancestors with events, nearest first, without their arguments. -/
def ancestorIds (p : Program) (t : TypeId) (isStatic : Bool) : List TypeId :=
  (p.ancestorsWithEvents t isStatic).map (·.1)

variable {p : Program} {isStatic : Bool} {t a b : TypeId}

/-- Where every base is declared before the types written over it, there are no cycles. -/
theorem acyclic_of_base_lt (h : ∀ t < p.size, ∀ b ∈ p.baseType? t, b < t) : p.Acyclic := by
  have hlt : ∀ {t a}, p.HasAncestor t a → a < t := by
    intro t a hancestor
    induction hancestor with
    | single hstep => exact h _ hstep.lt_size _ hstep
    | tail _ hstep ih => exact Nat.lt_trans (h _ hstep.lt_size _ hstep) ih
  exact fun t ht => Nat.lt_irrefl t (hlt ht)

/-! ## The base chain -/

theorem hasAncestor_of_isChain {l : List TypeId} (h : List.IsChain p.DerivesFrom (t :: l))
    (ha : a ∈ l) : p.HasAncestor t a := by
  induction l generalizing t with
  | nil => cases ha
  | cons b l ih =>
    obtain ⟨hb, hrest⟩ := List.isChain_cons_cons.1 h
    rcases List.mem_cons.1 ha with rfl | ha
    · exact .single hb
    · exact .head hb (ih hrest ha)

/-- Without cycles a type comes before the base chain of its base. -/
theorem IsBaseChain.cons (hp : p.Acyclic) (hb : p.DerivesFrom t b) {l : List TypeId}
    (h : p.IsBaseChain b l) : p.IsBaseChain t (b :: l) := by
  have hfollows : List.IsChain p.DerivesFrom (t :: b :: l) :=
    List.isChain_cons_cons.2 ⟨hb, h.follows⟩
  refine ⟨hfollows, List.nodup_cons.2 ⟨fun ht => ?_, h.nodup⟩, ?_⟩
  · exact hp t (hasAncestor_of_isChain hfollows ht)
  · rw [List.getLastD_cons]
    exact EndsAt.of_forall fun c hc => List.mem_cons_of_mem t (h.ends.mem hc)

/-- The base chain of a type is its base, followed by the base chain of that. -/
theorem map_fst_baseChain_cons (hp : p.Acyclic) (h : p.DerivesFrom t b) :
    (p.baseChain t).map (·.1) = b :: (p.baseChain b).map (·.1) :=
  (isBaseChain_iff.1 ((p.isBaseChain_baseChain b).cons hp h)).symm

/-- The base chain lists exactly the ancestors. -/
theorem mem_map_fst_baseChain (hp : p.Acyclic) :
    a ∈ (p.baseChain t).map (·.1) ↔ p.HasAncestor t a := by
  constructor
  · exact hasAncestor_of_isChain (p.isBaseChain_baseChain t).follows
  · intro h
    induction h using Relation.TransGen.head_induction_on with
    | single h =>
      rw [map_fst_baseChain_cons hp h]
      exact List.mem_cons_self
    | head h _ ih =>
      rw [map_fst_baseChain_cons hp h]
      exact List.mem_cons_of_mem _ ih

/-! ## Ancestors with events -/

theorem ancestorIds_eq_filter (p : Program) (t : TypeId) (isStatic : Bool) :
    p.ancestorIds t isStatic = ((p.baseChain t).map (·.1)).filter fun a =>
      p.hasEligibleEvents a isStatic := by
  rw [ancestorIds, ancestorsWithEvents, List.filter_map]
  rfl

theorem hasEligibleEvents_of_mem_ancestorIds (h : a ∈ p.ancestorIds t isStatic) :
    p.hasEligibleEvents a isStatic := by
  rw [ancestorIds_eq_filter] at h
  exact (List.mem_filter.1 h).2

theorem mem_ancestorIds (hp : p.Acyclic) :
    a ∈ p.ancestorIds t isStatic ↔ p.HasAncestor t a ∧ p.hasEligibleEvents a isStatic := by
  rw [ancestorIds_eq_filter, List.mem_filter, mem_map_fst_baseChain hp]

theorem nodup_ancestorIds (p : Program) (t : TypeId) (isStatic : Bool) :
    (t :: p.ancestorIds t isStatic).Nodup := by
  rw [ancestorIds_eq_filter]
  exact (p.isBaseChain_baseChain t).nodup.sublist (List.filter_sublist.cons_cons t)

/-- What follows an ancestor with events in the list are the ancestors with events of that one. -/
theorem ancestorIds_of_append_cons (hp : p.Acyclic) {nearer further : List TypeId}
    (h : p.ancestorIds t isStatic = nearer ++ a :: further) :
    p.ancestorIds a isStatic = further := by
  rw [ancestorIds_eq_filter] at h
  rw [ancestorIds_eq_filter]
  -- Induction on the chain above `t`; a base without events is passed over.
  generalize hn : (p.baseChain t).length = n
  induction n generalizing t nearer with
  | zero =>
    rw [List.eq_nil_of_length_eq_zero hn] at h
    simp at h
  | succ n ih =>
    cases hb : p.baseType? t with
    | none => simp [baseChain_eq_nil hb] at h
    | some b =>
      have hcons := map_fst_baseChain_cons hp hb
      have hlen : (p.baseChain b).length = n := by
        have := congrArg List.length hcons
        simp only [List.length_map, List.length_cons] at this
        omega
      rw [hcons, List.filter_cons] at h
      split at h
      · cases nearer with
        | nil =>
          obtain ⟨rfl, hrest⟩ := List.cons.inj h
          exact hrest
        | cons c nearer => exact ih (List.cons.inj h).2 hlen
      · exact ih h hlen

/-- The first of the ancestors with events is the nearest. -/
theorem isNearestWithEvents_of_cons (hp : p.Acyclic) {further : List TypeId}
    (h : p.ancestorIds t isStatic = a :: further) : p.IsNearestWithEvents isStatic t a := by
  have ha : a ∈ p.ancestorIds t isStatic := h ▸ List.mem_cons_self
  obtain ⟨hanc, helig⟩ := (mem_ancestorIds hp).1 ha
  refine ⟨hanc, helig, fun b hb hbe => ?_⟩
  have hmem : b ∈ a :: further := h ▸ (mem_ancestorIds hp).2 ⟨hb, hbe⟩
  rcases List.mem_cons.1 hmem with rfl | hfurther
  · exact .inl rfl
  · have hrest : p.ancestorIds a isStatic = further :=
      ancestorIds_of_append_cons hp (show p.ancestorIds t isStatic = [] ++ a :: further from h)
    exact .inr ((mem_ancestorIds hp).1 (hrest ▸ hfurther)).1

end EventWrap.Program
