import EventWrap.Proofs.Program.Index
import EventWrap.Events.Ancestry
import Mathlib.Data.List.Chain
import Mathlib.Data.List.Nodup
import Mathlib.Data.List.Perm.Subperm

/-!
# The base chain

A walk follows base types until it stands at a type without a base, at one whose base is no named
type, or before a type that it has already met. It needs no bound on its steps: all types that it
leaves are declared, and it meets none of them twice. What it passes is the one list of types that
are reached by following base types without repetition, in programs with cycles as in others.
-/

namespace EventWrap.Program

/-- A type is written over its base. -/
def DerivesFrom (p : Program) (t b : TypeId) : Prop := p.baseType? t = some b

/-- A walk over base types that stands at a type and has met some types, with what it still passes.
Nothing bounds its steps. -/
inductive Walks (p : Program) : List TypeId → Constructed → List Constructed → Prop
  | ended {met : List TypeId} {current : Constructed} (last : p.baseSeenFrom current = none) :
      Walks p met current []
  | returned {met : List TypeId} {current base : Constructed}
      (next : p.baseSeenFrom current = some base) (again : base.1 ∈ met) : Walks p met current []
  | passed {met : List TypeId} {current base : Constructed} {further : List Constructed}
      (next : p.baseSeenFrom current = some base) (new : base.1 ∉ met)
      (rest : Walks p (base.1 :: met) base further) : Walks p met current (base :: further)

/-- Why following base types stops at a type. -/
inductive EndsAt (p : Program) (met : List TypeId) (last : TypeId) : Prop
  | baseless (none : (p.declaration last).base = none)
  | unnamed {r : TypeRef} (base : (p.declaration last).base = some r) (named : r.namedType? = none)
  | again {r : TypeRef} {b : TypeId} (base : (p.declaration last).base = some r)
      (named : r.namedType? = some b) (old : b ∈ met)

/-- The types that are reached from a type by following base types, up to where a type would be
met again. -/
structure IsBaseChain (p : Program) (t : TypeId) (chain : List TypeId) : Prop where
  follows : List.IsChain p.DerivesFrom (t :: chain)
  nodup : (t :: chain).Nodup
  ends : p.EndsAt (t :: chain) (chain.getLastD t)

variable {p : Program} {t b : TypeId} {met : List TypeId} {current : Constructed}
  {chain : List Constructed}

theorem baseSeenFrom_map_fst (p : Program) (current : Constructed) :
    (p.baseSeenFrom current).map (·.1) = p.baseType? current.1 := by
  simp only [baseSeenFrom, baseType?]
  cases (p.declaration current.1).base with
  | none => rfl
  | some r => cases r <;> rfl

theorem derivesFrom_of_baseSeenFrom {base : Constructed} (h : p.baseSeenFrom current = some base) :
    p.DerivesFrom current.1 base.1 := by
  rw [DerivesFrom, ← baseSeenFrom_map_fst, h]
  rfl

theorem DerivesFrom.lt_size (h : p.DerivesFrom t b) : t < p.size := by
  apply lt_size_of_declaration_ne
  intro hempty
  simp [DerivesFrom, baseType?, hempty] at h

/-! ## Reasons to stop -/

theorem EndsAt.mem {last : TypeId} (h : p.EndsAt met last) (hb : p.DerivesFrom last b) :
    b ∈ met := by
  rw [DerivesFrom, baseType?] at hb
  cases h with
  | baseless none => simp [none] at hb
  | unnamed base named => simp [base, named] at hb
  | again base named old =>
    rw [base, Option.bind_some, named] at hb
    exact Option.some.inj hb ▸ old

theorem EndsAt.of_forall {last : TypeId} (h : ∀ b, p.DerivesFrom last b → b ∈ met) :
    p.EndsAt met last := by
  cases hbase : (p.declaration last).base with
  | none => exact .baseless hbase
  | some r =>
    cases hnamed : r.namedType? with
    | none => exact .unnamed hbase hnamed
    | some b => exact .again hbase hnamed (h b (by simp [DerivesFrom, baseType?, hbase, hnamed]))

/-! ## Termination -/

/-- What a walk has met by the time it stands at a type: this type, and declared ones. -/
structure HasMet (p : Program) (met : List TypeId) (t : TypeId) : Prop where
  nodup : met.Nodup
  here : t ∈ met
  declared : ∀ m ∈ met, m ≠ t → m < p.size

theorem hasMet_start (p : Program) (t : TypeId) : p.HasMet [t] t where
  nodup := List.nodup_singleton t
  here := List.mem_singleton_self t
  declared _ hm hne := absurd (List.mem_singleton.1 hm) hne

theorem HasMet.step (h : p.HasMet met t) (hb : p.DerivesFrom t b) (hnew : b ∉ met) :
    p.HasMet (b :: met) b where
  nodup := List.nodup_cons.2 ⟨hnew, h.nodup⟩
  here := List.mem_cons_self
  declared m hm hne := by
    have hm : m ∈ met := (List.mem_cons.1 hm).resolve_left hne
    by_cases hmt : m = t
    · exact hmt ▸ hb.lt_size
    · exact h.declared m hm hmt

theorem length_le_size {l : List TypeId} (hnodup : l.Nodup) (hdeclared : ∀ a ∈ l, a < p.size) :
    l.length ≤ p.size := by
  have hsub : l ⊆ List.range p.size := fun a ha => List.mem_range.2 (hdeclared a ha)
  calc l.length
    _ ≤ (List.range p.size).length := (hnodup.subperm hsub).length_le
    _ = p.size := List.length_range

/-- As long as there is a base, everything that was met is declared. -/
theorem HasMet.length_le (h : p.HasMet met t) (hb : p.DerivesFrom t b) : met.length ≤ p.size := by
  apply length_le_size h.nodup
  intro m hm
  by_cases hmt : m = t
  · exact hmt ▸ hb.lt_size
  · exact h.declared m hm hmt

/-- The number of types is a bound that no walk reaches. -/
theorem walks_baseChainFrom {steps : Nat} (h : p.HasMet met current.1)
    (hsteps : p.size < steps + met.length) :
    p.Walks met current (p.baseChainFrom steps met current) := by
  induction steps generalizing met current with
  | zero =>
    cases hseen : p.baseSeenFrom current with
    | none => exact .ended hseen
    | some base =>
      have hle := h.length_le (derivesFrom_of_baseSeenFrom hseen)
      omega
  | succ steps ih =>
    rw [baseChainFrom]
    cases hseen : p.baseSeenFrom current with
    | none => exact .ended hseen
    | some base =>
      by_cases hmet : base.1 ∈ met
      · simp only [hmet, ↓reduceIte]
        exact .returned hseen hmet
      · simp only [hmet, ↓reduceIte]
        apply Walks.passed hseen hmet
        apply ih (h.step (derivesFrom_of_baseSeenFrom hseen) hmet)
        rw [List.length_cons]
        omega

theorem walks_baseChain (p : Program) (t : TypeId) :
    p.Walks [t] (t, (p.declaration t).ownArguments) (p.baseChain t) := by
  apply walks_baseChainFrom (p.hasMet_start t)
  rw [List.length_singleton]
  omega

theorem Walks.unique {chain' : List Constructed} (h : p.Walks met current chain)
    (h' : p.Walks met current chain') : chain = chain' := by
  induction h generalizing chain' with
  | ended last =>
    cases h' with
    | ended => rfl
    | returned => rfl
    | passed next => simp [last] at next
  | returned next again =>
    cases h' with
    | ended => rfl
    | returned => rfl
    | passed next' new =>
      obtain rfl := Option.some.inj (next.symm.trans next')
      exact absurd again new
  | passed next new _ ih =>
    cases h' with
    | ended last => simp [last] at next
    | returned next' again =>
      obtain rfl := Option.some.inj (next.symm.trans next')
      exact absurd again new
    | passed next' _ rest =>
      obtain rfl := Option.some.inj (next.symm.trans next')
      rw [ih rest]

/-! ## What a walk passes -/

theorem Walks.isChain (h : p.Walks met current chain) :
    List.IsChain p.DerivesFrom (current.1 :: chain.map (·.1)) := by
  induction h with
  | ended => exact List.isChain_singleton _
  | returned => exact List.isChain_singleton _
  | passed next _ _ ih =>
    exact List.isChain_cons_cons.2 ⟨derivesFrom_of_baseSeenFrom next, ih⟩

theorem Walks.nodup (h : p.Walks met current chain) (hmet : met.Nodup) :
    (met.reverse ++ chain.map (·.1)).Nodup := by
  induction h with
  | ended => simpa using hmet
  | returned => simpa using hmet
  | passed _ new _ ih => simpa using ih (List.nodup_cons.2 ⟨new, hmet⟩)

theorem Walks.endsAt (h : p.Walks met current chain) :
    p.EndsAt (met.reverse ++ chain.map (·.1)) ((chain.map (·.1)).getLastD current.1) := by
  induction h with
  | ended last =>
    apply EndsAt.of_forall
    intro b hb
    rw [List.map_nil, List.getLastD_nil, DerivesFrom, ← baseSeenFrom_map_fst, last] at hb
    cases hb
  | returned next again =>
    apply EndsAt.of_forall
    intro b hb
    obtain rfl : _ = b := Option.some.inj ((derivesFrom_of_baseSeenFrom next).symm.trans hb)
    simpa using again
  | passed _ _ _ ih =>
    rw [List.map_cons, List.getLastD_cons]
    rwa [List.reverse_cons, List.append_assoc, List.singleton_append] at ih

/-- What the walk from a type passes is a base chain. -/
theorem isBaseChain_baseChain (p : Program) (t : TypeId) :
    p.IsBaseChain t ((p.baseChain t).map (·.1)) where
  follows := (p.walks_baseChain t).isChain
  nodup := (p.walks_baseChain t).nodup (List.nodup_singleton t)
  ends := (p.walks_baseChain t).endsAt

theorem baseChain_eq_nil (h : p.baseType? t = none) : p.baseChain t = [] := by
  rw [← baseSeenFrom_map_fst p (t, (p.declaration t).ownArguments), Option.map_eq_none_iff] at h
  rw [baseChain, baseChainFrom, h]

/-! ## Uniqueness -/

/-- Of two chains of bases one begins with the other. -/
theorem prefix_or_prefix_of_isChain {l l' : List TypeId}
    (h : List.IsChain p.DerivesFrom (t :: l)) (h' : List.IsChain p.DerivesFrom (t :: l')) :
    l <+: l' ∨ l' <+: l := by
  induction l generalizing t l' with
  | nil => exact .inl List.nil_prefix
  | cons b l ih =>
    cases l' with
    | nil => exact .inr List.nil_prefix
    | cons b' l' =>
      rw [List.isChain_cons_cons] at h h'
      obtain rfl : b = b' := Option.some.inj (h.1.symm.trans h'.1)
      rw [List.prefix_cons_inj, List.prefix_cons_inj]
      exact ih h.2 h'.2

/-- A base chain goes on as long as it can. -/
theorem IsBaseChain.eq_of_prefix {l l' : List TypeId} (h : p.IsBaseChain t l)
    (h' : p.IsBaseChain t l') (hbegins : l <+: l') : l = l' := by
  obtain ⟨rest, rfl⟩ := hbegins
  cases rest with
  | nil => exact (List.append_nil l).symm
  | cons b rest =>
    have hstep : p.DerivesFrom (l.getLastD t) b := by
      have hfollows := h'.follows
      rw [← List.cons_append] at hfollows
      have hlast := hfollows.rel_getLast_head_of_append (List.cons_ne_nil t l)
        (List.cons_ne_nil b rest)
      rwa [List.head_cons, List.getLast_eq_getLastD] at hlast
    have hmet : b ∈ t :: l := h.ends.mem hstep
    have hnodup := h'.nodup
    rw [← List.cons_append, List.nodup_append] at hnodup
    exact absurd rfl (hnodup.2.2 b hmet b List.mem_cons_self)

theorem IsBaseChain.unique {l l' : List TypeId} (h : p.IsBaseChain t l)
    (h' : p.IsBaseChain t l') : l = l' := by
  rcases prefix_or_prefix_of_isChain h.follows h'.follows with hbegins | hbegins
  · exact h.eq_of_prefix h' hbegins
  · exact (h'.eq_of_prefix h hbegins).symm

/-- The base chain is the only list of its kind. -/
theorem isBaseChain_iff {l : List TypeId} :
    p.IsBaseChain t l ↔ l = (p.baseChain t).map (·.1) := by
  constructor
  · exact fun h => h.unique (p.isBaseChain_baseChain t)
  · rintro rfl
    exact p.isBaseChain_baseChain t

end EventWrap.Program
