import EventWrap.Program.CoreLibrary
import Mathlib.Data.List.Forall2
import Mathlib.Tactic.Common

/-!
# The index of a program

In a program that grew by additions a type is nested only in types declared before it, and the index
finds exactly the places that there are, by names that are all distinct. The core library is such a
program, and it stays one when a declaration is added under a new name.
-/

namespace EventWrap.Program

variable {p q : Program} {d : Declaration} {id outer : TypeId} {name : String}

/-! ## Places -/

theorem declaration_of_size_le (h : p.size ≤ id) : p.declaration id = {} := by
  rw [declaration, Array.getD_eq_getD_getElem?, Array.getElem?_eq_none h]
  rfl

/-- What has a declaration that says something is one of the types. -/
theorem lt_size_of_declaration_ne (h : p.declaration id ≠ {}) : id < p.size :=
  Nat.lt_of_not_le fun hle => h (declaration_of_size_le hle)

theorem declaration_mem (h : id < p.size) : p.declaration id ∈ p.types.toList := by
  have hid : id < p.types.size := h
  rw [declaration, Array.getD_eq_getD_getElem?, Array.getElem?_eq_getElem hid, Option.getD_some]
  exact Array.getElem_mem_toList hid

/-- What holds of all types, and of nothing declared, holds of what is declared at any place. -/
theorem forall_declaration {holds : Declaration → Prop} (h : ∀ d ∈ p.types.toList, holds d)
    (hnothing : holds {}) (id : TypeId) : holds (p.declaration id) := by
  by_cases hid : id < p.size
  · exact h _ (declaration_mem hid)
  · rw [declaration_of_size_le (Nat.le_of_not_lt hid)]
    exact hnothing

@[simp] theorem size_push (p : Program) (d : Declaration) : (p.push d).size = p.size + 1 :=
  Array.size_push d

theorem declaration_push_self (p : Program) (d : Declaration) :
    (p.push d).declaration p.size = d := by
  simp [declaration, push, size, Array.getD_eq_getD_getElem?]

theorem declaration_push_of_lt (h : id < p.size) :
    (p.push d).declaration id = p.declaration id := by
  have hid : id < p.types.size := h
  rw [declaration, declaration, push, Array.getD_eq_getD_getElem?, Array.getD_eq_getD_getElem?,
    Array.getElem?_push_lt hid, Array.getElem?_eq_getElem hid]

theorem resolve?_push (p : Program) (d : Declaration) (name : String) :
    (p.push d).resolve? name =
      if name = (p.nestingOf d).metadataName then some p.size else p.resolve? name := by
  rw [resolve?, push, List.lookup_cons]
  by_cases h : name = (p.nestingOf d).metadataName
  · rw [if_pos h, beq_iff_eq.2 h]
  · rw [if_neg h, beq_eq_false_iff_ne.2 h]
    rfl

/-- Under a new name nothing is pushed in front of what is found already. -/
theorem resolve?_push_of_eq_some (hres : p.resolve? name = some id)
    (hfresh : p.resolve? (p.nestingOf d).metadataName = none) :
    (p.push d).resolve? name = some id := by
  rw [resolve?_push, if_neg, hres]
  rintro rfl
  rw [hfresh] at hres
  cases hres

/-! ## Nesting -/

theorem nestingFrom_succ (p : Program) (levels : Nat) (id : TypeId) :
    p.nestingFrom (levels + 1) id =
      p.declaration id :: match (p.declaration id).container with
        | some outer => p.nestingFrom levels outer
        | none => [] := rfl

theorem exists_of_mem_nestingFrom {levels : Nat} (hd : d ∈ p.nestingFrom levels id) :
    ∃ outer, d = p.declaration outer := by
  induction levels generalizing id with
  | zero => cases hd
  | succ levels ih =>
    rw [nestingFrom_succ] at hd
    rcases List.mem_cons.1 hd with rfl | hd
    · exact ⟨id, rfl⟩
    · split at hd
      · exact ih hd
      · cases hd

/-- On the path to a type are declared types only. -/
theorem exists_of_mem_nesting (hd : d ∈ p.nesting id) : ∃ outer, d = p.declaration outer :=
  exists_of_mem_nestingFrom (List.mem_reverse.1 hd)

/-- What holds of all namespaces, and of the global one, holds of the namespace of a path. -/
theorem forall_namespaceName (holds : String → Prop)
    (h : ∀ outer, holds (p.declaration outer).namespaceName) (hglobal : holds "") (id : TypeId) :
    holds (p.nesting id).namespaceName := by
  rw [Nesting.namespaceName]
  cases hhead : (p.nesting id).head? with
  | none => exact hglobal
  | some d =>
    obtain ⟨outer, rfl⟩ := exists_of_mem_nesting (List.mem_of_mem_head? hhead)
    exact h outer

/-- Types are nested only in types with earlier places. -/
def OuterFirst (p : Program) : Prop :=
  ∀ id outer, (p.declaration id).container = some outer → outer < id

theorem nestingFrom_congr_levels (h : p.OuterFirst) {levels levels' : Nat} (hl : id < levels)
    (hl' : id < levels') :
    p.nestingFrom levels id = p.nestingFrom levels' id := by
  induction levels generalizing levels' id with
  | zero => cases hl
  | succ levels ih =>
    cases levels' with
    | zero => cases hl'
    | succ levels' =>
      rw [nestingFrom_succ, nestingFrom_succ]
      cases hc : (p.declaration id).container with
      | none => rfl
      | some outer =>
        have hlt := h id outer hc
        simp only
        rw [ih (Nat.lt_of_lt_of_le hlt (Nat.le_of_lt_succ hl))
          (Nat.lt_of_lt_of_le hlt (Nat.le_of_lt_succ hl'))]

/-- The path to a type is the path to the type around it, followed by its own declaration. -/
theorem nesting_eq (h : p.OuterFirst) (id : TypeId) :
    p.nesting id = p.nestingOf (p.declaration id) := by
  rw [nesting, nestingFrom_succ, nestingOf]
  cases hc : (p.declaration id).container with
  | none => rfl
  | some outer =>
    simp only
    rw [nestingFrom_congr_levels h (h id outer hc) (Nat.lt_succ_self outer), List.reverse_cons]
    rfl

theorem nesting_ne_nil (p : Program) (id : TypeId) : p.nesting id ≠ [] := by
  simp [nesting, nestingFrom_succ]

/-- Paths in two programs correspond, level by level, where declarations and containers do. -/
theorem forall₂_nesting {σ : TypeId → TypeId} {R : Declaration → Declaration → Prop}
    (among : TypeId → Prop) (hp : p.OuterFirst) (hq : q.OuterFirst)
    (hamong : ∀ id outer, among id → (p.declaration id).container = some outer → among outer)
    (hR : ∀ id, among id → R (p.declaration id) (q.declaration (σ id)))
    (hcontainer : ∀ id, among id → (q.declaration (σ id)).container =
      (p.declaration id).container.map σ)
    (hid : among id) : List.Forall₂ R (p.nesting id) (q.nesting (σ id)) := by
  induction id using Nat.strongRecOn with
  | ind id ih =>
    rw [nesting_eq hp, nesting_eq hq, nestingOf, nestingOf, hcontainer id hid]
    cases hc : (p.declaration id).container with
    | none => exact .cons (hR id hid) .nil
    | some outer =>
      have houter := ih outer (hp id outer hc) (hamong id outer hid hc)
      exact List.rel_append houter (.cons (hR id hid) .nil)

/-- A program whose declarations are kept has the same paths. -/
theorem nesting_eq_of_declaration_eq (among : TypeId → Prop) (hp : p.OuterFirst) (hq : q.OuterFirst)
    (hamong : ∀ id outer, among id → (p.declaration id).container = some outer → among outer)
    (hkept : ∀ id, among id → q.declaration id = p.declaration id) (hid : among id) :
    q.nesting id = p.nesting id := by
  have h := forall₂_nesting (σ := fun id => id) (R := Eq) among hp hq hamong
    (fun id h => (hkept id h).symm)
    (fun id h => by rw [hkept id h, Option.map_id']) hid
  rw [List.forall₂_eq_eq_eq] at h
  exact h.symm

/-! ## Types around a type -/

/-- A type is another one, or that one is nested in it at some depth. -/
inductive Encloses (p : Program) (outer : TypeId) : TypeId → Prop
  | self : Encloses p outer outer
  | around {inner id : TypeId} (nested : (p.declaration id).container = some inner)
      (encloses : Encloses p outer inner) : Encloses p outer id

theorem nesting_of_container_eq_none (h : p.OuterFirst)
    (hc : (p.declaration id).container = none) : p.nesting id = [p.declaration id] := by
  rw [nesting_eq h, nestingOf, hc]

theorem nesting_of_container (h : p.OuterFirst) (hc : (p.declaration id).container = some outer) :
    p.nesting id = p.nesting outer ++ [p.declaration id] := by
  rw [nesting_eq h, nestingOf, hc]

/-- The path to a type holds the types around it and its own declaration. -/
theorem mem_nesting_iff (h : p.OuterFirst) :
    d ∈ p.nesting id ↔ ∃ outer, p.Encloses outer id ∧ p.declaration outer = d := by
  constructor
  · intro hd
    induction id using Nat.strongRecOn with
    | ind id ih =>
      cases hc : (p.declaration id).container with
      | none =>
        rw [nesting_of_container_eq_none h hc, List.mem_singleton] at hd
        exact ⟨id, .self, hd.symm⟩
      | some inner =>
        rw [nesting_of_container h hc, List.mem_append, List.mem_singleton] at hd
        cases hd with
        | inl hd =>
          obtain ⟨outer, hencloses, hdeclared⟩ := ih inner (h id inner hc) hd
          exact ⟨outer, .around hc hencloses, hdeclared⟩
        | inr hd => exact ⟨id, .self, hd.symm⟩
  · intro hd
    obtain ⟨outer, hencloses, hdeclared⟩ := hd
    subst hdeclared
    induction hencloses with
    | self =>
      rw [nesting_eq h, nestingOf]
      split <;> simp
    | around hc _ ih =>
      rw [nesting_of_container h hc]
      exact List.mem_append_left _ ih

/-- The namespace of a path is that of the outermost type. -/
theorem namespaceName_nesting (h : p.OuterFirst) (hencloses : p.Encloses outer id)
    (hc : (p.declaration outer).container = none) :
    (p.nesting id).namespaceName = (p.declaration outer).namespaceName := by
  induction hencloses with
  | self =>
    rw [nesting_of_container_eq_none h hc]
    rfl
  | around hnested _ ih =>
    rw [nesting_of_container h hnested, ← ih, Nesting.namespaceName, Nesting.namespaceName,
      List.head?_append_of_ne_nil _ (nesting_ne_nil _ _)]

theorem exists_outermost (h : p.OuterFirst) (id : TypeId) :
    ∃ outer, p.Encloses outer id ∧ (p.declaration outer).container = none := by
  induction id using Nat.strongRecOn with
  | ind id ih =>
    cases hc : (p.declaration id).container with
    | none => exact ⟨id, .self, hc⟩
    | some inner =>
      obtain ⟨outer, hencloses, houtermost⟩ := ih inner (h id inner hc)
      exact ⟨outer, .around hc hencloses, houtermost⟩

/-! ## Names of nested types -/

/-- At the end of a path a name is put behind the name of what is around, after a mark. -/
theorem qualify_path_concat (mark : String) (name : Declaration → String) {path : Nesting}
    (h : path ≠ []) (d : Declaration) :
    qualify (Nesting.namespaceName (path ++ [d])) (mark.intercalate ((path ++ [d]).map name)) =
      qualify path.namespaceName (mark.intercalate (path.map name)) ++ mark ++ name d := by
  have hnamespace : Nesting.namespaceName (path ++ [d]) = path.namespaceName := by
    rw [Nesting.namespaceName, Nesting.namespaceName, List.head?_append_of_ne_nil _ h]
  have hnames : path.map name ≠ [] := mt List.map_eq_nil_iff.1 h
  rw [hnamespace, List.map_append, List.map_singleton,
    String.intercalate_append_of_ne_nil hnames (List.cons_ne_nil _ _), String.intercalate_singleton,
    qualify, qualify]
  split <;> simp only [String.append_assoc]

/-- The name of a nested type is that of the type around it, a plus sign and its own. -/
theorem metadataName_nestingOf (hc : d.container = some outer) :
    (p.nestingOf d).metadataName = p.metadataName outer ++ "+" ++ d.simpleName := by
  rw [nestingOf, hc]
  exact qualify_path_concat "+" (·.simpleName) (nesting_ne_nil p outer) d

theorem metadataName_nestingOf_outermost (hc : d.container = none) :
    (p.nestingOf d).metadataName = qualify d.namespaceName d.simpleName := by
  simp [nestingOf, hc, Nesting.metadataName, Nesting.namespaceName]

/-! ## Exact indexes -/

/-- The index finds a place by a name exactly when the type at that place has this name. -/
structure Indexed (p : Program) : Prop where
  outerFirst : p.OuterFirst
  resolve?_iff : ∀ {name : String} {id : TypeId}, p.resolve? name = some id ↔ id < p.size ∧
    p.metadataName id = name

namespace Indexed

theorem resolve?_metadataName (h : p.Indexed) (hid : id < p.size) :
    p.resolve? (p.metadataName id) = some id :=
  h.resolve?_iff.2 ⟨hid, rfl⟩

/-- No two types have one name. -/
theorem eq_of_metadataName_eq {id' : TypeId} (h : p.Indexed) (hid : id < p.size)
    (hid' : id' < p.size) (heq : p.metadataName id = p.metadataName id') : id = id' := by
  have := h.resolve?_metadataName hid
  rw [heq, h.resolve?_metadataName hid'] at this
  exact (Option.some.inj this).symm

theorem outerFirst_push (h : p.Indexed) (hd : ∀ outer, d.container = some outer → outer < p.size) :
    (p.push d).OuterFirst := by
  intro id outer hc
  rcases Nat.lt_trichotomy id p.size with hlt | rfl | hgt
  · rw [declaration_push_of_lt hlt] at hc
    exact h.outerFirst id outer hc
  · rw [declaration_push_self] at hc
    exact hd outer hc
  · rw [declaration_of_size_le (by rw [size_push]; exact hgt)] at hc
    cases hc

theorem nesting_push_of_lt (h : p.Indexed) (hd : ∀ outer, d.container = some outer → outer < p.size)
    (hid : id < p.size) :
    (p.push d).nesting id = p.nesting id :=
  nesting_eq_of_declaration_eq (· < p.size) h.outerFirst (h.outerFirst_push hd)
    (fun id outer hlt hc => Nat.lt_trans (h.outerFirst id outer hc) hlt)
    (fun _ hlt => declaration_push_of_lt hlt) hid

theorem nesting_push_self (h : p.Indexed)
    (hd : ∀ outer, d.container = some outer → outer < p.size) :
    (p.push d).nesting p.size = p.nestingOf d := by
  rw [nesting_eq (h.outerFirst_push hd), declaration_push_self, nestingOf, nestingOf]
  cases hc : d.container with
  | none => rfl
  | some outer =>
    simp only
    rw [h.nesting_push_of_lt hd (hd outer hc)]

/-- A declaration under a new name keeps the index exact. -/
theorem push (h : p.Indexed) (hd : ∀ outer, d.container = some outer → outer < p.size)
    (hfresh : p.resolve? (p.nestingOf d).metadataName = none) : (p.push d).Indexed where
  outerFirst := h.outerFirst_push hd
  resolve?_iff {name id} := by
    have hself : (p.push d).metadataName p.size = (p.nestingOf d).metadataName := by
      rw [metadataName, h.nesting_push_self hd]
    have hold : ∀ id, id < p.size → (p.push d).metadataName id = p.metadataName id := by
      intro id hlt
      rw [metadataName, h.nesting_push_of_lt hd hlt]
      rfl
    rw [resolve?_push, size_push]
    constructor
    · intro hres
      split at hres
      · next hname =>
        cases hres
        exact ⟨Nat.lt_succ_self _, hself.trans hname.symm⟩
      · obtain ⟨hlt, hname⟩ := h.resolve?_iff.1 hres
        exact ⟨Nat.lt_succ_of_lt hlt, (hold id hlt).trans hname⟩
    · rintro ⟨hlt, hname⟩
      rcases Nat.lt_succ_iff_lt_or_eq.1 hlt with hlt | rfl
      · rw [hold id hlt] at hname
        have hres := h.resolve?_iff.2 ⟨hlt, hname⟩
        rw [if_neg, hres]
        rintro rfl
        rw [hfresh] at hres
        cases hres
      · rw [if_pos (hname.symm.trans hself)]

end Indexed

/-! ## Relocation -/

/-- The place in another program of the type that has the same name. Places outside a program
stay. -/
def relocation (p q : Program) (id : TypeId) : TypeId :=
  if id < p.size then (q.resolve? (p.metadataName id)).getD id else id

/-- Programs with the same names, under places that may differ. -/
structure SameNames (p q : Program) : Prop where
  source : p.Indexed
  target : q.Indexed
  size : q.size = p.size
  isSome_resolve? : ∀ name, (q.resolve? name).isSome = (p.resolve? name).isSome

theorem relocation_of_size_le (q : Program) (h : p.size ≤ id) : p.relocation q id = id :=
  if_neg (Nat.not_lt.2 h)

namespace SameNames

variable (h : p.SameNames q)

include h

/-- What one program finds by a name the other one finds, too. -/
theorem resolve?_relocation_of_some (hres : p.resolve? name = some id) :
    q.resolve? name = some (p.relocation q id) := by
  obtain ⟨hid, rfl⟩ := h.source.resolve?_iff.1 hres
  have hsome := h.isSome_resolve? (p.metadataName id)
  rw [hres, Option.isSome_some, Option.isSome_iff_exists] at hsome
  obtain ⟨id', hid'⟩ := hsome
  rw [relocation, if_pos hid, hid', Option.getD_some]

theorem resolve?_relocation (name : String) :
    q.resolve? name = (p.resolve? name).map (p.relocation q) := by
  cases hres : p.resolve? name with
  | some id => exact h.resolve?_relocation_of_some hres
  | none =>
    have hnone := h.isSome_resolve? name
    rw [hres] at hnone
    exact Option.isSome_eq_false_iff.1 hnone |> Option.isNone_iff_eq_none.1

theorem relocation_lt (hid : id < p.size) : p.relocation q id < q.size :=
  (h.target.resolve?_iff.1 (h.resolve?_relocation_of_some (h.source.resolve?_metadataName hid))).1

theorem metadataName_relocation (hid : id < p.size) :
    q.metadataName (p.relocation q id) = p.metadataName id :=
  (h.target.resolve?_iff.1 (h.resolve?_relocation_of_some (h.source.resolve?_metadataName hid))).2

/-- Types do not share a place after their relocation. -/
theorem injective_relocation : Function.Injective (p.relocation q) := by
  intro a b heq
  by_cases ha : a < p.size
  · by_cases hb : b < p.size
    · apply h.source.eq_of_metadataName_eq ha hb
      rw [← h.metadataName_relocation ha, ← h.metadataName_relocation hb, heq]
    · have hlt := h.relocation_lt ha
      rw [heq, relocation_of_size_le q (Nat.le_of_not_lt hb), h.size] at hlt
      exact absurd hlt hb
  · by_cases hb : b < p.size
    · have hlt := h.relocation_lt hb
      rw [← heq, relocation_of_size_le q (Nat.le_of_not_lt ha), h.size] at hlt
      exact absurd hlt ha
    · rw [relocation_of_size_le q (Nat.le_of_not_lt ha),
        relocation_of_size_le q (Nat.le_of_not_lt hb)] at heq
      exact heq

end SameNames

/-! ## The core library -/

/-- For a program at hand it can be checked that the index is exact. -/
theorem indexed_of_check (houter : ∀ id < p.size, ∀ outer ∈ (p.declaration id).container,
      outer < id)
    (hindex : ∀ entry ∈ p.index, entry.2 < p.size ∧ p.metadataName entry.2 = entry.1)
    (hfound : ∀ id < p.size, p.resolve? (p.metadataName id) = some id) : p.Indexed where
  outerFirst id outer hc := by
    by_cases hid : id < p.size
    · exact houter id hid outer hc
    · rw [declaration_of_size_le (Nat.le_of_not_lt hid)] at hc
      cases hc
  resolve?_iff {name id} := by
    constructor
    · intro hres
      obtain ⟨before, after, hsplit, -⟩ := List.lookup_eq_some_iff.1 hres
      exact hindex (name, id) (by rw [hsplit]; exact List.mem_append_right _ List.mem_cons_self)
    · rintro ⟨hid, rfl⟩
      exact hfound id hid

theorem indexed_withCoreLibrary : withCoreLibrary.Indexed :=
  indexed_of_check (by decide) (by decide) (by decide)

end EventWrap.Program
