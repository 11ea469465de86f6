import EventWrap.Proofs.Document.Declaring
import EventWrap.Triggers

/-!
# What documents are loaded on

Documents are loaded on a program that holds the core library and the triggers. Its index is exact,
its declarations mention each other only, and it has no attributes and no invocations yet.
-/

namespace EventWrap

namespace Program

/-- The declarations of a program mention only its own places. -/
def IsClosed (p : Program) : Prop :=
  ∀ σ : TypeId → TypeId, (∀ id < p.size, σ id = id) →
    ∀ id, (p.declaration id).rename σ = p.declaration id

/-- A program that documents are loaded on. -/
structure IsFoundation (p : Program) : Prop where
  indexed : p.Indexed
  isClosed : p.IsClosed
  assemblyAttributes : p.assemblyAttributes = []
  invocations : p.invocations = []

/-! ## The core library -/

theorem types_foldl_push (declarations : List Declaration) (p : Program) :
    (declarations.foldl push p).types.toList = p.types.toList ++ declarations := by
  induction declarations generalizing p with
  | nil => exact (List.append_nil _).symm
  | cons d rest ih =>
    rw [List.foldl_cons, ih, push, Array.toList_push, List.append_assoc, List.singleton_append]

theorem declaration_withCoreLibrary_mem {id : TypeId} (hid : id < withCoreLibrary.size) :
    withCoreLibrary.declaration id ∈ CoreLibrary.declarations := by
  have htypes : withCoreLibrary.types.toList = CoreLibrary.declarations := types_foldl_push _ _
  rw [← htypes]
  exact declaration_mem hid

open CoreLibrary in
/-- The declarations of the core library mention only few of its types. -/
theorem rename_coreLibrary {σ : TypeId → TypeId} (hσ : ∀ id < withCoreLibrary.size, σ id = id) :
    ∀ d ∈ declarations, d.rename σ = d := by
  have hsize : withCoreLibrary.size = 30 := by decide
  rw [hsize] at hσ
  have hobject := hσ 0 (by decide)
  have hvoid := hσ 1 (by decide)
  have heventArgs := hσ 16 (by decide)
  have htask := hσ 24 (by decide)
  have hpropertyArgs := hσ 28 (by decide)
  simp [declarations, BuiltIn.all, builtIn, derivedClass, handler, delegate, object,
    CoreLibrary.void, places, Declaration.rename, TypeParameter.rename, Signature.rename,
    Parameter.rename, TypeRef.rename, TypeRef.renameAll, hobject, hvoid, heventArgs, htask,
    hpropertyArgs]

theorem isClosed_withCoreLibrary : withCoreLibrary.IsClosed := by
  intro σ hσ id
  by_cases hid : id < withCoreLibrary.size
  · exact rename_coreLibrary hσ _ (declaration_withCoreLibrary_mem hid)
  · rw [declaration_of_size_le (Nat.le_of_not_lt hid)]
    rfl

theorem isFoundation_withCoreLibrary : withCoreLibrary.IsFoundation :=
  ⟨indexed_withCoreLibrary, isClosed_withCoreLibrary, rfl, rfl⟩

/-! ## Triggers -/

/-- An outermost declaration that mentions no types, under a new name, keeps a foundation. -/
theorem IsFoundation.push {p : Program} {d : Declaration} (h : p.IsFoundation)
    (hcontainer : d.container = none)
    (hmentions : ∀ σ, d.rename σ = d) (hfresh : p.resolve? (p.nestingOf d).metadataName = none) :
    (p.push d).IsFoundation where
  indexed := h.indexed.push (fun outer hc => by rw [hcontainer] at hc; cases hc) hfresh
  isClosed := by
    intro σ hσ id
    rcases Nat.lt_trichotomy id p.size with hlt | rfl | hgt
    · rw [declaration_push_of_lt hlt]
      exact h.isClosed σ (fun id hid => hσ id
        (Nat.lt_of_lt_of_le hid (by rw [size_push]; exact Nat.le_succ _))) id
    · rw [declaration_push_self]
      exact hmentions σ
    · rw [declaration_of_size_le (by rw [size_push]; exact hgt)]
      rfl
  assemblyAttributes := h.assemblyAttributes
  invocations := h.invocations

end Program

namespace Loading

variable {base p : Program}

theorem ensure_run (name : String) (d : Declaration) (p : Program) :
    ensure name d p = match p.resolve? name with
      | some id => .ok id p
      | none => add d p := by
  change (match p.resolve? name with
    | some id => pure id
    | none => add d : Loading TypeId) p = _
  cases p.resolve? name <;> rfl

theorem isFoundation_of_ensure {name : String} {d : Declaration} {id : TypeId}
    (h : base.IsFoundation) (hcontainer : d.container = none) (hmentions : ∀ σ, d.rename σ = d)
    (hrun : ensure name d base = .ok id p) :
    p.IsFoundation := by
  rw [ensure_run] at hrun
  split at hrun
  · cases hrun
    exact h
  · rw [add, Program.add, Program.contains] at hrun
    split at hrun
    · next hadd =>
      split at hadd
      · cases hadd
      · next hfresh =>
        cases hadd
        cases hrun
        exact h.push hcontainer hmentions (Option.not_isSome_iff_eq_none.1 hfresh)
    · cases hrun

/-- The triggers are declared on a foundation, and documents are loaded on what comes out. -/
theorem isFoundation_of_installTriggers {s : Settings} {triggers : TriggerTypes}
    (h : base.IsFoundation) (hrun : installTriggers s base = .ok triggers p) : p.IsFoundation := by
  obtain ⟨holder, p₁, hholder, hrun⟩ := bind_eq_ok_iff.1 hrun
  obtain ⟨marker, p₂, hmarker, ⟨⟩⟩ := bind_eq_ok_iff.1 hrun
  exact isFoundation_of_ensure (isFoundation_of_ensure h rfl (fun _ => rfl) hholder) rfl
    (fun _ => rfl) hmarker

end Loading

end EventWrap
