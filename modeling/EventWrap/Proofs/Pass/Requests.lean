import EventWrap.Pass.Request
import EventWrap.Proofs.Occurrence
import EventWrap.Triggers

/-!
# Distinct requests

Calls of the holder's factory method and marker attributes ask for wrappers. Every program whose
holder can be found has requests. Each list holds those of its own mode, and there is at most one
for each type and mode.
-/

namespace EventWrap

/-- What a request is for. -/
def Request.target (r : Request) : TypeId × WrapperMode := (r.type, r.mode)

namespace Request

variable {done later : List Request} {r : Request}

/-- Of distinct requests none is for the type and mode of an earlier one. -/
theorem target_not_mem_done (h : ((done ++ r :: later).map target).Nodup) :
    r.target ∉ done.map target := by
  rw [List.map_append, List.map_cons, List.nodup_append] at h
  exact fun hmem => h.2.2 _ hmem _ List.mem_cons_self rfl

theorem done_subset : done ++ [r] ⊆ done ++ r :: later := by
  have hprefix : done ++ [r] <+: done ++ r :: later :=
    (List.prefix_append_right_inj done).2 (List.prefix_append [r] later)
  exact hprefix.subset

end Request

/-! ## What triggers ask for -/

theorem TypeRef.namedType?_eq_some_iff {r : TypeRef} {id : TypeId} :
    r.namedType? = some id ↔ ∃ arguments, r = .named id arguments := by
  cases r with
  | named type arguments => simp [namedType?]
  | parameter | array | nullable => simp [namedType?]

theorem TypeRef.stripNullable_eq_named_iff {r : TypeRef} {id : TypeId} {arguments : List TypeRef} :
    r.stripNullable = .named id arguments ↔
      r = .named id arguments ∨ r = .nullable (.named id arguments) := by
  cases r with
  | nullable inner => simp [stripNullable]
  | named | parameter | array => simp [stripNullable]

/-- An invocation is a call of the holder's factory method, and its only type argument is the
declared type that the request is for, which may be marked as nullable once. -/
structure Invocation.AsksFor (s : Settings) (holder : TypeId) (i : Invocation) (r : Request) :
    Prop where
  method : i.method = s.factoryMethod
  container : i.container = some holder
  typeArguments : ∃ arguments, i.typeArguments = [.named r.type arguments] ∨
    i.typeArguments = [.nullable (.named r.type arguments)]
  mode : r.mode = .ofInstance
  location : r.location = i.location

/-- An attribute is the marker, and its first argument is the `typeof` of the declared type that the
request is for. -/
structure Attribute.AsksFor (s : Settings) (a : Attribute) (r : Request) : Prop where
  className : a.className = s.markerName
  arguments : ∃ arguments rest, a.arguments = .typeOf (.named r.type arguments) :: rest
  mode : r.mode = .ofStatics
  location : r.location = a.location

namespace Program

variable {p : Program} {s : Settings} {requests : Requests} {r : Request}

theorem instanceRequest?_eq_some_iff {holder : TypeId} {i : Invocation} :
    instanceRequest? s holder i = some r ↔ i.AsksFor s holder r := by
  constructor
  · intro h
    unfold instanceRequest? at h
    split at h
    · next hcall =>
      split at h
      · next argument hargument =>
        obtain ⟨id, hid, rfl⟩ := Option.map_eq_some_iff.1 h
        obtain ⟨arguments, hnamed⟩ := TypeRef.namedType?_eq_some_iff.1 hid
        refine ⟨hcall.1, hcall.2, ⟨arguments, ?_⟩, rfl, rfl⟩
        rcases TypeRef.stripNullable_eq_named_iff.1 hnamed with rfl | rfl
        · exact .inl hargument
        · exact .inr hargument
      · cases h
    · cases h
  · rintro ⟨hmethod, hcontainer, ⟨arguments, htype | htype⟩, hmode, hlocation⟩ <;>
    · rw [instanceRequest?, if_pos ⟨hmethod, hcontainer⟩, htype, ← hmode, ← hlocation]
      rfl

theorem staticRequest?_eq_some_iff {a : Attribute} :
    staticRequest? s a = some r ↔ a.AsksFor s r := by
  constructor
  · intro h
    unfold staticRequest? at h
    split at h
    · next hclass =>
      obtain ⟨id, hid, rfl⟩ := Option.map_eq_some_iff.1 h
      obtain ⟨type, htype, hnamed⟩ := Option.bind_eq_some_iff.1 hid
      obtain ⟨arguments, rfl⟩ := TypeRef.namedType?_eq_some_iff.1 hnamed
      unfold Attribute.typeArgument? at htype
      split at htype
      · next rest hrest =>
        cases htype
        exact ⟨hclass, ⟨arguments, rest, hrest⟩, rfl, rfl⟩
      · cases htype
    · cases h
  · rintro ⟨hclass, ⟨arguments, rest, hrest⟩, hmode, hlocation⟩
    rw [staticRequest?, if_pos hclass, Attribute.typeArgument?, hrest, ← hmode, ← hlocation]
    rfl

/-! ## First requests -/

theorem mem_of_mem_firstRequests {rs : List Request} (h : r ∈ p.firstRequests rs) : r ∈ rs :=
  Occurrence.mem_of_mem_firsts (mem_sortedBy.1 h)

/-- First requests are for distinct types, since their types have distinct names. -/
theorem nodup_types_firstRequests (p : Program) (rs : List Request) :
    ((p.firstRequests rs).map (·.type)).Nodup := by
  have hnames : ((p.firstRequests rs).map fun r => p.metadataName r.type).Nodup :=
    ((sortedBy_perm _ _).map _).nodup_iff.2 (Occurrence.nodup_map_firsts _ _ _)
  apply List.Nodup.of_map p.metadataName
  rw [List.map_map]
  exact hnames

theorem nodup_targets_firstRequests (p : Program) (rs : List Request) :
    ((p.firstRequests rs).map Request.target).Nodup := by
  apply List.Nodup.of_map Prod.fst
  rw [List.map_map]
  exact nodup_types_firstRequests p rs

/-! ## Discovered requests -/

theorem discover_eq_ok {holder : TypeId} (h : p.resolve? s.holderName = some holder) :
    let ofInstances := p.invocations.filterMap (instanceRequest? s holder)
    let ofStatics := p.assemblyAttributes.filterMap (staticRequest? s)
    p.discover s = .ok {
      ofInstances := p.firstRequests ofInstances
      ofStatics := p.firstRequests ofStatics
      repeated := p.repeatedRequests ofInstances ++ p.repeatedRequests ofStatics } := by
  rw [discover, h]

theorem exists_discover {holder : TypeId} (h : p.resolve? s.holderName = some holder) :
    ∃ requests, p.discover s = .ok requests := ⟨_, discover_eq_ok h⟩

/-- Only a missing holder keeps a program from having requests. -/
theorem discover_eq_error {e : PassError} (h : p.discover s = .error e) :
    p.resolve? s.holderName = none ∧ e = .missingHolder s.holderName := by
  unfold discover at h
  split at h
  · next hholder =>
    cases h
    exact ⟨hholder, rfl⟩
  · cases h

/-- What was discovered are first requests, made of the program's invocations and attributes. -/
theorem eq_of_discover (h : p.discover s = .ok requests) :
    ∃ holder, p.resolve? s.holderName = some holder ∧
      requests.ofInstances = p.firstRequests (p.invocations.filterMap (instanceRequest? s holder)) ∧
      requests.ofStatics = p.firstRequests (p.assemblyAttributes.filterMap (staticRequest? s)) := by
  unfold discover at h
  split at h
  · cases h
  · next holder hholder =>
    cases h
    exact ⟨holder, hholder, rfl, rfl⟩

theorem mode_of_mem_ofInstances (h : p.discover s = .ok requests) (hr : r ∈ requests.ofInstances) :
    r.mode = .ofInstance := by
  obtain ⟨holder, -, hinstances, -⟩ := eq_of_discover h
  rw [hinstances] at hr
  obtain ⟨i, -, hi⟩ := List.mem_filterMap.1 (mem_of_mem_firstRequests hr)
  exact (instanceRequest?_eq_some_iff.1 hi).mode

theorem mode_of_mem_ofStatics (h : p.discover s = .ok requests) (hr : r ∈ requests.ofStatics) :
    r.mode = .ofStatics := by
  obtain ⟨holder, -, -, hstatics⟩ := eq_of_discover h
  rw [hstatics] at hr
  obtain ⟨a, -, ha⟩ := List.mem_filterMap.1 (mem_of_mem_firstRequests hr)
  exact (staticRequest?_eq_some_iff.1 ha).mode

theorem mem_ofInstances (h : p.discover s = .ok requests) :
    r ∈ requests.ofInstances ↔ r ∈ requests.toList ∧ r.mode = .ofInstance := by
  rw [Requests.toList, List.mem_append]
  constructor
  · exact fun hr => ⟨.inr hr, mode_of_mem_ofInstances h hr⟩
  · rintro ⟨hr | hr, hm⟩
    · rw [mode_of_mem_ofStatics h hr] at hm
      cases hm
    · exact hr

theorem mem_ofStatics (h : p.discover s = .ok requests) :
    r ∈ requests.ofStatics ↔ r ∈ requests.toList ∧ r.mode = .ofStatics := by
  rw [Requests.toList, List.mem_append]
  constructor
  · exact fun hr => ⟨.inl hr, mode_of_mem_ofStatics h hr⟩
  · rintro ⟨hr | hr, hm⟩
    · exact hr
    · rw [mode_of_mem_ofInstances h hr] at hm
      cases hm

/-- No two requests are for the same type and mode. -/
theorem nodup_targets (h : p.discover s = .ok requests) :
    (requests.toList.map Request.target).Nodup := by
  obtain ⟨holder, -, hinstances, hstatics⟩ := eq_of_discover h
  rw [Requests.toList, List.map_append, List.nodup_append]
  refine ⟨?_, ?_, ?_⟩
  · rw [hstatics]
    exact nodup_targets_firstRequests p _
  · rw [hinstances]
    exact nodup_targets_firstRequests p _
  · intro a ha b hb hab
    obtain ⟨r, hr, rfl⟩ := List.mem_map.1 ha
    obtain ⟨r', hr', rfl⟩ := List.mem_map.1 hb
    have hmodes : r.mode = r'.mode := congrArg Prod.snd hab
    rw [mode_of_mem_ofStatics h hr, mode_of_mem_ofInstances h hr'] at hmodes
    cases hmodes

/-! ## A small program -/

/-- A button that derives from a control, with an event each, and a call that asks for its
wrapper. -/
def controls : Program :=
  let declarations : List Declaration := [
    { kind := .structType, namespaceName := "System", name := "Void", builtIn := some .void },
    Settings.holderDeclaration {},
    { kind := .delegateType, name := "Notice",
      invoke := some { result := .named 0 [], parameters := [] } },
    { name := "Control", events := [{ name := "Shown", delegate := .named 2 [] }] },
    { name := "Button", base := some (.named 3 []),
      events := [{ name := "Clicked", delegate := .named 2 [] }] }]
  { declarations.foldl push {} with
    invocations := [{ method := "Events", container := some 1, typeArguments := [.named 4 []] }] }

theorem discover_controls :
    controls.discover {} = .ok { ofInstances := [⟨4, .ofInstance, {}⟩] } := by decide +kernel

end Program

end EventWrap
