import EventWrap.Proofs.Document.History
import EventWrap.Proofs.Generator
import EventWrap.Proofs.Pass.Trace

/-!
# Triggers stay where they are

The triggers are looked for under the names of the settings and declared under the names that a
program gives them, which are the same. No operation takes a name away or gives it to another type,
so that triggers once declared are found ever after. Thus no pass over a loaded document lacks its
holder, and no document declares a trigger of its own.
-/

namespace EventWrap

/-! ## Names that are found -/

/-- A name stands for a place of a program. -/
abbrev Program.Finds (name : String) (id : TypeId) (p : Program) : Prop := p.resolve? name = some id

namespace Loading

open Document

variable {name : String} {id : TypeId}

/-- What is found under a name is found there when a declaration has been added, or has not been. -/
theorem keeps_found_add (d : Declaration) : Keeps (Program.Finds name id) (add d) := by
  intro p hp
  rcases leaves_add_cases d p with hsame | ⟨hfresh, hpush⟩
  · rwa [hsame]
  · rw [hpush]
    exact Program.resolve?_push_of_eq_some hp hfresh

theorem keeps_found_ensure (name' : String) (d : Declaration) :
    Keeps (Program.Finds name id) (ensure name' d) :=
  keeps_ensure_of_push name' fun _ hp hfresh => Program.resolve?_push_of_eq_some hp hfresh

theorem keeps_found_installTriggers (s : Settings) :
    Keeps (Program.Finds name id) (installTriggers s) :=
  (keeps_found_ensure _ _).bind fun _ => (keeps_found_ensure _ _).bind fun _ => keeps_pure _

theorem keeps_found_declareType (t : TypeEntry) :
    Keeps (Program.Finds name id) (declareType t) :=
  Keeps.checked (Keeps.checked ((keeps_ask _).bind fun _ => keeps_found_add _))

theorem keeps_found_completeType (t : TypeEntry) (id' : TypeId) :
    Keeps (Program.Finds name id) (completeType t id') :=
  keeps_ask_modify fun _ _ hp _ => hp

theorem keeps_found_addAssemblyAttribute (a : AttributeEntry) :
    Keeps (Program.Finds name id) (addAssemblyAttribute a) :=
  keeps_ask_modify fun _ _ hp _ => hp

theorem keeps_found_addInvocation (i : InvocationEntry) :
    Keeps (Program.Finds name id) (addInvocation i) :=
  keeps_ask_modify fun _ _ hp _ => hp

/-- However far a document can be loaded, what was found before is found. -/
theorem keeps_found_loadDocument (d : Document) :
    Keeps (Program.Finds name id) (loadDocument d) := by
  have hcomplete : ∀ pairs : List (TypeEntry × TypeId),
      Keeps (Program.Finds name id) (pairs.forM fun x => completeType x.1 x.2) :=
    fun _ => .forM fun x _ => keeps_found_completeType x.1 x.2
  apply Keeps.bind (.mapM fun t _ => keeps_found_declareType t)
  intro ids
  apply (hcomplete (d.types.zip ids)).bind
  intro _
  apply Keeps.bind (.forM fun a _ => keeps_found_addAssemblyAttribute a)
  intro _
  exact .forM fun i _ => keeps_found_addInvocation i

end Loading

namespace Program

variable {p : Program} {name : String} {id : TypeId}

/-- No operation moves what is found, whether or not it fails. -/
theorem Finds.leave (h : p.Finds name id) (op : Operation) : (p.leave op).Finds name id := by
  cases op with
  | add d =>
    rw [Program.leave, Operation.run, Loading.leaves_bind_pure]
    exact Loading.keeps_found_add d p h
  | load d => exact Loading.keeps_found_loadDocument d p h
  | install s =>
    rw [Program.leave, Operation.run, Loading.leaves_bind_pure]
    exact Loading.keeps_found_installTriggers s p h
  | addInvocation i => exact h
  | addAssemblyAttribute a => exact h

/-- The program that operations leave one after the other. -/
def leaveAll (p : Program) (ops : List Operation) : Program := ops.foldl Program.leave p

theorem Finds.leaveAll (h : p.Finds name id) (ops : List Operation) :
    (p.leaveAll ops).Finds name id := by
  induction ops generalizing p with
  | nil => exact h
  | cons op rest ih => exact ih (h.leave op)

/-! ## Declared triggers -/

/-- The triggers of some settings are found at their places. -/
structure HasTriggers (p : Program) (s : Settings) (triggers : TriggerTypes) : Prop where
  holder : p.Finds s.holderName triggers.holder
  marker : p.Finds s.markerName triggers.marker

theorem HasTriggers.leaveAll {s : Settings} {triggers : TriggerTypes}
    (h : p.HasTriggers s triggers) (ops : List Operation) :
    (p.leaveAll ops).HasTriggers s triggers :=
  ⟨h.holder.leaveAll ops, h.marker.leaveAll ops⟩

end Program

namespace Settings

variable (s : Settings) (p : Program)

/-- The holder is stored under the name that it is looked for. -/
theorem metadataName_holderDeclaration :
    (p.nestingOf s.holderDeclaration).metadataName = s.holderName :=
  Program.metadataName_nestingOf_outermost rfl

theorem metadataName_markerDeclaration :
    (p.nestingOf s.markerDeclaration).metadataName = s.markerName :=
  Program.metadataName_nestingOf_outermost rfl

end Settings

namespace Loading

variable {p : Program} {d : Declaration} {s : Settings} {triggers : TriggerTypes} {name : String}
  {id : TypeId}

theorem ensure_of_finds (h : p.Finds name id) : ensure name d p = .ok id p := by
  rw [ensure_run, h]

/-- What is declared under the name that it is looked for is found afterwards. -/
theorem exists_ensure (hname : (p.nestingOf d).metadataName = name) :
    ∃ id q, ensure name d p = .ok id q ∧ q.Finds name id := by
  cases hres : p.resolve? name with
  | some id => exact ⟨id, p, ensure_of_finds hres, hres⟩
  | none =>
    refine ⟨p.size, p.push d, ?_, ?_⟩
    · rw [ensure_run, hres, add, Program.add, Program.contains, hname, hres]
      rfl
    · rw [Program.Finds, Program.resolve?_push, if_pos hname.symm]

theorem installTriggers_of_hasTriggers (h : p.HasTriggers s triggers) :
    installTriggers s p = .ok triggers p :=
  bind_eq_ok_iff.2 ⟨triggers.holder, p, ensure_of_finds h.holder,
    bind_eq_ok_iff.2 ⟨triggers.marker, p, ensure_of_finds h.marker, rfl⟩⟩

theorem exists_installTriggers (s : Settings) (p : Program) :
    ∃ triggers q, installTriggers s p = .ok triggers q ∧ q.HasTriggers s triggers := by
  obtain ⟨holder, p', hholder, hfound⟩ := exists_ensure (s.metadataName_holderDeclaration p)
  obtain ⟨marker, q, hmarker, hfound'⟩ := exists_ensure (s.metadataName_markerDeclaration p')
  -- the marker does not take the place of the holder, even under the same name
  have hkept : q.Finds s.holderName holder := by
    have hleaves := keeps_found_ensure s.markerName s.markerDeclaration p' hfound
    rwa [leaves_ok hmarker] at hleaves
  refine ⟨⟨holder, marker⟩, q, ?_, hkept, hfound'⟩
  exact bind_eq_ok_iff.2 ⟨holder, p', hholder, bind_eq_ok_iff.2 ⟨marker, q, hmarker, rfl⟩⟩

end Loading

/-! ## Loaded documents -/

namespace Generator

variable {g : Generator} {d : Document} {p : Program}

theorem exists_base_of_load (h : g.load d = .ok p) : ∃ triggers base, base.IsFoundation ∧
    base.HasTriggers g.settings triggers ∧ Loading.loadDocument d base = .ok () p := by
  obtain ⟨triggers, base, hinstall, hload⟩ := load_eq_ok_iff.1 h
  obtain ⟨triggers', base', hinstall', htriggers⟩ :=
    Loading.exists_installTriggers g.settings Program.withCoreLibrary
  obtain ⟨rfl, rfl⟩ := EStateM.Result.ok.inj (hinstall.symm.trans hinstall')
  exact ⟨triggers, base, Loading.isFoundation_of_installTriggers
    Program.isFoundation_withCoreLibrary hinstall, htriggers, hload⟩

theorem hasTriggers_of_load (h : g.load d = .ok p) :
    ∃ triggers, p.HasTriggers g.settings triggers := by
  obtain ⟨triggers, base, -, htriggers, hload⟩ := exists_base_of_load h
  have hfound : ∀ {name id}, base.Finds name id → p.Finds name id := by
    intro name id hres
    have hleaves := Loading.keeps_found_loadDocument d base hres
    rwa [Loading.leaves_ok hload] at hleaves
  exact ⟨triggers, hfound htriggers.holder, hfound htriggers.marker⟩

/-- On top of the triggers their names are not new. -/
theorem ne_triggers_of_load (h : g.load d = .ok p) {t : Document.TypeEntry} (ht : t ∈ d.types) :
    t.metadataName ≠ g.settings.holderName ∧ t.metadataName ≠ g.settings.markerName := by
  obtain ⟨triggers, base, hbase, htriggers, hload⟩ := exists_base_of_load h
  obtain ⟨headers, hloaded⟩ := Loading.loaded_of_loadDocument hbase.indexed hload
  have hfresh := hloaded.declarable.fresh t ht
  constructor
  · intro hname
    rw [hname, htriggers.holder] at hfresh
    cases hfresh
  · intro hname
    rw [hname, htriggers.marker] at hfresh
    cases hfresh

end Generator

namespace PassInput

/-- With a holder a pass is ended early by cancellation only. -/
theorem run_ne_missingHolder {σ : Type} {i : PassInput} {holder : TypeId}
    (hholder : i.program.Finds i.settings.holderName holder) (h : Host σ) (start : σ)
    (name : String) : (i.run h start).outcome ≠ .error (.missingHolder name) := by
  obtain ⟨requests, hd⟩ := Program.exists_discover hholder
  intro houtcome
  rcases hx : PassStep.execute h i { host := start } with ⟨⟨⟩, st⟩ | ⟨e, st⟩
  · rw [run_of_ok hx] at houtcome
    cases houtcome
  · obtain rfl := eq_cancelled_of_execute_error hd hx
    rw [(run_of_error hx).1] at houtcome
    cases houtcome

end PassInput

namespace Generator

/-- The triggers of any settings can be declared in any program, and whatever is done afterwards,
declaring them again finds them where they are and changes nothing. So in a loaded document the
holder is not missed, neither when requests are discovered nor in a pass, over any host and however
it is cancelled, and a document with a type of the name of a trigger cannot be loaded. -/
theorem triggers_stay :
    (∀ (s : Settings) (p : Program), ∃ triggers q,
      Loading.installTriggers s p = .ok triggers q ∧ q.HasTriggers s triggers ∧
        ∀ ops, Loading.installTriggers s (q.leaveAll ops) = .ok triggers (q.leaveAll ops)) ∧
    ∀ (g : Generator) (d : Document),
      (∀ p, g.load d = .ok p → (∃ requests, g.discover p = .ok requests) ∧
        ∀ i : PassInput, i.program = p → i.settings = g.settings →
          ∀ (σ : Type) (h : Host σ) (start : σ) (name : String),
            (i.run h start).outcome ≠ .error (.missingHolder name)) ∧
      ((∃ t ∈ d.types, t.metadataName = g.settings.holderName ∨
        t.metadataName = g.settings.markerName) → ∃ e, g.load d = .error e) := by
  constructor
  · intro s p
    obtain ⟨triggers, q, hinstall, htriggers⟩ := Loading.exists_installTriggers s p
    refine ⟨triggers, q, hinstall, htriggers, fun ops => ?_⟩
    exact Loading.installTriggers_of_hasTriggers (htriggers.leaveAll ops)
  · intro g d
    constructor
    · intro p hload
      obtain ⟨triggers, htriggers⟩ := hasTriggers_of_load hload
      refine ⟨Program.exists_discover htriggers.holder, ?_⟩
      rintro i rfl hsettings σ h start name
      exact PassInput.run_ne_missingHolder (hsettings ▸ htriggers.holder) h start name
    · rintro ⟨t, ht, hname⟩
      cases hload : g.load d with
      | error e => exact ⟨e, rfl⟩
      | ok p =>
        obtain ⟨hholder, hmarker⟩ := ne_triggers_of_load hload ht
        exact absurd hname (not_or_intro hholder hmarker)

/-- A document that declares the holder with default settings. -/
def withHolder : Document where
  types := [{ namespaceName := "ObservableEvents", name := "ObservableGeneratorExtensions" }]

theorem listed_triggers_stay : ∃ (g : Generator) (p : Program), g.settings = {} ∧
    g.load .listed = .ok p ∧ (∃ requests, g.discover p = .ok requests) ∧
    (∀ name, (g.run MemoryHost.host p {}).outcome ≠ .error (.missingHolder name)) ∧
    ∃ e, g.load withHolder = .error e := by
  let g : Generator := ⟨{}, by decide⟩
  have hload : (g.load .listed).isOk = true := by decide
  cases hp : g.load .listed with
  | error e =>
    rw [hp] at hload
    cases hload
  | ok p =>
    obtain ⟨hdiscover, hrun⟩ := (triggers_stay.2 g .listed).1 p hp
    refine ⟨g, p, rfl, hp, hdiscover, hrun (g.input p) rfl rfl _ MemoryHost.host {}, ?_⟩
    exact (triggers_stay.2 g withHolder).2 ⟨_, List.mem_singleton_self _, .inl (by decide)⟩

end Generator

end EventWrap
