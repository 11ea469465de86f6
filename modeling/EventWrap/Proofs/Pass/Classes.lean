import EventWrap.Proofs.Pass.Changes
import EventWrap.Proofs.Pass.Lineage
import EventWrap.Proofs.Pass.Origins

/-!
# Classes of a pass

The classes that the delivered units declare. A pass claims a class for the type that its wrapper is
for, so that no class has parts for two types. The claim does not tell the modes apart: the parts of
one class disagree on being static exactly where a type is wrapped in both modes.
-/

namespace EventWrap

variable {σ : Type}

open Code

/-! ## Parts of classes -/

namespace Code

def ClassBlock.key (namespaceName : String) (c : ClassBlock) : ClassKey :=
  (namespaceName, c.name, c.typeParameters.length)

/-- The classes that a unit declares, each with the declaration, which is partial. -/
def SourceUnit.parts (u : SourceUnit) : List (ClassKey × ClassBlock) :=
  u.namespaces.flatMap (fun block => block.classes.map fun c => (c.key block.name, c)) ++
    u.globals.map fun c => (c.key "", c)

theorem SourceUnit.parts_addClass_of_empty {u : SourceUnit} (hnamespaces : u.namespaces = [])
    (hglobals : u.globals = []) (namespaceName : String) (c : ClassBlock) :
    (u.addClass namespaceName c).parts = [(c.key namespaceName, c)] := by
  rw [addClass]
  split
  · next hempty =>
    rw [String.isEmpty_iff] at hempty
    simp [parts, hnamespaces, hglobals, hempty]
  · simp [parts, hnamespaces, hglobals, addToNamespace]

end Code

namespace Program

variable {p : Program} {s : Settings} {w : Wrapper}

/-- The unit of a wrapper declares the class that the pass claims for it, and no other. -/
theorem Makes.parts_unit (h : p.Makes s w) :
    (w.unit s).parts = [(p.wrapperKey w.source, w.declaration)] := by
  rw [Wrapper.unit, SourceUnit.parts_addClass_of_empty rfl rfl, ClassBlock.key, h.name,
    ← h.classKey]
  rfl

/-- A wrapper class is static exactly if it is for static events. -/
theorem Makes.declaration_static (h : p.Makes s w) :
    w.declaration.hasModifier .staticMember = w.mode.isStatic := by
  obtain ⟨plan, hplan⟩ := h.exists_plan
  obtain ⟨-, hmode, -, -, hdeclaration⟩ := eq_of_synthesize hplan
  rw [hdeclaration, ← hmode]
  cases w.mode <;> rfl

/-! ### Two small programs -/

/-- A type inside the control and one that derives from it and is named after both: their wrappers
have one name. The inner type is asked for its static event, and the other one by a call. -/
def clashing : Program :=
  let notice (name : String) (isStatic : Bool) : EventDeclaration :=
    { name := name, delegate := .named 2 [], isStatic := isStatic }
  let inner : Declaration :=
    { name := "Inner", container := some 3, events := [notice "Moved" false, notice "Made" true] }
  let outer : Declaration :=
    { name := "ControlInner", base := some (.named 5 []), events := [notice "Left" false] }
  { (controls.push inner).push outer with
    invocations := [{ method := "Events", container := some 1, typeArguments := [.named 6 []] }]
    assemblyAttributes := [
      { className := Settings.markerName {}, arguments := [.typeOf (.named 5 [])] }] }

/-- The controls, where the button has a static event too and is asked for in both modes. -/
def mixed : Program :=
  (controls.update 4 fun d => { d with
    events := d.events ++ [{ name := "Created", delegate := .named 2 [], isStatic := true }] }
  ).addAssemblyAttribute
    { className := Settings.markerName {}, arguments := [.typeOf (.named 4 [])] }

end Program

/-- Of one class the first wrapper declares a static part, and the second one that is not. -/
def Wrapper.DisagreesWith (s : Settings) (w w' : Wrapper) : Prop :=
  ∃ key c c', (key, c) ∈ (w.unit s).parts ∧ (key, c') ∈ (w'.unit s).parts ∧
    c.hasModifier .staticMember = true ∧ c'.hasModifier .staticMember = false

/-! ## Claims -/

namespace PassState

/-- What was delivered as a wrapper's unit holds a wrapper, whose class is claimed for its type. -/
structure Claims (i : PassInput) (st : PassState σ) : Prop where
  unit : ∀ u ∈ st.transcript.taken, u.kind.isWrapper →
    ∃ location w, u = PassStep.unitOf i location w
  owner : ∀ w ∈ st.transcript.wrappers, st.claimed.lookup w.classKey = some w.source

namespace Claims

variable {h : Host σ} {i : PassInput} {st st' : PassState σ}

/-- Claims are kept where nothing is delivered and claimed. -/
theorem of_eq (hst : st.Claims i) (htaken : st'.transcript.taken = st.transcript.taken)
    (hclaimed : st'.claimed = st.claimed) : st'.Claims i where
  unit := by
    rw [htaken]
    exact hst.unit
  owner := by
    rw [Transcript.wrappers, htaken, hclaimed]
    exact hst.owner

theorem initial (i : PassInput) (host : σ) : Claims i ({ host } : PassState σ) where
  unit _ hu := by cases hu
  owner _ hw := by cases hw

theorem told (hst : st.Claims i) (e : PassEvent) : (st.told h e).Claims i :=
  hst.of_eq (by simp [PassState.told]) rfl

theorem recorded (hst : st.Claims i) (change : Metrics → Metrics) :
    (st.recorded change).Claims i :=
  hst.of_eq rfl rfl

/-- A unit that holds no wrapper was taken. -/
theorem stored {u : Delivery} (hst : st.Claims i) (hkind : u.kind.isWrapper = false)
    (hwrapper : u.wrapper = none) (hu : st.answerTo h u = .ok ()) : (st.stored h u).Claims i where
  unit v hv hkind' := by
    rw [stored_taken hu, List.mem_append, List.mem_singleton] at hv
    rcases hv with hv | rfl
    · exact hst.unit v hv hkind'
    · rw [hkind] at hkind'
      cases hkind'
  owner w hw := by
    rw [Transcript.wrappers, stored_taken hu, List.filterMap_append, List.mem_append] at hw
    rcases hw with hw | hw
    · exact hst.owner w hw
    · simp [hwrapper] at hw

/-- A wrapper was delivered whose class no other type has claimed. -/
theorem delivered {location : Location} {w : Wrapper} (hst : st.Claims i)
    (hfree : st.owner? w = none) (hu : st.answerTo h (PassStep.unitOf i location w) = .ok ()) :
    ((st.stored h (PassStep.unitOf i location w)).entered h i w).Claims i where
  unit u hmem hkind := by
    rw [entered_transcript, Transcript.taken_append, Transcript.taken_told, List.append_nil,
      stored_taken hu, List.mem_append, List.mem_singleton] at hmem
    rcases hmem with hmem | rfl
    · exact hst.unit u hmem hkind
    · exact ⟨location, w, rfl⟩
  owner v hv := by
    rw [entered_transcript, Transcript.wrappers_append, Transcript.wrappers_told, List.append_nil,
      Transcript.wrappers, stored_taken hu, List.filterMap_append, List.mem_append] at hv
    rw [entered_claimed, List.lookup_cons]
    rcases hv with hv | hv
    · have howner := hst.owner v hv
      cases hkey : v.classKey == w.classKey with
      | false => exact howner
      | true =>
        -- the class was claimed already, so it was for the type of the new wrapper
        rw [owner?, ← beq_iff_eq.1 hkey, howner] at hfree
        simp at hfree
        simp [hfree]
    · obtain rfl : v = w := by simpa [PassStep.unitOf] using hv
      simp

end Claims

open PassStep

theorem kept_claims (h : Host σ) (i : PassInput) : Kept h i (Claims i) where
  change {st st'} hchange hst := by
    cases hchange with
    | failed => exact hst.told _
    | reported d =>
      refine hst.of_eq ?_ rfl
      rw [reported_transcript, Transcript.taken_append]
      exact List.append_nil _
    | refused hu => exact hst.of_eq (by simp [offered, hu]) rfl
    | delivered hfree hu => exact hst.delivered hfree hu
  counted hst := hst.of_eq rfl rfl

theorem claims_execute (h : Host σ) (i : PassInput) (start : σ) :
    Claims i (stateAfter (execute h i) { host := start }) := by
  cases hd : i.program.discover i.settings with
  | error e =>
    rw [stateAfter_error (execute_run_of_error h i hd _)]
    exact .initial i start
  | ok requests =>
    have hannounced : Claims i (PassState.announced h i requests { host := start }) :=
      announced_induction (fun hst => hst.recorded _) (fun hst => (hst.recorded _).told _)
        (fun hst => hst.told _) (.initial i start)
    exact (kept_claims h i).execute hd (fun hkind hwrapper hu hst => hst.stored hkind hwrapper hu)
      hannounced

end PassState

namespace PassInput

variable {h : Host σ} {i : PassInput} {start : σ} {w w' : Wrapper}

/-- Delivered wrappers with one class are for one type. -/
theorem source_eq_of_wrapperKey_eq (hw : w ∈ (i.run h start).transcript.wrappers)
    (hw' : w' ∈ (i.run h start).transcript.wrappers)
    (hkey : i.program.wrapperKey w.source = i.program.wrapperKey w'.source) :
    w.source = w'.source := by
  have hmade := makes_of_mem_wrappers h i start hw
  have hmade' := makes_of_mem_wrappers h i start hw'
  rw [wrappers_run] at hw hw'
  have hclaims := PassState.claims_execute h i start
  have howner := hclaims.owner w hw
  rw [hmade.classKey, hkey, ← hmade'.classKey, hclaims.owner w' hw'] at howner
  exact (Option.some.inj howner).symm

/-- A delivered unit of a wrapper is the text of the wrapper's unit. -/
theorem exists_wrapper_of_mem_taken {u : Delivery} (hu : u ∈ (i.run h start).transcript.taken)
    (hkind : u.kind.isWrapper) : ∃ w ∈ (i.run h start).transcript.wrappers,
      u.wrapper = some w ∧ u.text = (w.unit i.settings).render := by
  have hmem := hu
  rw [taken_run] at hu
  obtain ⟨location, w, rfl⟩ := (PassState.claims_execute h i start).unit u hu hkind
  exact ⟨w, List.mem_filterMap.2 ⟨_, hmem, rfl⟩, rfl, rfl⟩

/-- A class belongs to one type. Whatever the program, the requests and the host, each unit that a
pass delivers for a wrapper is the text of the wrapper's unit, and delivered wrappers whose units
declare one class are for one type. So of two types with the same class at most one is wrapped. -/
theorem class_belongs_to_one_type (h : Host σ) (i : PassInput) (start : σ) :
    (∀ u ∈ (i.run h start).transcript.taken, u.kind.isWrapper →
      ∃ w ∈ (i.run h start).transcript.wrappers,
        u.wrapper = some w ∧ u.text = (w.unit i.settings).render) ∧
    (∀ w ∈ (i.run h start).transcript.wrappers, ∀ w' ∈ (i.run h start).transcript.wrappers,
      ∀ key ∈ (w.unit i.settings).parts.map (·.1), key ∈ (w'.unit i.settings).parts.map (·.1) →
        w.source = w'.source) ∧
    ∀ t t', t ≠ t' → i.program.wrapperKey t = i.program.wrapperKey t' →
      (∀ w ∈ (i.run h start).transcript.wrappers, w.source ≠ t) ∨
        ∀ w ∈ (i.run h start).transcript.wrappers, w.source ≠ t' := by
  refine ⟨fun u hu hkind => exists_wrapper_of_mem_taken hu hkind, ?_, ?_⟩
  · intro w hw w' hw' key hkey hkey'
    rw [(makes_of_mem_wrappers h i start hw).parts_unit, List.map_singleton,
      List.mem_singleton] at hkey
    rw [(makes_of_mem_wrappers h i start hw').parts_unit, List.map_singleton,
      List.mem_singleton] at hkey'
    exact source_eq_of_wrapperKey_eq hw hw' (hkey.symm.trans hkey')
  · intro t t' hne hkey
    by_contra hboth
    push Not at hboth
    obtain ⟨⟨w, hw, rfl⟩, w', hw', rfl⟩ := hboth
    exact hne (source_eq_of_wrapperKey_eq hw hw' hkey)

theorem clashing_wrapped_once :
    let wrappers := ((Program.clashing.pass {}).run MemoryHost.host {}).transcript.wrappers
    (∃ w ∈ wrappers, ∃ w' ∈ wrappers, w.mode ≠ w'.mode ∧ w.source = w'.source) ∧
      ∀ w ∈ wrappers, w.source ≠ 6 := by
  intro wrappers
  have hclaims := class_belongs_to_one_type MemoryHost.host (Program.clashing.pass {}) {}
  have hboth : ∃ w ∈ wrappers, ∃ w' ∈ wrappers, w.mode ≠ w'.mode ∧ w.source = 5 ∧
      ∃ key ∈ (w.unit {}).parts.map (·.1), key ∈ (w'.unit {}).parts.map (·.1) := by
    decide +kernel
  obtain ⟨w, hw, w', hw', hmodes, hsource, key, hkey, hkey'⟩ := hboth
  refine ⟨⟨w, hw, w', hw', hmodes, hclaims.2.1 w hw w' hw' key hkey hkey'⟩, ?_⟩
  exact (hclaims.2.2 5 6 (by decide) (by decide)).resolve_left fun h => h w hw hsource

/-! ## Modes -/

/-- The parts of a class disagree only where they are for both modes of one type. -/
theorem disagreesWith_iff (hw : w ∈ (i.run h start).transcript.wrappers)
    (hw' : w' ∈ (i.run h start).transcript.wrappers) :
    w.DisagreesWith i.settings w' ↔
      w.source = w'.source ∧ w.mode = .ofStatics ∧ w'.mode = .ofInstance := by
  have hmade := makes_of_mem_wrappers h i start hw
  have hmade' := makes_of_mem_wrappers h i start hw'
  have hstatic : w.mode.isStatic = true ↔ w.mode = .ofStatics := by
    cases w.mode <;> simp [WrapperMode.isStatic]
  have hinstance : w'.mode.isStatic = false ↔ w'.mode = .ofInstance := by
    cases w'.mode <;> simp [WrapperMode.isStatic]
  rw [Wrapper.DisagreesWith, hmade.parts_unit, hmade'.parts_unit]
  constructor
  · rintro ⟨key, c, c', hc, hc', hstatic', hinstance'⟩
    obtain ⟨rfl, rfl⟩ := Prod.mk.inj (List.mem_singleton.1 hc)
    obtain ⟨hkey, rfl⟩ := Prod.mk.inj (List.mem_singleton.1 hc')
    rw [hmade.declaration_static, hstatic] at hstatic'
    rw [hmade'.declaration_static, hinstance] at hinstance'
    exact ⟨source_eq_of_wrapperKey_eq hw hw' hkey, hstatic', hinstance'⟩
  · rintro ⟨hsource, hm, hm'⟩
    refine ⟨_, _, w'.declaration, List.mem_singleton_self _, ?_, ?_, ?_⟩
    · rw [hsource]
      exact List.mem_singleton_self _
    · rw [hmade.declaration_static, hm]
      rfl
    · rw [hmade'.declaration_static, hm']
      rfl

/-- A pass that ends without a refusal has delivered exactly the static wrappers of requested types
that have static events. -/
theorem delivered_statics_iff {p : Program} {s : Settings} (hp : p.Acyclic) {requests : Requests}
    (hd : p.discover s = .ok requests) {report : PassReport}
    (hrun : ((p.pass s).run h start).outcome = .ok report)
    (hquiet : ∀ d ∈ report.diagnostics, d.id ≠ DiagnosticKind.outputConflict.id) (t : TypeId) :
    (∃ w ∈ ((p.pass s).run h start).transcript.wrappers, w.mode = .ofStatics ∧ w.source = t) ↔
      (∃ r ∈ requests.ofStatics, r.type = t) ∧ (p.collect t true true).isEmpty = false := by
  obtain ⟨opened, answered, closed, ds, hexecute, hanswers, hprogress, hquiet'⟩ :=
    exists_answered_of_quiet hd hrun hquiet
  have hsome : ∀ t, (p.staticWrapper? s t).isSome ↔ (p.collect t true true).isEmpty = false := by
    intro t
    rw [Program.staticWrapper?, Program.synthesize_isSome, Bool.or_false, Bool.not_eq_true']
  constructor
  · rintro ⟨w, hw, hm, rfl⟩
    have hagrees := agrees_execute (i := p.pass s) h start hp hd
    have hmade := (makes_of_mem_wrappers h (p.pass s) start hw).of_statics hm
    rw [wrappers_run] at hw
    obtain ⟨r, hr, hrm, hsource⟩ := hagrees.grown.static_requested hw hm
    refine ⟨⟨r, (Program.mem_ofStatics hd).2 ⟨hr, hrm⟩, hsource⟩, (hsome _).1 ?_⟩
    exact Option.isSome_of_eq_some hmade
  · rintro ⟨⟨r, hr, rfl⟩, hevents⟩
    obtain ⟨hr, hrm⟩ := (Program.mem_ofStatics hd).1 hr
    obtain ⟨w, hw⟩ := Option.isSome_iff_exists.1 ((hsome _).2 hevents)
    have hneeds : ∀ known, p.wrappersFor? s known r = some [w] := by
      intro known
      simp only [Program.wrappersFor?, hrm, hw, Option.map_some]
    obtain ⟨before, after, ws, ws', ds', hneeded, hp', hlater⟩ :=
      exists_delivered_of_answerAll hanswers hquiet' hr fun known => by rw [hneeds]; simp
    obtain rfl := Option.some.inj ((hneeds _).symm.trans hneeded)
    obtain ⟨hsource, hmode⟩ := Program.mode_of_staticWrapper? hw
    refine ⟨w, ?_, hmode, hsource⟩
    rw [wrappers_run, PassStep.stateAfter_ok hexecute, hprogress.wrappers, hlater.wrappers,
      hp'.wrappers]
    simp

/-- The parts of a class disagree on being static exactly where a type is wrapped in both modes.
When a pass ends without a refusal, there are such parts exactly if a type with static events is
requested for these and needs an instance wrapper as well. -/
theorem parts_disagree_iff_wrapped_twice (h : Host σ) (start : σ) :
    (∀ i : PassInput, ∀ w ∈ (i.run h start).transcript.wrappers,
      ∀ w' ∈ (i.run h start).transcript.wrappers, w.DisagreesWith i.settings w' ↔
        w.source = w'.source ∧ w.mode = .ofStatics ∧ w'.mode = .ofInstance) ∧
    ∀ (p : Program) (s : Settings) (requests : Requests) (report : PassReport), p.Acyclic →
      p.discover s = .ok requests → ((p.pass s).run h start).outcome = .ok report →
      (∀ d ∈ report.diagnostics, d.id ≠ "RXGEN003") →
      ((∃ w ∈ ((p.pass s).run h start).transcript.wrappers,
          ∃ w' ∈ ((p.pass s).run h start).transcript.wrappers, w.DisagreesWith s w') ↔
        ∃ t, (∃ r ∈ requests.ofStatics, r.type = t) ∧ (p.collect t true true).isEmpty = false ∧
          p.IsNeeded requests t) := by
  refine ⟨fun i w hw w' hw' => disagreesWith_iff hw hw', ?_⟩
  intro p s requests report hp hd hrun hquiet
  have hstatics := delivered_statics_iff hp hd hrun hquiet
  have hneeded := delivered_iff_isNeeded hp hd hrun hquiet
  constructor
  · rintro ⟨w, hw, w', hw', hdisagree⟩
    obtain ⟨hsource, hm, hm'⟩ := (disagreesWith_iff hw hw').1 hdisagree
    obtain ⟨hrequested, hevents⟩ := (hstatics w.source).1 ⟨w, hw, hm, rfl⟩
    exact ⟨w.source, hrequested, hevents, (hneeded w.source).1 ⟨w', hw', hm', hsource.symm⟩⟩
  · rintro ⟨t, hrequested, hevents, hneeds⟩
    obtain ⟨w, hw, hm, rfl⟩ := (hstatics t).2 ⟨hrequested, hevents⟩
    obtain ⟨w', hw', hm', hsource⟩ := (hneeded w.source).2 hneeds
    exact ⟨w, hw, w', hw', (disagreesWith_iff hw hw').2 ⟨hsource.symm, hm, hm'⟩⟩

/-- One class is declared as a static one, and as one that holds an object. -/
theorem mixed_parts_disagree :
    ∃ w ∈ ((Program.mixed.pass {}).run MemoryHost.host {}).transcript.wrappers,
      ∃ w' ∈ ((Program.mixed.pass {}).run MemoryHost.host {}).transcript.wrappers,
        w.mode ≠ w'.mode ∧
        ∃ part ∈ (w.unit {}).parts, ∃ part' ∈ (w'.unit {}).parts, part.1 = part'.1 ∧
          part.2.hasModifier .staticMember = true ∧ part'.2.hasModifier .staticMember = false ∧
          part'.2.fields.length = 1 ∧ part'.2.constructors.length = 1 := by
  decide +kernel

theorem mixed_button_wrapped_twice :
    Program.mixed.Acyclic ∧
      ((Program.mixed.pass {}).run MemoryHost.host {}).outcome.toOption.map (·.diagnostics) =
        some [] ∧
      ∃ w ∈ ((Program.mixed.pass {}).run MemoryHost.host {}).transcript.wrappers,
        ∃ w' ∈ ((Program.mixed.pass {}).run MemoryHost.host {}).transcript.wrappers,
          w.source = 4 ∧ w'.source = 4 ∧ w.DisagreesWith {} w' := by
  have hacyclic : Program.mixed.Acyclic := Program.acyclic_of_base_lt (by decide)
  have hquiet : ((Program.mixed.pass {}).run MemoryHost.host {}).outcome.toOption.map
      (·.diagnostics) = some [] := by
    decide +kernel
  have hdiscover : Program.mixed.discover {} = .ok {
      ofInstances := [⟨4, .ofInstance, {}⟩], ofStatics := [⟨4, .ofStatics, {}⟩] } := by
    decide +kernel
  obtain ⟨report, hrun, hreport⟩ := exists_report_of_map_eq hquiet
  have hsource : ∀ w ∈ ((Program.mixed.pass {}).run MemoryHost.host {}).transcript.wrappers,
      w.mode = .ofStatics → w.source = 4 := by
    decide +kernel
  obtain ⟨hparts, hruns⟩ := parts_disagree_iff_wrapped_twice MemoryHost.host {}
  obtain ⟨w, hw, w', hw', hdisagree⟩ :=
    (hruns Program.mixed {} _ report hacyclic hdiscover hrun (by simp [hreport])).2
      ⟨4, ⟨_, List.mem_singleton_self _, rfl⟩, by decide +kernel,
        ⟨_, List.mem_singleton_self _, .inl ⟨rfl, .inl (by decide)⟩⟩⟩
  obtain ⟨heq, hm, -⟩ := (hparts (Program.mixed.pass {}) w hw w' hw').1 hdisagree
  exact ⟨hacyclic, hquiet, w, hw, w', hw', hsource w hw hm, heq ▸ hsource w hw hm, hdisagree⟩

end PassInput

end EventWrap
