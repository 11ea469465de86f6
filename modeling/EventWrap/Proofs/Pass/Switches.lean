import EventWrap.Host.Memory
import EventWrap.Proofs.Pass.Requests
import EventWrap.Proofs.Pass.Simulation
import EventWrap.Proofs.Wrapper.Chain
import EventWrap.Proofs.Wrapper.Tidy

/-!
# Switches of the output

Settings that differ in a switch of the output only lead to passes that go side by side: they
discover the same requests, build the same wrappers and offer units of the same names, whose texts
differ by the lines that the switch is about. Where the triggers are not written, they are the one
unit that is missing.
-/

namespace EventWrap

open Text

/-! ## The same told again -/

section Retold

variable (T : String → String → Prop)

/-- A wrapper made under other settings, which may differ in its text only. -/
structure Wrapper.Retold (s s' : Settings) (w w' : Wrapper) : Prop where
  source : w'.source = w.source
  mode : w'.mode = w.mode
  name : w'.name = w.name
  fileName : w'.fileName = w.fileName
  exposed : w'.exposed = w.exposed
  classKey : w'.classKey = w.classKey
  text : T (w.render s) (w'.render s')
  apart : w.fileName ≠ Settings.triggersFileName

/-- Settings that lead to the same units as others but for the texts, which are related. -/
structure Settings.Retells (p : Program) (s s' : Settings) : Prop where
  holderName : s'.holderName = s.holderName
  discover : p.discover s' = p.discover s
  synthesize (plan : WrapperPlan) : p.IsWritable plan →
    Option.Rel (Wrapper.Retold T s s') (p.synthesize s plan) (p.synthesize s' plan)
  extensions (ids : List TypeId) : Option.Rel T (s.renderExtensions (ids.map (p.factoryOf s)))
    (s'.renderExtensions (ids.map (p.factoryOf s')))
  triggers : T s.renderTriggers s'.renderTriggers

end Retold

namespace Settings.Retells

variable {T : String → String → Prop} {p : Program} {s s' : Settings} (h : Retells T p s s')
  (hp : p.HasOneLineNames)

include h hp

theorem linkWrapper? (known : Exposure) (id : TypeId) : Option.Rel (Wrapper.Retold T s s')
    (p.linkWrapper? s known id) (p.linkWrapper? s' known id) :=
  h.synthesize _ (Program.isWritable_link hp known id _)

theorem linkWrappers (links : List TypeId) (known : Exposure) :
    List.Forall₂ (Wrapper.Retold T s s') (p.linkWrappers s known links)
      (p.linkWrappers s' known links) := by
  induction links generalizing known with
  | nil => exact .nil
  | cons link rest ih =>
    have hlink := h.linkWrapper? hp known link
    rw [Program.linkWrappers_cons, Program.linkWrappers_cons]
    split
    · exact ih known
    · generalize p.linkWrapper? s known link = w, p.linkWrapper? s' known link = w' at hlink
      cases hlink with
      | none => exact ih known
      | some hretold =>
        refine .cons hretold ?_
        rw [hretold.exposed]
        exact ih _

theorem wrappersFor? (known : Exposure) (r : Request) :
    Option.Rel (List.Forall₂ (Wrapper.Retold T s s')) (p.wrappersFor? s known r)
      (p.wrappersFor? s' known r) := by
  unfold Program.wrappersFor?
  cases r.mode with
  | ofInstance =>
    simp only [Program.instanceWrappers?]
    split
    · exact .none
    · exact .some (h.linkWrappers hp _ known)
  | ofStatics =>
    have hstatic := h.synthesize _ (Program.isWritable_static hp r.type)
    simp only [Program.staticWrapper?]
    generalize p.synthesize s _ = w, p.synthesize s' _ = w' at hstatic
    cases hstatic with
    | none => exact .none
    | some hretold => exact .some (.cons hretold .nil)

end Settings.Retells

/-! ## Hosts side by side -/

namespace MemoryHost

/-- Units of the same names, by name and text, whose texts are related. -/
abbrev UnitsRetold (T : String → String → Prop) : List (String × String) →
    List (String × String) → Prop :=
  List.Forall₂ fun u u' => u'.1 = u.1 ∧ T u.2 u'.2

/-- A host holds some units in front of those of another, whose texts are related. -/
structure Retold (T : String → String → Prop) (before : List (String × String))
    (m m' : MemoryHost) : Prop where
  running : m.isCancelled = false
  running' : m'.isCancelled = false
  sources : ∃ taken, m.sources = before ++ taken ∧ UnitsRetold T taken m'.sources ∧
    ∀ u ∈ taken, ∀ b ∈ before, b.1 ≠ u.1

variable {T : String → String → Prop} {before taken taken' : List (String × String)}
  {m m' : MemoryHost}

theorem UnitsRetold.names (h : UnitsRetold T taken taken') :
    taken'.map (·.1) = taken.map (·.1) := by
  induction h with
  | nil => rfl
  | cons hu _ ih => exact congrArg₂ List.cons hu.1 ih

theorem UnitsRetold.exists_text (h : UnitsRetold T taken taken') :
    ∀ u ∈ taken, ∃ text', T u.2 text' := by
  induction h with
  | nil => exact List.forall_mem_nil _
  | cons hu _ ih => exact List.forall_mem_cons.2 ⟨⟨_, hu.2⟩, ih⟩

theorem UnitsRetold.eq_map {f : String → String} (h : UnitsRetold T taken taken')
    (hT : ∀ text text', T text text' → text' = f text) :
    taken' = taken.map fun u => (u.1, f u.2) := by
  induction h with
  | nil => rfl
  | cons hu _ ih => exact congrArg₂ List.cons (Prod.ext hu.1 (hT _ _ hu.2)) ih

/-- A unit that is not among those in front is answered alike, and taken by both or by none. -/
theorem Retold.offered (h : Retold T before m m') {hintName text text' : String}
    (hapart : ∀ b ∈ before, b.1 ≠ hintName) (htext : T text text') :
    (offer hintName text' m').1 = (offer hintName text m).1 ∧
      Retold T before (offer hintName text m).2 (offer hintName text' m').2 := by
  obtain ⟨taken, htaken, hretold, hothers⟩ := h.sources
  have hknown : hintName ∈ m'.hintNames ↔ hintName ∈ m.hintNames := by
    rw [hintNames, hintNames, hretold.names, htaken, List.map_append, List.mem_append]
    refine ⟨.inr, fun hmem => hmem.resolve_left fun hfront => ?_⟩
    obtain ⟨b, hb, heq⟩ := List.mem_map.1 hfront
    exact hapart b hb heq
  rw [offer, offer]
  cases HintName.validate hintName with
  | error e => exact ⟨rfl, h⟩
  | ok =>
    simp only [hknown]
    split
    · exact ⟨rfl, h⟩
    · refine ⟨rfl, h.running, h.running', taken ++ [(hintName, text)], ?_, ?_, ?_⟩
      · rw [htaken, List.append_assoc]
      · exact List.rel_append hretold (.cons ⟨rfl, htext⟩ .nil)
      · exact List.forall_mem_append.2 ⟨hothers, List.forall_mem_singleton.2 hapart⟩

end MemoryHost

/-! ## Passes side by side -/

namespace PassState

/-- Two passes have the same but for the texts of their units, and one has some units in front. -/
structure Retold (T : String → String → Prop) (i : PassInput) (s' : Settings)
    (before : List (String × String)) (st st' : PassState MemoryHost) : Prop where
  host : st.host.Retold T before st'.host
  exposure : st'.exposure = st.exposure
  claimed : st'.claimed = st.claimed
  processed : st'.processed = st.processed
  factories : ∃ ids : List TypeId, st.factories = ids.map (i.program.factoryOf i.settings) ∧
    st'.factories = ids.map (i.program.factoryOf s')

variable {T : String → String → Prop} {i : PassInput} {s' : Settings}
  {before : List (String × String)} {st st' : PassState MemoryHost}

theorem Retold.initial (T : String → String → Prop) (i : PassInput) (s' : Settings) :
    Retold T i s' [] { host := {} } { host := {} } where
  host := ⟨rfl, rfl, [], rfl, .nil, List.forall_mem_nil _⟩
  exposure := rfl
  claimed := rfl
  processed := rfl
  factories := ⟨[], rfl, rfl⟩

theorem Retold.handed (h : Retold T i s' before st st') {u u' : Delivery}
    (hsubject : u'.subject = u.subject) (hlocation : u'.location = u.location)
    (hname : u'.hintName = u.hintName) (htext : T u.text u'.text)
    (hapart : ∀ b ∈ before, b.1 ≠ u.hintName) :
    st.Handed MemoryHost.host MemoryHost.host (fun _ => False) (Retold T i s' before) st' u u' := by
  obtain ⟨hanswer, hhost⟩ := h.host.offered hapart htext
  have hoffered : (st.offered MemoryHost.host u).host.Retold T before
      (st'.offered MemoryHost.host u').host := by
    change MemoryHost.Retold T before _ (MemoryHost.offer u'.hintName u'.text st'.host).2
    rw [hname]
    exact hhost
  refine ⟨hsubject, hlocation, fun _ => ?_, fun _ => ?_, fun _ _ => ?_⟩
  · change (MemoryHost.offer u'.hintName u'.text st'.host).1 = _
    rw [hname]
    exact hanswer
  · exact ⟨hoffered, h.exposure, h.claimed, h.processed, h.factories⟩
  · exact ⟨hoffered, h.exposure, h.claimed, h.processed, h.factories⟩

theorem Retold.entered (h : Retold T i s' before st st') {w w' : Wrapper}
    (hw : w.Retold T i.settings s' w') :
    Retold T i s' before (st.entered MemoryHost.host i w)
      (st'.entered MemoryHost.host { i with settings := s' } w') := by
  obtain ⟨ids, hids, hids'⟩ := h.factories
  refine ⟨?_, ?_, ?_, ?_, ?_⟩
  · rw [entered_host, entered_host]
    exact h.host
  · rw [entered_exposure, entered_exposure, hw.mode, hw.source, hw.exposed, h.exposure]
  · rw [entered_claimed, entered_claimed, hw.classKey, hw.source, h.claimed]
  · rw [entered_processed, entered_processed, h.processed]
  · rw [entered_factories, entered_factories, hids, hids']
    simp only [Program.factory?, hw.mode, hw.source]
    cases w.mode with
    | ofInstance =>
      refine ⟨ids ++ [w.source], ?_, ?_⟩
      · rw [List.map_append]
        rfl
      · rw [List.map_append]
        rfl
    | ofStatics => exact ⟨ids, List.append_nil _, List.append_nil _⟩

end PassState

namespace Settings.Retells

open PassState PassStep

variable {T : String → String → Prop} {i : PassInput} {s' : Settings}
  {before : List (String × String)}

/-- The pass under the other settings follows, whatever triggers stand in front. -/
theorem simulates (h : Retells T i.program i.settings s') (hp : i.program.HasOneLineNames)
    (hbefore : ∀ b ∈ before, b.1 = triggersFileName) :
    i.Simulates MemoryHost.host MemoryHost.host { i with settings := s' } (fun _ => False)
      (Wrapper.Retold T i.settings s') (PassState.Retold T i s' before) where
  lapses _ hgone := hgone
  program := rfl
  discover := h.discover
  source hw := hw.source
  name hw := hw.name
  owner? {st st' w w'} hst hw := by
    rw [PassState.owner?, PassState.owner?, hst.claimed, hw.classKey, hw.source]
  stops {st st'} hst turn := by
    have hrunning : MemoryHost.host.cancelled st'.host = MemoryHost.host.cancelled st.host :=
      hst.host.running'.trans hst.host.running.symm
    rw [PassInput.stops, PassInput.stops, hrunning]
  processed hst := hst.processed
  stopping? hst r := by rw [hst.exposure]
  wrappersFor? hst r := by
    rw [hst.exposure]
    exact h.wrappersFor? hp _ r
  recorded hst _ := ⟨hst.host, hst.exposure, hst.claimed, hst.processed, hst.factories⟩
  told hst _ := ⟨hst.host, hst.exposure, hst.claimed, hst.processed, hst.factories⟩
  reported hst d := ⟨⟨hst.host.running, hst.host.running', hst.host.sources⟩, hst.exposure,
    hst.claimed, hst.processed, hst.factories⟩
  counted hst :=
    ⟨hst.host, hst.exposure, hst.claimed, congrArg (· + 1) hst.processed, hst.factories⟩
  unitOf {st st' w w'} hst hw location := by
    refine hst.handed ?_ rfl hw.fileName hw.text fun b hb heq => hw.apart ?_
    · exact congrArg i.program.qualifiedName hw.source
    · exact heq.symm.trans (hbefore b hb)
  entered hst hw := hst.entered hw
  extensionsUnitOf {st st'} hst := by
    have hother : triggersFileName ≠ extensionsFileName := by decide
    obtain ⟨ids, hids, hids'⟩ := hst.factories
    have htexts : Option.Rel T (i.settings.renderExtensions st.factories)
        (s'.renderExtensions st'.factories) := by
      rw [hids, hids']
      exact h.extensions ids
    change Option.Rel _ _ (s'.renderExtensions st'.factories)
    generalize i.settings.renderExtensions st.factories = text?,
      s'.renderExtensions st'.factories = text?' at htexts
    cases htexts with
    | none => exact .none
    | some htext =>
      exact .some (hst.handed h.holderName rfl rfl htext fun b hb heq =>
        hother ((hbefore b hb).symm.trans heq))

end Settings.Retells

/-! ## Units of a pass -/

namespace PassInput

open PassStep

/-- What a host in memory holds at the end is what it holds after the last step. -/
theorem run_host (i : PassInput) (start : MemoryHost) :
    (i.run MemoryHost.host start).host =
      (stateAfter (execute MemoryHost.host i) { host := start }).host := by
  rcases hx : execute MemoryHost.host i { host := start } with ⟨⟨⟩, st⟩ | ⟨e, st⟩
  · rw [run_of_ok hx, stateAfter_ok hx]
    rfl
  · rw [stateAfter_error hx]
    cases e with
    | cancelled =>
      rw [run_of_cancelled hx]
      rfl
    | missingHolder name =>
      rw [run, steps_of_error hx]
      rfl

/-- The units that a pass under some settings leaves with a fresh host, by name and text. -/
def unitsUnder (i : PassInput) (s : Settings) : List (String × String) :=
  (run MemoryHost.host { i with settings := s } {}).host.sources

end PassInput

namespace Settings.Retells

open PassState PassStep

variable {T : String → String → Prop} {i : PassInput} {s' : Settings}
  {before : List (String × String)}

theorem exists_units (hexecute : Coincide (fun _ => False) (PassState.Retold T i s' before) Eq
      (execute MemoryHost.host i) { host := {} }
      (execute MemoryHost.host { i with settings := s' }) { host := {} }) :
    ∃ taken, i.unitsUnder i.settings = before ++ taken ∧
      MemoryHost.UnitsRetold T taken (i.unitsUnder s') ∧ ∀ u ∈ taken, ∀ b ∈ before, b.1 ≠ u.1 := by
  rw [PassInput.unitsUnder, PassInput.unitsUnder, PassInput.run_host, PassInput.run_host]
  cases hexecute with
  | ok first second _ states =>
    rw [stateAfter_ok first, stateAfter_ok second]
    exact states.host.sources
  | error first second states =>
    rw [stateAfter_error first, stateAfter_error second]
    exact states.host.sources
  | lapsed gone => exact gone.elim

/-- Where both passes write the triggers or neither does, the units differ in their texts only. -/
theorem unitsRetold (h : Retells T i.program i.settings s') (hp : i.program.HasOneLineNames)
    (hemit : s'.emitBootstrap = i.settings.emitBootstrap) :
    MemoryHost.UnitsRetold T (i.unitsUnder i.settings) (i.unitsUnder s') := by
  have hs := h.simulates hp (List.forall_mem_nil _)
  have hst := Retold.initial T i s'
  obtain ⟨taken, htaken, hretold, -⟩ := exists_units (hs.coincide_execute hst fun requests _ =>
    hs.coincide_deliverTriggers (hs.announced hst requests) hemit fun _ =>
      (hs.announced hst requests).handed h.holderName rfl rfl h.triggers (List.forall_mem_nil _))
  rw [htaken]
  exact hretold

end Settings.Retells

/-! ## The switches -/

namespace Settings

open Code Program

variable {p : Program} {s : Settings}

theorem hintName_ne_triggersFileName (p : Program) (id : TypeId) (mode : WrapperMode) :
    p.hintName id mode ≠ triggersFileName := by
  intro heq
  have hfirst := congrArg (fun name : String => name.toList.head?) heq
  simp [hintName, triggersFileName] at hfirst

theorem nullable_addClass (u : SourceUnit) (namespaceName : String) (c : ClassBlock) :
    (u.addClass namespaceName c).nullable = u.nullable := by
  rw [SourceUnit.addClass]
  split <;> rfl

/-- Settings whose units are those of others in another form, when this relates the texts. -/
theorem retells_of_units (hp : p.HasOneLineNames) (hs : s.HasOneLineNames) {s' : Settings}
    (form : SourceUnit → SourceUnit) {T : String → String → Prop}
    (htext : ∀ u : SourceUnit, u.Tidy → u.nullable = s.emitNullableDirective →
      T u.render (form u).render)
    (hholder : s'.holderName = s.holderName) (hdiscover : p.discover s' = p.discover s)
    (hwrapper : ∀ namespaceName mode parent t,
      s'.emptyUnit.addClass namespaceName (p.wrapperClass s' mode parent t) =
        form (s.emptyUnit.addClass namespaceName (p.wrapperClass s mode parent t)))
    (hextensions : ∀ ids : List TypeId,
      s'.emptyUnit.addClass s'.extensionsNamespace
          (s'.extensionsClassOf (ids.map (p.factoryOf s'))) =
        form (s.emptyUnit.addClass s.extensionsNamespace
          (s.extensionsClassOf (ids.map (p.factoryOf s)))))
    (htriggers : s'.triggersUnit = form s.triggersUnit) : Retells T p s s' where
  holderName := hholder
  discover := hdiscover
  synthesize plan hplan := by
    have htidy := fun w => tidy_unit hp hs hplan (w := w)
    simp only [Program.synthesize] at htidy ⊢
    split
    · exact .none
    · next hwanted =>
      rw [if_neg hwanted] at htidy
      refine .some ⟨rfl, rfl, rfl, rfl, rfl, rfl, ?_, hintName_ne_triggersFileName p _ _⟩
      have hunit := htext _ (htidy _ rfl) (nullable_addClass _ _ _)
      rwa [Wrapper.unit, ← hwrapper] at hunit
  extensions ids := by
    have htidy := tidy_extensionsUnit hs hp ids
    rw [renderExtensions, renderExtensions]
    unfold extensionsUnit at htidy ⊢
    cases ids with
    | nil => exact .none
    | cons id rest =>
      have hunit := htext _ (htidy _ rfl) (nullable_addClass _ _ _)
      rw [← hextensions] at hunit
      exact .some hunit
  triggers := by
    rw [renderTriggers, renderTriggers, htriggers]
    refine htext _ (tidy_triggersUnit hs) ?_
    rw [triggersUnit, nullable_addClass, nullable_addClass]
    rfl

theorem retells_undocumented (hp : p.HasOneLineNames) (hs : s.HasOneLineNames) :
    Retells (fun text text' => text' = withoutLines isDocumentation text) p s s.undocumented := by
  refine retells_of_units hp hs SourceUnit.undocumented
    (fun u hu _ => SourceUnit.render_undocumented hu) rfl rfl
    (fun namespaceName mode parent t => ?_) (fun ids => ?_) (triggersUnit_undocumented s)
  · rw [SourceUnit.undocumented_addClass, wrapperClass_undocumented]
    rfl
  · rw [SourceUnit.undocumented_addClass, extensionsClassOf_undocumented]
    rfl

theorem retells_undirected (hp : p.HasOneLineNames) (hs : s.HasOneLineNames) :
    Retells (fun text text' => text' = withoutLines isNullableDirective text ∧
      (s.emitNullableDirective → (text.toList.splitOn '\n').countP isNullableDirective = 1))
      p s s.undirected := by
  refine retells_of_units hp hs SourceUnit.undirected
    (fun u hu hnullable => ⟨SourceUnit.render_undirected hu, fun hswitch =>
      SourceUnit.count_directive hu (hnullable.trans hswitch)⟩)
    rfl rfl (fun namespaceName mode parent t => ?_) (fun ids => ?_) (triggersUnit_undirected s)
  · rw [SourceUnit.undirected_addClass]
    rfl
  · rw [SourceUnit.undirected_addClass]
    rfl

/-- The settings under which the triggers are not written. -/
def withoutTriggers (s : Settings) : Settings := { s with emitBootstrap := false }

theorem retells_withoutTriggers (hp : p.HasOneLineNames) (hs : s.HasOneLineNames) :
    Retells (fun text text' => text' = text) p s s.withoutTriggers :=
  retells_of_units hp hs id (fun _ _ _ => rfl) rfl rfl (fun _ _ _ _ => rfl)
    (fun _ => rfl) rfl

end Settings

namespace PassInput

open PassState PassStep Settings

variable {i : PassInput}

theorem announced_host (i : PassInput) (requests : Requests) (start : MemoryHost) :
    (PassState.announced MemoryHost.host i requests { host := start }).host = start :=
  announced_induction (I := fun st : PassState MemoryHost => st.host = start) (fun hst => hst)
    (fun hst => hst) (fun hst => hst) rfl

/-- A fresh host takes the triggers. -/
theorem offer_triggers (text : String) : MemoryHost.offer triggersFileName text {} =
    (.ok (), { sources := [(triggersFileName, text)] }) := by
  have hvalid : HintName.validate triggersFileName = .ok () := rfl
  rw [MemoryHost.offer, hvalid]
  rfl

/-- The triggers are the first unit that a pass which is not cancelled leaves with a fresh host. -/
theorem prepare_withTriggers (hemit : i.settings.emitBootstrap)
    (hfree : ∀ turn, i.interrupted turn = false) (requests : Requests) :
    let st := PassState.announced MemoryHost.host i requests { host := {} }
    let st' := st.stored MemoryHost.host (triggersUnitOf i)
    prepare MemoryHost.host i requests { host := {} } = .ok () st' ∧
      st'.host = { sources := [(triggersFileName, i.settings.renderTriggers)] } := by
  intro st st'
  have hhost : st.host = {} := announced_host i requests {}
  have hanswer : st.answerTo MemoryHost.host (triggersUnitOf i) = .ok () := by
    change (MemoryHost.offer triggersFileName i.settings.renderTriggers st.host).1 = _
    rw [hhost, offer_triggers]
  have hrunning : ¬i.stops MemoryHost.host .triggers st := by
    rw [PassInput.stops, hfree, hhost]
    decide
  constructor
  · rw [prepare_run, deliverTriggers_run, if_pos hemit, if_neg hrunning,
      deliverUnit_of_taken hanswer]
  · change (MemoryHost.offer triggersFileName i.settings.renderTriggers st.host).2 = _
    rw [hhost, offer_triggers]

theorem prepare_withoutTriggers (hemit : i.settings.emitBootstrap = false) (requests : Requests)
    (st : PassState MemoryHost) : prepare MemoryHost.host i requests st =
      .ok () (PassState.announced MemoryHost.host i requests st) := by
  rw [prepare_run, deliverTriggers_run, if_neg (Bool.eq_false_iff.1 hemit)]

/-- A pass that is not cancelled leaves the triggers with a fresh host, and then what it leaves when
the triggers are not written. -/
theorem unitsUnder_withoutTriggers (hp : i.program.HasOneLineNames)
    (hs : i.settings.HasOneLineNames) (hfree : ∀ turn, i.interrupted turn = false)
    (hemit : i.settings.emitBootstrap) {requests : Requests}
    (hd : i.program.discover i.settings = .ok requests) :
    i.unitsUnder i.settings = (triggersFileName, i.settings.renderTriggers) ::
        i.unitsUnder i.settings.withoutTriggers ∧
      ∀ u ∈ i.unitsUnder i.settings.withoutTriggers, u.1 ≠ triggersFileName := by
  let i' : PassInput := { i with settings := i.settings.withoutTriggers }
  have hretells := retells_withoutTriggers hp hs
  have hannounced := (hretells.simulates hp (List.forall_mem_nil _)).announced
    (Retold.initial _ i i.settings.withoutTriggers) requests
  have hbefore : ∀ b ∈ [(triggersFileName, i.settings.renderTriggers)], b.1 = triggersFileName :=
    List.forall_mem_singleton.2 rfl
  obtain ⟨hfirst, hhost⟩ := prepare_withTriggers hemit hfree requests
  have hsecond : prepare MemoryHost.host i' requests { host := {} } = _ :=
    prepare_withoutTriggers rfl requests _
  -- Past the triggers, which one host holds in front, the states agree.
  have hstates : Retold (fun text text' => text' = text) i i.settings.withoutTriggers
      [(triggersFileName, i.settings.renderTriggers)]
      ((PassState.announced MemoryHost.host i requests { host := {} }).stored MemoryHost.host
        (triggersUnitOf i))
      (PassState.announced MemoryHost.host i' requests { host := {} }) := by
    refine ⟨?_, hannounced.exposure, hannounced.claimed, hannounced.processed, hannounced.factories⟩
    rw [hhost, announced_host]
    exact ⟨rfl, rfl, [], rfl, .nil, List.forall_mem_nil _⟩
  obtain ⟨taken, htaken, hretold, hothers⟩ := Retells.exists_units
    ((hretells.simulates hp hbefore).coincide_execute_of_prepare hd
      (.ok hfirst hsecond rfl hstates))
  have hsame : i.unitsUnder i.settings.withoutTriggers = taken :=
    (hretold.eq_map (f := id) fun _ _ htext => htext).trans (List.map_id _)
  rw [hsame]
  exact ⟨htaken, fun u hu heq =>
    hothers u hu (triggersFileName, i.settings.renderTriggers) List.mem_cons_self heq.symm⟩

/-- A pass that misses the holder leaves nothing. -/
theorem unitsUnder_of_discover_eq_error {s : Settings} {e : PassError}
    (hd : i.program.discover s = .error e) : i.unitsUnder s = [] := by
  rw [unitsUnder, run_host, stateAfter_error (execute_run_of_error _ _ hd _)]

/-- The switches of the output leave the code alone. Without documentation a pass leaves the same
units without the lines of it; without the directive, which each unit has on one line, the same
units without this line; and where the triggers are not written, they are the one unit that is
missing. -/
theorem switches_leave_code (i : PassInput) (hnames : i.program.HasOneLineNames)
    (hvalid : i.settings.validate = .ok ()) (hfree : ∀ turn, i.interrupted turn = false) :
    i.unitsUnder i.settings.undocumented =
        (i.unitsUnder i.settings).map (fun u => (u.1, withoutLines isDocumentation u.2)) ∧
      i.unitsUnder i.settings.undirected =
        (i.unitsUnder i.settings).map (fun u => (u.1, withoutLines isNullableDirective u.2)) ∧
      (i.settings.emitNullableDirective → ∀ u ∈ i.unitsUnder i.settings,
        (u.2.toList.splitOn '\n').countP isNullableDirective = 1) ∧
      (i.settings.emitBootstrap → i.unitsUnder i.settings =
        (match i.program.discover i.settings with
          | .ok _ => [(triggersFileName, i.settings.renderTriggers)]
          | .error _ => []) ++ i.unitsUnder i.settings.withoutTriggers ∧
        ∀ u ∈ i.unitsUnder i.settings.withoutTriggers, u.1 ≠ triggersFileName) := by
  have hs := hasOneLineNames hvalid
  have hundirected := (retells_undirected hnames hs).unitsRetold hnames rfl
  refine ⟨((retells_undocumented hnames hs).unitsRetold hnames rfl).eq_map fun _ _ htext => htext,
    hundirected.eq_map fun _ _ htext => htext.1, fun hdirective u hu => ?_, fun hemit => ?_⟩
  · obtain ⟨_, -, hcount⟩ := hundirected.exists_text u hu
    exact hcount hdirective
  · cases hd : i.program.discover i.settings with
    | ok requests => exact unitsUnder_withoutTriggers hnames hs hfree hemit hd
    | error e =>
      have hd' : i.program.discover i.settings.withoutTriggers = .error e := hd
      rw [unitsUnder_of_discover_eq_error hd, unitsUnder_of_discover_eq_error hd']
      exact ⟨rfl, List.forall_mem_nil _⟩

/-- A pass that wraps a button and a control leaves two wrappers, with the triggers in front and the
extensions behind; without documentation the same, and without the triggers all but them. -/
theorem controls_switches :
    let i := Program.controls.pass {}
    let wrapped := ["SourceClassControl-InstanceEvents.SourceGenerated.cs",
      "SourceClassButton-InstanceEvents.SourceGenerated.cs",
      "ObservableGeneratorExtensions.FoundEvents.SourceGenerated.cs"]
    (i.unitsUnder i.settings.undocumented).map (·.1) =
        "ObservableGeneratorExtensions.SourceGenerated.cs" :: wrapped ∧
      i.unitsUnder i.settings.undocumented =
        (i.unitsUnder i.settings).map (fun u => (u.1, withoutLines isDocumentation u.2)) ∧
      (i.unitsUnder i.settings.withoutTriggers).map (·.1) = wrapped := by
  intro i wrapped
  have hnames : i.program.HasOneLineNames := by decide
  have hwrapped : (i.unitsUnder i.settings).map (·.1) =
      "ObservableGeneratorExtensions.SourceGenerated.cs" :: wrapped := by decide +kernel
  obtain ⟨hundocumented, -, -, htriggers⟩ :=
    switches_leave_code i hnames (by decide) fun _ => rfl
  obtain ⟨hfront, -⟩ := htriggers rfl
  have hd : i.program.discover i.settings = _ := Program.discover_controls
  rw [hd] at hfront
  refine ⟨?_, hundocumented, ?_⟩
  · rw [hundocumented, List.map_map]
    exact hwrapped
  · rw [hfront] at hwrapped
    exact List.tail_eq_of_cons_eq hwrapped

end PassInput

end EventWrap
