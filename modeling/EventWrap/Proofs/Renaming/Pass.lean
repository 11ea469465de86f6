import EventWrap.Host.Memory
import EventWrap.Proofs.Pass.Effects
import EventWrap.Proofs.Renaming.Requests
import EventWrap.Proofs.Renaming.Wrapper

/-!
# Passes over rearranged programs

Two passes over a program and a rearrangement of it go side by side. Their states are alike: both
hosts hold the same units and the same wordings, and the records of one pass are those of the other
renamed. Every step keeps states alike, so both passes come to the same end.
-/

namespace EventWrap

/-! ## Hosts -/

/-- What a diagnostic says, apart from where. -/
def Diagnostic.wording (d : Diagnostic) : String × String := (d.id, d.message)

/-- Hosts that differ in the places of diagnostics only. -/
structure MemoryHost.Alike (host host' : MemoryHost) : Prop where
  sources : host'.sources = host.sources
  wordings : host'.diagnostics.map (·.wording) = host.diagnostics.map (·.wording)
  isCancelled : host'.isCancelled = host.isCancelled

namespace MemoryHost.Alike

variable {host host' : MemoryHost} (h : host.Alike host')

include h

theorem reported {d d' : Diagnostic} (hd : d'.wording = d.wording) :
    (MemoryHost.report d host).Alike (MemoryHost.report d' host') where
  sources := h.sources
  wordings := by simp only [MemoryHost.report, List.map_append, h.wordings, List.map_cons,
    List.map_nil, hd]
  isCancelled := h.isCancelled

/-- Hosts that hold the same units take and refuse alike. -/
theorem offered (hintName text : String) :
    (MemoryHost.offer hintName text host').1 = (MemoryHost.offer hintName text host).1 ∧
      (MemoryHost.offer hintName text host).2.Alike (MemoryHost.offer hintName text host').2 := by
  unfold MemoryHost.offer MemoryHost.hintNames
  rw [h.sources]
  cases HintName.validate hintName with
  | error e => exact ⟨rfl, h⟩
  | ok =>
    simp only
    split
    · exact ⟨rfl, h⟩
    · exact ⟨rfl, rfl, h.wordings, h.isCancelled⟩

end MemoryHost.Alike

/-! ## States -/

/-- The states of two passes, the second one over a renamed program. -/
structure PassState.Alike (σ : TypeId → TypeId) (st st' : PassState MemoryHost) : Prop where
  host : st.host.Alike st'.host
  exposure : st'.exposure = st.exposure.rename σ
  claimed : st'.claimed = st.claimed.map fun claim => (claim.1, σ claim.2)
  factories : st'.factories = st.factories.map (·.rename σ)

namespace PassState.Alike

variable {σ : TypeId → TypeId} {st st' : PassState MemoryHost}

theorem start (σ : TypeId → TypeId) : Alike σ { host := {} } { host := {} } where
  host := ⟨rfl, rfl, rfl⟩
  exposure := rfl
  claimed := rfl
  factories := rfl

section Steps

variable (h : st.Alike σ st')

include h

theorem cancelled : MemoryHost.host.cancelled st'.host = MemoryHost.host.cancelled st.host :=
  h.host.isCancelled

theorem counted : st.counted.Alike σ st'.counted := ⟨h.host, h.exposure, h.claimed, h.factories⟩

theorem told (e e' : PassEvent) :
    (st.told MemoryHost.host e).Alike σ (st'.told MemoryHost.host e') :=
  ⟨h.host, h.exposure, h.claimed, h.factories⟩

theorem reported {d d' : Diagnostic} (hd : d'.wording = d.wording) :
    (st.reported MemoryHost.host d).Alike σ (st'.reported MemoryHost.host d') :=
  ⟨h.host.reported hd, h.exposure, h.claimed, h.factories⟩

section Units

variable {u u' : Delivery} (hname : u'.hintName = u.hintName) (htext : u'.text = u.text)

include hname htext

theorem answerTo : st'.answerTo MemoryHost.host u' = st.answerTo MemoryHost.host u := by
  rw [PassState.answerTo, PassState.answerTo, hname, htext]
  exact (h.host.offered _ _).1

theorem offered : (st.offered MemoryHost.host u).Alike σ (st'.offered MemoryHost.host u') := by
  refine ⟨?_, h.exposure, h.claimed, h.factories⟩
  rw [PassState.offered, PassState.offered, hname, htext]
  exact (h.host.offered _ _).2

theorem stored : (st.stored MemoryHost.host u).Alike σ (st'.stored MemoryHost.host u') :=
  ⟨(h.offered hname htext).host, h.exposure, h.claimed, h.factories⟩

end Units

/-- Another owner of a wrapper's class is found under its new place. -/
theorem owner? (hσ : Function.Injective σ) (w : Wrapper) :
    st'.owner? (w.rename σ) = (st.owner? w).map σ := by
  have hkey : (w.rename σ).classKey = w.classKey := rfl
  have hsource : (w.rename σ).source = σ w.source := rfl
  have hlookup : ∀ claims : List (ClassKey × TypeId),
      (claims.map fun claim => (claim.1, σ claim.2)).lookup w.classKey =
      (claims.lookup w.classKey).map σ := by
    intro claims
    induction claims with
    | nil => rfl
    | cons claim rest ih =>
      rw [List.map_cons, List.lookup_cons, List.lookup_cons]
      cases w.classKey == claim.1 with
      | true => rfl
      | false => exact ih
  rw [PassState.owner?, PassState.owner?, h.claimed, hkey, hsource, hlookup]
  cases st.claimed.lookup w.classKey with
  | none => rfl
  | some owner =>
    simp only [Option.map_some, Option.filter_some, ne_eq, hσ.eq_iff, apply_ite (Option.map σ),
      Option.map_none]

theorem entered {p q : Program} (hpq : p.Renames σ q) (s : Settings) (w : Wrapper) :
    (st.entered MemoryHost.host (p.pass s) w).Alike σ
      (st'.entered MemoryHost.host (q.pass s) (w.rename σ)) where
  host := by
    rw [entered_host, entered_host]
    exact h.host
  exposure := by
    have hmode : (w.rename σ).mode = w.mode := rfl
    rw [entered_exposure, entered_exposure, hmode, Wrapper.exposed_rename, h.exposure]
    split <;> rfl
  claimed := by
    rw [entered_claimed, entered_claimed, h.claimed]
    rfl
  factories := by
    rw [entered_factories, entered_factories, h.factories, List.map_append]
    exact congrArg _ (by rw [Program.pass, Program.pass, hpq.factory?, Option.toList_map])

end Steps

end PassState.Alike

/-! ## Steps -/

namespace PassStep

/-- Two outcomes of a step that leave states alike, with related answers where there are any. -/
inductive Agree (σ : TypeId → TypeId) {α β : Type} (R : α → β → Prop) :
    EStateM.Result PassError (PassState MemoryHost) α →
      EStateM.Result PassError (PassState MemoryHost) β → Prop where
  | ok {a b st st'} : R a b → st.Alike σ st' → Agree σ R (.ok a st) (.ok b st')
  | error {e st st'} : st.Alike σ st' → Agree σ R (.error e st) (.error e st')

variable {σ : TypeId → TypeId} {p q : Program} {s : Settings} {st st' : PassState MemoryHost}

theorem Agree.outcomes {α β : Type} {R : α → β → Prop}
    {x : EStateM.Result PassError (PassState MemoryHost) α}
    {y : EStateM.Result PassError (PassState MemoryHost) β} (h : Agree σ R x y) :
    (∃ a b st st', x = .ok a st ∧ y = .ok b st' ∧ R a b ∧ st.Alike σ st') ∨
    (∃ e st st', x = .error e st ∧ y = .error e st' ∧ st.Alike σ st') := by
  cases h with
  | ok hR hs => exact .inl ⟨_, _, _, _, rfl, rfl, hR, hs⟩
  | error hs => exact .inr ⟨_, _, _, rfl, rfl, hs⟩

/-- A step that hosts want to be cancelled agrees with itself, else what follows is to agree. -/
theorem Agree.unless_cancelled {α β : Type} {R : α → β → Prop}
    {x : EStateM.Result PassError (PassState MemoryHost) α}
    {y : EStateM.Result PassError (PassState MemoryHost) β} (h : st.Alike σ st')
    (hxy : Agree σ R x y) :
    Agree σ R (if MemoryHost.host.cancelled st.host then .error .cancelled st else x)
      (if MemoryHost.host.cancelled st'.host then .error .cancelled st' else y) := by
  rw [h.cancelled]
  split
  · exact .error h
  · exact hxy

/-! ### Delivering -/

theorem wording_refusal {u u' : Delivery} (hsubject : u'.subject = u.subject) (e : HostError) :
    (refusal u' e).wording = (refusal u e).wording := by
  rw [refusal, refusal, hsubject]
  rfl

theorem agree_deliverUnit (h : st.Alike σ st') {u u' : Delivery} (hname : u'.hintName = u.hintName)
    (htext : u'.text = u.text) (hsubject : u'.subject = u.subject) :
    Agree σ Eq (deliverUnit MemoryHost.host u st) (deliverUnit MemoryHost.host u' st') := by
  have hrefused := wording_refusal hsubject
  have heq := h.answerTo hname htext
  rcases verdict_cases (st.answerTo MemoryHost.host u) with hu | hu | ⟨e, hu, he⟩
  · rw [deliverUnit_of_taken hu, deliverUnit_of_taken (heq.trans hu)]
    exact .ok rfl (h.stored hname htext)
  · rw [deliverUnit_of_cancelled hu, deliverUnit_of_cancelled (heq.trans hu)]
    exact .error (h.offered hname htext)
  · rw [deliverUnit_of_refused hu he, deliverUnit_of_refused (heq.trans hu) he]
    exact .ok rfl ((h.offered hname htext).reported (hrefused _))

theorem agree_deliver (hpq : p.Renames σ q) (h : st.Alike σ st') (l l' : Location) (w : Wrapper) :
    Agree σ Eq (deliver MemoryHost.host (p.pass s) l w st)
      (deliver MemoryHost.host (q.pass s) l' (w.rename σ) st') := by
  have hname : (unitOf (q.pass s) l' (w.rename σ)).hintName = (unitOf (p.pass s) l w).hintName :=
    rfl
  have htext : (unitOf (q.pass s) l' (w.rename σ)).text = (unitOf (p.pass s) l w).text := rfl
  have hsubject : (unitOf (q.pass s) l' (w.rename σ)).subject = (unitOf (p.pass s) l w).subject :=
    hpq.qualifiedName w.source
  have hrefused := wording_refusal hsubject
  have heq := h.answerTo hname htext
  have howner := h.owner? hpq.injective w
  cases hfree : st.owner? w with
  | some owner =>
    rw [hfree] at howner
    rw [deliver_of_clash hfree, deliver_of_clash howner]
    refine .ok rfl (h.reported ?_)
    have hsource : (q.pass s).program.qualifiedName (w.rename σ).source =
      (p.pass s).program.qualifiedName w.source :=
      hpq.qualifiedName w.source
    have hrenamed : (q.pass s).program.qualifiedName (σ owner) =
      (p.pass s).program.qualifiedName owner :=
      hpq.qualifiedName owner
    rw [clash, clash, hsource, hrenamed]
    rfl
  | none =>
    rw [hfree] at howner
    rcases verdict_cases (st.answerTo MemoryHost.host (unitOf (p.pass s) l w)) with
      hu | hu | ⟨e, hu, he⟩
    · rw [deliver_of_taken hfree hu, deliver_of_taken howner (heq.trans hu)]
      exact .ok rfl ((h.stored hname htext).entered hpq s w)
    · rw [deliver_of_cancelled hfree hu, deliver_of_cancelled howner (heq.trans hu)]
      exact .error (h.offered hname htext)
    · rw [deliver_of_refused hfree hu he, deliver_of_refused howner (heq.trans hu) he]
      exact .ok rfl ((h.offered hname htext).reported (hrefused _))

theorem agree_deliverAll (hpq : p.Renames σ q) (l l' : Location) (ws : List Wrapper)
    (h : st.Alike σ st') :
    Agree σ Eq (deliverAll MemoryHost.host (p.pass s) l ws st)
      (deliverAll MemoryHost.host (q.pass s) l' (ws.map (·.rename σ)) st') := by
  induction ws generalizing st st' with
  | nil => exact .ok rfl h
  | cons w rest ih =>
    rw [List.map_cons, deliverAll_cons_run, deliverAll_cons_run]
    obtain ⟨taken, _, st₁, st₂, hx, hy, rfl, hs⟩ | ⟨e, st₁, st₂, hx, hy, hs⟩ :=
      (agree_deliver (s := s) hpq h l l' w).outcomes
    · rw [hx, hy]
      cases taken with
      | true => exact ih hs
      | false => exact .ok rfl hs
    · rw [hx, hy]
      exact .error hs

/-! ### Requests -/

theorem agree_build (hpq : p.Renames σ q) (h : st.Alike σ st') {r r' : Request}
    (hr : r.IsRenamed σ r') :
    Agree σ (fun ws ws' => ws' = ws.map (·.rename σ)) (build MemoryHost.host (p.pass s) r st)
      (build MemoryHost.host (q.pass s) r' st') := by
  rw [build_run, build_run, stopping?_pass, stopping?_pass, stops_pass, stops_pass]
  refine .unless_cancelled h ?_
  have hwrappers : (q.pass s).program.wrappersFor? (q.pass s).settings st'.exposure r' =
      ((p.pass s).program.wrappersFor? (p.pass s).settings st.exposure r).map
        (List.map (·.rename σ)) := by
    rw [h.exposure]
    exact hpq.wrappersFor? s st.exposure hr.1 hr.2
  have hname : (q.pass s).program.qualifiedName r'.type =
      (p.pass s).program.qualifiedName r.type := by
    rw [hr.1]
    exact hpq.qualifiedName r.type
  simp only [hwrappers]
  cases (p.pass s).program.wrappersFor? (p.pass s).settings st.exposure r with
  | some ws => exact .ok rfl h
  | none =>
    refine .ok rfl (h.reported ?_)
    rw [hname, hr.2]
    rfl

theorem agree_answer (hpq : p.Renames σ q) (h : st.Alike σ st') {r r' : Request}
    (hr : r.IsRenamed σ r') :
    Agree σ Eq (answer MemoryHost.host (p.pass s) r st)
      (answer MemoryHost.host (q.pass s) r' st') := by
  rw [answer_run, answer_run]
  obtain ⟨ws, _, st₁, st₂, hx, hy, rfl, hs⟩ | ⟨e, st₁, st₂, hx, hy, hs⟩ :=
    (agree_build (s := s) hpq h hr).outcomes
  · rw [hx, hy]
    exact agree_deliverAll hpq r.location r'.location ws hs
  · rw [hx, hy]
    exact .error hs

/-- Renamed requests are answered alike, one after the other. -/
theorem agree_answerAll (hpq : p.Renames σ q) {rs rs' : List Request}
    (hrs : List.Forall₂ (Request.IsRenamed σ) rs rs') (h : st.Alike σ st') :
    Agree σ Eq (answerAll MemoryHost.host (p.pass s) rs st)
      (answerAll MemoryHost.host (q.pass s) rs' st') := by
  induction hrs generalizing st st' with
  | nil => exact .ok rfl h
  | @cons r r' rest rest' hr _ ih =>
    rw [answerAll_cons_run, answerAll_cons_run, stops_pass, stops_pass]
    refine .unless_cancelled h ?_
    obtain ⟨_, _, st₁, st₂, hx, hy, -, hs⟩ | ⟨e, st₁, st₂, hx, hy, hs⟩ :=
      (agree_answer (s := s) hpq h hr).outcomes
    · rw [hx, hy]
      exact ih hs.counted
    · rw [hx, hy]
      exact .error hs

/-! ### The rest of a pass -/

/-- A step that only keeps records and tells events. -/
def Unnoticed (x : PassStep MemoryHost Unit) : Prop :=
  ∀ st, ∃ st', x st = .ok () st' ∧ st'.host = st.host ∧ st'.exposure = st.exposure ∧
    st'.claimed = st.claimed ∧
    st'.factories = st.factories

theorem unnoticed_record (change : Metrics → Metrics) : Unnoticed (record change) :=
  fun _ => ⟨_, rfl, rfl, rfl, rfl, rfl⟩

theorem unnoticed_tell (e : PassEvent) : Unnoticed (tell MemoryHost.host e) :=
  fun _ => ⟨_, rfl, rfl, rfl, rfl, rfl⟩

theorem Unnoticed.bind {x : PassStep MemoryHost Unit} {f : Unit → PassStep MemoryHost Unit}
    (hx : Unnoticed x) (hf : Unnoticed (f ())) : Unnoticed (x >>= f) := by
  intro st
  obtain ⟨st₁, hrun, hhost, hexposure, hclaimed, hfactories⟩ := hx st
  obtain ⟨st₂, hrun', hhost', hexposure', hclaimed', hfactories'⟩ := hf st₁
  exact ⟨st₂, (bind_ok f hrun).trans hrun', hhost'.trans hhost, hexposure'.trans hexposure,
    hclaimed'.trans hclaimed,
    hfactories'.trans hfactories⟩

theorem Unnoticed.forM {α : Type} {f : α → PassStep MemoryHost Unit} (hf : ∀ a, Unnoticed (f a))
    (l : List α) :
    Unnoticed (l.forM f) := by
  induction l with
  | nil => exact fun st => ⟨st, rfl, rfl, rfl, rfl, rfl⟩
  | cons a rest ih => exact (hf a).bind ih

theorem unnoticed_announce (i : PassInput) (requests : Requests) :
    Unnoticed (announce MemoryHost.host i requests) :=
  (Unnoticed.forM (fun _ => unnoticed_record _) _).bind
    ((Unnoticed.forM (fun _ => (unnoticed_record _).bind (unnoticed_tell _)) _).bind
      (unnoticed_tell _))

theorem agree_deliverTriggers (h : st.Alike σ st') :
    Agree σ (fun _ _ => True) (deliverTriggers MemoryHost.host (p.pass s) st)
      (deliverTriggers MemoryHost.host (q.pass s) st') := by
  rw [deliverTriggers_run, deliverTriggers_run, stops_pass, stops_pass]
  have hsettings : (q.pass s).settings.emitBootstrap = (p.pass s).settings.emitBootstrap := rfl
  rw [hsettings]
  split
  · refine .unless_cancelled h ?_
    have hunit : Agree σ Eq (deliverUnit MemoryHost.host (triggersUnitOf (p.pass s)) st)
        (deliverUnit MemoryHost.host (triggersUnitOf (q.pass s)) st') :=
          agree_deliverUnit h rfl rfl rfl
    obtain ⟨_, _, st₁, st₂, hx, hy, -, hs⟩ | ⟨e, st₁, st₂, hx, hy, hs⟩ := hunit.outcomes
    · rw [hx, hy]
      exact .ok trivial hs
    · rw [hx, hy]
      exact .error hs
  · exact .ok trivial h

theorem agree_prepare (h : st.Alike σ st') (requests requests' : Requests) :
    Agree σ (fun _ _ => True) (prepare MemoryHost.host (p.pass s) requests st)
      (prepare MemoryHost.host (q.pass s) requests' st') := by
  obtain ⟨st₁, hrun, hhost, hexposure, hclaimed, hfactories⟩ :=
    unnoticed_announce (p.pass s) requests st
  obtain ⟨st₂, hrun', hhost', hexposure', hclaimed', hfactories'⟩ :=
    unnoticed_announce (q.pass s) requests' st'
  rw [prepare, prepare, bind_ok _ hrun, bind_ok _ hrun']
  refine agree_deliverTriggers ⟨?_, ?_, ?_, ?_⟩
  · rw [hhost, hhost']
    exact h.host
  · rw [hexposure, hexposure', h.exposure]
  · rw [hclaimed, hclaimed', h.claimed]
  · rw [hfactories, hfactories', h.factories]

/-- What factory methods are written does not depend on the places of the types they extend. -/
theorem renderExtensions_rename (σ : TypeId → TypeId) (s : Settings)
    (factories : List FactoryMethod) :
    s.renderExtensions (factories.map (·.rename σ)) = s.renderExtensions factories := by
  have hsorted : sortedBy (·.sortKey) (factories.map (·.rename σ)) =
      (sortedBy (·.sortKey) factories).map (·.rename σ) := by
    rw [sortedBy, sortedBy]
    exact (List.map_mergeSort (f := FactoryMethod.rename σ) fun _ _ _ _ => rfl).symm
  have hclass : s.extensionsClassOf (factories.map (·.rename σ)) =
      s.extensionsClassOf factories := by
    rw [Settings.extensionsClassOf, hsorted, List.map_map]
    rfl
  rw [Settings.renderExtensions, Settings.renderExtensions, Settings.extensionsUnit,
    Settings.extensionsUnit, List.isEmpty_map, hclass]

theorem agree_deliverExtensions (h : st.Alike σ st') :
    Agree σ (fun _ _ => True) (deliverExtensions MemoryHost.host (p.pass s) st)
      (deliverExtensions MemoryHost.host (q.pass s) st') := by
  have hsettings : (q.pass s).settings = (p.pass s).settings := rfl
  rw [deliverExtensions_run, deliverExtensions_run, stops_pass, stops_pass, hsettings, h.factories,
    renderExtensions_rename]
  refine .unless_cancelled h ?_
  cases (p.pass s).settings.renderExtensions st.factories with
  | none => exact .ok trivial h
  | some text =>
    have hunit : Agree σ Eq (deliverUnit MemoryHost.host
      (extensionsUnitOf (p.pass s) st.factories text) st)
        (deliverUnit MemoryHost.host (extensionsUnitOf (q.pass s)
          (st.factories.map (·.rename σ)) text) st') :=
      agree_deliverUnit h rfl rfl rfl
    obtain ⟨_, _, st₁, st₂, hx, hy, -, hs⟩ | ⟨e, st₁, st₂, hx, hy, hs⟩ := hunit.outcomes
    · simp only [hx, hy]
      exact .ok trivial hs
    · simp only [hx, hy]
      exact .error hs

/-- Passes over a program and a rearrangement of it agree from start to end. -/
theorem agree_execute (hpq : p.Rearranges σ q) (h : st.Alike σ st') :
    Agree σ (fun _ _ => True) (execute MemoryHost.host (p.pass s) st)
      (execute MemoryHost.host (q.pass s) st') := by
  cases hd : p.discover s with
  | error e =>
    rw [execute_run_of_error (i := p.pass s) MemoryHost.host hd,
      execute_run_of_error (i := q.pass s) MemoryHost.host (hpq.discover_error hd)]
    exact .error h
  | ok requests =>
    obtain ⟨requests', hd', hrequests⟩ := hpq.discover hd
    rw [execute_run (i := p.pass s) MemoryHost.host hd,
      execute_run (i := q.pass s) MemoryHost.host hd']
    obtain ⟨_, _, opened, opened', hx, hy, -, hs⟩ | ⟨e, st₁, st₂, hx, hy, hs⟩ :=
      (agree_prepare (p := p) (q := q) (s := s) h requests requests').outcomes
    · rw [hx, hy]
      obtain ⟨_, _, answered, answered', hx, hy, -, hs⟩ | ⟨e, st₁, st₂, hx, hy, hs⟩ :=
        (agree_answerAll (s := s) hpq.toRenames hrequests hs).outcomes
      · simp only [hx, hy]
        exact agree_deliverExtensions hs
      · simp only [hx, hy]
        exact .error hs
    · rw [hx, hy]
      exact .error hs

end PassStep

/-- A host in memory is not changed by the end of a pass. -/
theorem PassInput.host_run_of_error {i : PassInput} {start : MemoryHost} {e : PassError}
    {st : PassState MemoryHost}
    (hx : PassStep.execute MemoryHost.host i { host := start } = .error e st) :
    (i.run MemoryHost.host start).host = st.host := by
  rw [run, steps_of_error hx]
  cases e <;> rfl

/-- Over a program and a rearrangement of it the same units are delivered, and the same is
reported. -/
theorem Program.Rearranges.run {σ : TypeId → TypeId} {p q : Program} (h : p.Rearranges σ q)
    (s : Settings) :
    ((p.pass s).run MemoryHost.host {}).host.Alike ((q.pass s).run MemoryHost.host {}).host := by
  obtain ⟨_, _, last, last', hx, hy, -, hs⟩ | ⟨e, last, last', hx, hy, hs⟩ :=
    (PassStep.agree_execute (s := s) h (PassState.Alike.start σ)).outcomes
  · rw [PassInput.run_of_ok hx, PassInput.run_of_ok hy]
    exact hs.host
  · rw [PassInput.host_run_of_error hx, PassInput.host_run_of_error hy]
    exact hs.host

end EventWrap
