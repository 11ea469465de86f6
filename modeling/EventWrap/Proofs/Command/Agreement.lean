import EventWrap.Command.Validation
import EventWrap.Proofs.Pass.Lineage

/-!
# What the commands say of a request

A pass in which no unit is refused reports one diagnostic for each request without events, in order.
Validating warns of these requests too, and inspecting lists the events that the wrappers of the
others expose, but only where every event that is seen from the requested type is listed exactly
when a link of its chain offers one of its name. Where a declaration masks what an ancestor offers,
the commands disagree.
-/

namespace EventWrap

variable {σ : Type}

namespace Program

variable (p : Program) (s : Settings)

/-- Whether there is a wrapper for a request. -/
def offersEvents (r : Request) : Bool :=
  match r.mode with
  | .ofInstance => p.offersInstanceEvents r.type
  | .ofStatics => !(p.collect r.type true true).isEmpty

/-- What a pass reports of a request without events. -/
def eventsNotFound? (r : Request) : Option Diagnostic :=
  if p.offersEvents r then none
  else some (.ofKind .eventsNotFound r.location [p.qualifiedName r.type, r.mode.word])

theorem wrappersFor?_isSome (known : Exposure) (r : Request) :
    (p.wrappersFor? s known r).isSome = p.offersEvents r := by
  unfold wrappersFor? offersEvents
  cases r.mode with
  | ofInstance =>
    simp only [instanceWrappers?_eq]
    cases p.offersInstanceEvents r.type <;> rfl
  | ofStatics =>
    simp only [Option.isSome_map, staticWrapper?, synthesize_isSome, Bool.or_false]

theorem eventsNotFound?_isSome (r : Request) :
    (p.eventsNotFound? r).isSome = !p.offersEvents r := by
  rw [eventsNotFound?]
  cases p.offersEvents r <;> rfl

theorem requestWarning?_isSome (r : Request) :
    (p.requestWarning? r).isSome = (p.inspectedEvents r).isEmpty := by
  rw [requestWarning?]
  cases (p.inspectedEvents r).isEmpty <;> rfl

theorem names_inspectRequest (r : Request) :
    (p.inspectRequest s r).events.map (·.name) = (p.inspectedEvents r).names :=
  List.map_map

end Program

/-! ## Diagnostics of a pass -/

namespace PassStep

variable {h : Host σ} {p : Program} {s : Settings} {st last : PassState σ}

/-- Unless a unit is refused, an answer reports that its request is without events, or nothing. -/
theorem diagnostics_of_answer {r : Request} (hrun : answer h (p.pass s) r st = .ok () last)
    (hquiet : ∀ d ∈ last.diagnostics, d.id ≠ DiagnosticKind.outputConflict.id) :
    last.diagnostics = st.diagnostics ++ (p.eventsNotFound? r).toList := by
  have hsome := p.wrappersFor?_isSome s st.exposure r
  cases hneeded : p.wrappersFor? s st.exposure r with
  | none =>
    have hneeded' : (p.pass s).program.wrappersFor? (p.pass s).settings st.exposure r = none :=
      hneeded
    rw [hneeded, Option.isSome_none, eq_comm] at hsome
    rw [Program.eventsNotFound?, hsome]
    rw [answer_run, build_run, stopping?_pass, hneeded'] at hrun
    split at hrun
    · next ws st' hbuild =>
      split at hbuild
      · cases hbuild
      · cases hbuild
        cases hrun
        rfl
    · cases hrun
  | some ws =>
    rw [hneeded, Option.isSome_some, eq_comm] at hsome
    rw [Program.eventsNotFound?, if_pos hsome]
    have hcases := answer_cases h (p.pass s) r st
    rw [hrun] at hcases
    cases hcases with
    | delivered _ hp => exact hp.diagnostics
    | conflict _ _ hp hid =>
      apply absurd hid
      apply hquiet
      rw [hp.diagnostics]
      exact List.mem_append_right _ List.mem_cons_self
    | nothing hnone => cases hneeded.symm.trans hnone
    | failed hstopped =>
      rw [stopping?_pass] at hstopped
      cases hstopped

theorem diagnostics_of_answerAll {requests : List Request}
    (hrun : answerAll h (p.pass s) requests st = .ok () last)
    (hquiet : ∀ d ∈ last.diagnostics, d.id ≠ DiagnosticKind.outputConflict.id) :
    last.diagnostics = st.diagnostics ++ requests.filterMap p.eventsNotFound? := by
  induction requests generalizing st with
  | nil =>
    cases hrun
    exact (List.append_nil _).symm
  | cons r rest ih =>
    obtain ⟨st', hanswer, hlater⟩ := answerAll_cons_ok hrun
    have hall : last.diagnostics = st'.counted.diagnostics ++ rest.filterMap p.eventsNotFound? :=
      ih hlater
    have hone : st'.diagnostics = st.diagnostics ++ (p.eventsNotFound? r).toList := by
      apply diagnostics_of_answer hanswer
      intro d hd
      apply hquiet
      rw [hall]
      exact List.mem_append_left _ hd
    rw [hall, PassState.counted, hone, List.append_assoc, List.filterMap_cons]
    cases p.eventsNotFound? r <;> rfl

/-- A refusal is told of by a diagnostic of its own kind. -/
theorem eq_nil_of_reportsRefusalOf {kind : UnitKind} {t : Transcript} {ds : List Diagnostic}
    (hds : ReportsRefusalOf kind t ds)
    (hquiet : ∀ d ∈ ds, d.id ≠ DiagnosticKind.outputConflict.id) : ds = [] := by
  rcases hds with hnone | ⟨u, e, -, -, rfl⟩
  · exact hnone
  · exact absurd rfl (hquiet _ List.mem_cons_self)

end PassStep

namespace PassInput

open PassStep

variable {h : Host σ} {p : Program} {s : Settings} {start : σ} {requests : Requests}
  {report : PassReport}

/-- A pass that ends without a refusal reports exactly the requests without events, in order. -/
theorem diagnostics_of_quiet_run (hd : p.discover s = .ok requests)
    (hrun : ((p.pass s).run h start).outcome = .ok report)
    (hquiet : ∀ d ∈ report.diagnostics, d.id ≠ DiagnosticKind.outputConflict.id) :
    report.diagnostics = requests.toList.filterMap p.eventsNotFound? := by
  obtain ⟨closed, hexecute, hdiagnostics⟩ := execute_of_run hrun
  obtain ⟨opened, answered, hprepared, hanswers, hclosed⟩ := execute_ok hd hexecute
  have hprepare := prepare_cases h (p.pass s) requests { host := start }
  rw [hprepared] at hprepare
  have hextensions := deliverExtensions_cases h (p.pass s) answered
  rw [hclosed] at hextensions
  rcases hprepare with ⟨_, opening, heq, hp, hopening⟩ | ⟨_, heq, -⟩
  swap
  · cases heq
  cases heq
  rcases hextensions with ⟨_, closing, heq, hp', hclosing⟩ | ⟨_, heq, -⟩
  swap
  · cases heq
  cases heq
  rw [hdiagnostics, hp'.diagnostics] at hquiet
  have hanswered : answered.diagnostics =
      opened.diagnostics ++ requests.toList.filterMap p.eventsNotFound? :=
    diagnostics_of_answerAll hanswers fun d hmem => hquiet d (List.mem_append_left _ hmem)
  have hclosing' : closing = [] := eq_nil_of_reportsRefusalOf hclosing fun d hmem =>
    hquiet d (List.mem_append_right _ hmem)
  have hopened : opened.diagnostics = opening := hp.diagnostics
  have hopening' : opening = [] := eq_nil_of_reportsRefusalOf hopening fun d hmem => by
    apply hquiet d
    rw [hanswered, hopened]
    exact List.mem_append_left _ (List.mem_append_left _ hmem)
  rw [hdiagnostics, hp'.diagnostics, hanswered, hopened, hopening', hclosing', List.append_nil,
    List.nil_append]

/-- The commands agree on a request where no visible event makes a difference, and only there. -/
theorem commands_agree_iff_listsOffered (hp : p.Acyclic) (s : Settings) (h : Host σ) (start : σ)
    (hd : p.discover s = .ok requests) (hrun : ((p.pass s).run h start).outcome = .ok report)
    (hquiet : ∀ d ∈ report.diagnostics, d.id ≠ "RXGEN003") :
    report.diagnostics = requests.toList.filterMap p.eventsNotFound? ∧
    ∀ r ∈ requests.ofInstances,
      (p.eventsNotFound? r = none ↔ ∃ w ∈ ((p.pass s).run h start).transcript.wrappers,
        w.mode = .ofInstance ∧ w.source = r.type) ∧
      (∀ w ∈ ((p.pass s).run h start).transcript.wrappers, w.mode = .ofInstance →
        w.source = r.type →
        ((p.inspectRequest s r).events.map (·.name) = w.exposed ↔ p.ListsOffered r.type)) ∧
      ((p.eventsNotFound? r).isSome → (p.requestWarning? r).isSome) ∧
      ((∀ e ∈ p.visibleEvents r.type true false, ¬ p.Masks r.type e) →
        (p.requestWarning? r).isSome → (p.eventsNotFound? r).isSome) := by
  refine ⟨diagnostics_of_quiet_run hd hrun hquiet, fun r hr => ?_⟩
  have hm : r.mode = .ofInstance := Program.mode_of_mem_ofInstances hd hr
  have hinspected : p.inspectedEvents r = p.collect r.type true false := by
    rw [Program.inspectedEvents, hm]
    rfl
  have hoffers : p.offersEvents r = p.offersInstanceEvents r.type := by
    simp only [Program.offersEvents, hm]
  have hwarned : (p.requestWarning? r).isSome ↔ (p.collect r.type true false).names = [] := by
    rw [Program.requestWarning?_isSome, hinspected, TypeEvents.isEmpty, List.isEmpty_iff,
      TypeEvents.names, List.map_eq_nil_iff]
  have hreported : (p.eventsNotFound? r).isSome ↔ p.offersInstanceEvents r.type = false := by
    rw [Program.eventsNotFound?_isSome, hoffers, Bool.not_eq_true']
  refine ⟨?_, ?_, ?_, ?_⟩
  · rw [delivered_iff_isNeeded hp hd hrun hquiet, Program.isNeeded_iff hp,
      ← Option.not_isSome_iff_eq_none, hreported, Bool.not_eq_false]
    constructor
    · exact fun hevents => ⟨r, hr, hevents, Program.mem_links.2 (.inl rfl)⟩
    · rintro ⟨r', -, hevents, hlink⟩
      exact Program.offers_of_mem_links hevents hlink
  · intro w hw hmode hsource
    obtain ⟨hsorted, hexposed, -⟩ := delivered_exposes_exactly hp s h start w hw hmode
    rw [hsource] at hexposed
    simp only [Program.names_inspectRequest, hinspected, Program.listsOffered_iff, ← hexposed]
    constructor
    · exact fun heq n => by rw [heq]
    · have hlisted : (p.collect r.type true false).names.Pairwise fun a b => a < b :=
        List.pairwise_map.2 (p.collect_sorted r.type false true)
      exact eq_of_mem_iff_of_sorted
        (show List.Pairwise (fun a b => id a < id b) _ from hlisted) hsorted
  · rw [hreported, hwarned]
    exact p.names_collect_eq_nil r.type
  · intro hunmasked
    rw [hreported, hwarned]
    exact p.offersInstanceEvents_eq_false r.type hunmasked

/-- The commands agree on the button: no declaration makes a difference. -/
theorem controls_button_inspected_as_exposed :
    ∃ w ∈ ((Program.controls.pass {}).run MemoryHost.host {}).transcript.wrappers,
      w.mode = .ofInstance ∧ w.source = 4 ∧
      (Program.controls.inspectRequest {} ⟨4, .ofInstance, {}⟩).events.map (·.name) =
        w.exposed := by
  obtain ⟨⟨report, hrun, hquiet⟩, w, hw, hm, hsource⟩ := quiet_and_button_delivered_of_controls
  have hlists : Program.controls.ListsOffered 4 := by
    simp only [Program.ListsOffered, Program.Masks, Program.Unlocks, Program.mem_ownNames_iff,
      Program.mem_inheritedNames_iff]
    decide
  obtain ⟨-, hagree⟩ := commands_agree_iff_listsOffered controls_acyclic {} MemoryHost.host {}
    Program.discover_controls hrun (by simp [hquiet])
  obtain ⟨-, hexposed, -⟩ := hagree ⟨4, .ofInstance, {}⟩ (List.mem_singleton_self _)
  exact ⟨w, hw, hm, hsource, (hexposed w hw hm hsource).2 hlists⟩

/-- Controls whose button has no event but a private one of the name of the control's. -/
def maskedControls : Program :=
  Program.controls.update 4 fun d =>
    { d with events := [{ name := "Shown", delegate := .named 2 [], accessibility := .oneself }] }

/-- Of a masked event inspecting says nothing, and validating warns that there is none, while the
pass delivers a wrapper that exposes it and reports nothing. -/
theorem maskedControls_disagree :
    maskedControls.discover {} = .ok { ofInstances := [⟨4, .ofInstance, {}⟩] } ∧
    (maskedControls.inspectRequest {} ⟨4, .ofInstance, {}⟩).events = [] ∧
    (maskedControls.validate {} "").warnings = [.noEvents {} "Button" .ofInstance] ∧
    ((maskedControls.pass {}).run MemoryHost.host {}).outcome.toOption.map (·.diagnostics) =
      some [] ∧
    ((maskedControls.pass {}).run MemoryHost.host {}).transcript.wrappers.map
      (fun w => (w.source, w.exposed)) = [(3, ["Shown"]), (4, ["Shown"])] := by
  decide +kernel

/-- Controls with a form that asks for what its parameter says, and a dialog that is a form of
tasks. -/
def askingControls : Program :=
  let parameter : TypeParameter := { name := "R" }
  let types : List Declaration := [
    { namespaceName := "System.Threading.Tasks", name := "Task" },
    { kind := .delegateType, name := "Ask", typeParameters := [parameter],
      invoke := some { result := .parameter "R", parameters := [] } },
    { name := "Form", typeParameters := [parameter],
      events := [{ name := "Asked", delegate := .named 6 [.parameter "R"] },
        { name := "Shown", delegate := .named 2 [] }] },
    { name := "Dialog", base := some (.named 7 [.named 5 []]) }]
  types.foldl Program.push Program.controls

/-- An event whose delegate returns a type parameter of the base is listed where that parameter is a
task, and is not offered by the base. -/
example : ∃ e ∈ askingControls.visibleEvents 8 true false,
    e.event.name = "Asked" ∧ askingControls.Unlocks 8 e := by
  decide +kernel

end PassInput

end EventWrap
