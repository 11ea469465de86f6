import EventWrap.Proofs.Pass.Answers
import EventWrap.Proofs.Pass.Moments
import EventWrap.Proofs.Wrapper.Listed

/-!
# Lineage of delivered wrappers

In a program without cycles instance wrappers are delivered parent first, whatever the host does,
and only for types whose wrapper a request needs. When nothing is refused, the delivered ones are
exactly those. What each one exposes and hides is fixed by the program.
-/

namespace EventWrap

namespace Program

variable {p : Program} {requests : Requests} {t : TypeId}

/-- A type whose wrapper some requests need: a requested one that has events or an ancestor with
events, or an ancestor with events of a requested one. -/
def IsNeeded (p : Program) (requests : Requests) (t : TypeId) : Prop :=
  ∃ r ∈ requests.ofInstances,
    (t = r.type ∧
      (p.hasEligibleEvents t false ∨ ∃ a, p.HasAncestor t a ∧ p.hasEligibleEvents a false)) ∨
      (p.HasAncestor r.type t ∧ p.hasEligibleEvents t false)

theorem offersInstanceEvents_iff (hp : p.Acyclic) :
    p.offersInstanceEvents t ↔
      p.hasEligibleEvents t false ∨ ∃ a, p.HasAncestor t a ∧ p.hasEligibleEvents a false := by
  rw [offersInstanceEvents, Bool.or_eq_true, Bool.not_eq_true',
    List.isEmpty_eq_false_iff_exists_mem]
  simp only [mem_ancestorIds hp]

/-- The needed types are the links of the requests that can be answered. -/
theorem isNeeded_iff (hp : p.Acyclic) :
    p.IsNeeded requests t ↔ ∃ r ∈ requests.ofInstances, p.offersInstanceEvents r.type ∧
      t ∈ p.links r.type := by
  apply exists_congr
  intro r
  rw [and_congr_right_iff]
  intro _
  rw [mem_links, mem_ancestorIds hp, offersInstanceEvents_iff hp]
  constructor
  · rintro (⟨rfl, hoffers⟩ | hancestor)
    · exact ⟨hoffers, .inl rfl⟩
    · exact ⟨.inr ⟨t, hancestor⟩, .inr hancestor⟩
  · rintro ⟨hoffers, rfl | hancestor⟩
    · exact .inl ⟨rfl, hoffers⟩
    · exact .inr hancestor

end Program

namespace PassInput

open PassStep

variable {σ : Type} {h : Host σ} {p : Program} {s : Settings} {start : σ} {st : PassState σ}

/-! ## What was delivered so far -/

/-- Instance wrappers delivered parent first, each once and for a needed type, with one factory
method for each. -/
structure ParentFirst (p : Program) (s : Settings) (delivered : List Wrapper)
    (factories : List FactoryMethod) : Prop where
  parent : ∀ before w after parent, delivered = before ++ w :: after → w.mode = .ofInstance →
    w.parent = some parent →
    p.IsNearestWithEvents false w.source parent.type ∧ ∃ v ∈ before, v.mode = .ofInstance ∧
      v.source = parent.type
  root : ∀ w ∈ delivered, w.mode = .ofInstance →
    (w.parent = none ↔ ∀ a, p.HasAncestor w.source a → ¬ p.hasEligibleEvents a false)
  distinct : (delivered.map fun w => (w.source, w.mode)).Nodup
  needed : ∀ w ∈ delivered, w.mode = .ofInstance → ∃ requests, p.discover s = .ok requests ∧
    p.IsNeeded requests w.source
  factories : factories.map (·.source) = (delivered.filter (·.mode = .ofInstance)).map (·.source)

theorem map_source_factories (p : Program) (s : Settings) (ws : List Wrapper) :
    (ws.filterMap (p.factory? s)).map (·.source) =
      (ws.filter (·.mode = .ofInstance)).map (·.source) := by
  induction ws with
  | nil => rfl
  | cons w rest ih => cases hm : w.mode <;> simp [Program.factory?, hm, ih]

theorem Moment.parentFirst (hp : p.Acyclic) (hst : Moment h (p.pass s) start st) :
    ParentFirst p s st.transcript.wrappers st.factories := by
  obtain ⟨requests, hrequests, hagrees⟩ := hst.agrees hp
  have hgrown : p.Grown s requests st.transcript.wrappers := hagrees.grown
  refine ⟨?_, ?_, hgrown.nodup, ?_, ?_⟩
  · intro before w after parent hsplit hm hparent
    obtain ⟨hnearest, hknown⟩ := ((hgrown.at_split hsplit).2.fits hm).of_parent hp hparent
    exact ⟨hnearest, lookup_exposureOf_isSome.1 hknown⟩
  · intro w hw hm
    obtain ⟨before, after, hsplit⟩ := List.append_of_mem hw
    exact ((hgrown.at_split hsplit).2.fits hm).parent_eq_none hp
  · intro w hw hm
    obtain ⟨r, hr, hrm, hoffers, hlink⟩ := hgrown.link_requested hw hm
    rcases hrequests with rfl | ⟨rs, hd, rfl⟩
    · cases hr
    · exact ⟨rs, hd, (Program.isNeeded_iff hp).2
        ⟨r, (Program.mem_ofInstances hd).2 ⟨hr, hrm⟩, hoffers, hlink⟩⟩
  · rw [hagrees.factories]
    exact map_source_factories p s _

/-! ## What was delivered at the end -/

/-- Where no unit was refused, a request that can be answered had all its wrappers delivered. -/
theorem exists_delivered_of_answerAll {requests : List Request} {last : PassState σ}
    (hrun : answerAll h (p.pass s) requests st = .ok () last)
    (hquiet : ∀ d ∈ last.diagnostics, d.id ≠ DiagnosticKind.outputConflict.id) {r : Request}
    (hr : r ∈ requests) (hneeds : ∀ known, p.wrappersFor? s known r ≠ none) :
    ∃ (before after : PassState σ) (ws ws' : List Wrapper) (ds' : List Diagnostic),
      p.wrappersFor? s before.exposure r = some ws ∧
        before.Progress (p.pass s) after ws [] ∧ after.Progress (p.pass s) last ws' ds' := by
  obtain ⟨before, after, ws', ds', hanswer, hp'⟩ := exists_answer_of_answerAll hrun hr
  have hcases := answer_cases h (p.pass s) r before
  rw [hanswer] at hcases
  cases hcases with
  | delivered hneeded hp => exact ⟨before, after, _, ws', ds', hneeded, hp, hp'⟩
  | conflict _ _ hp hid =>
    refine absurd hid (hquiet _ ?_)
    rw [hp'.diagnostics, hp.diagnostics]
    simp
  | nothing hneeded => exact absurd hneeded (hneeds _)
  | failed hstopped =>
    rw [stopping?_pass] at hstopped
    cases hstopped

/-- Where no unit was refused, all links of the requests are known when they are answered. -/
theorem lookup_of_answerAll {requests : List Request} {last : PassState σ}
    (hrun : answerAll h (p.pass s) requests st = .ok () last)
    (hquiet : ∀ d ∈ last.diagnostics, d.id ≠ DiagnosticKind.outputConflict.id) {r : Request}
    (hr : r ∈ requests)
    (hm : r.mode = .ofInstance) (hoffers : p.offersInstanceEvents r.type) {t : TypeId}
    (ht : t ∈ p.links r.type) :
    (last.exposure.lookup t).isSome := by
  have hneeds : ∀ known, p.wrappersFor? s known r =
      some (p.linkWrappers s known (p.links r.type)) := by
    intro known
    simp only [Program.wrappersFor?, hm, Program.instanceWrappers?_eq, hoffers, ↓reduceIte]
  obtain ⟨before, after, ws, ws', ds', hneeded, hp, hp'⟩ :=
    exists_delivered_of_answerAll hrun hquiet hr fun known => by rw [hneeds]; simp
  obtain rfl := Option.some.inj ((hneeds _).symm.trans hneeded)
  rw [hp'.exposure, lookup_append_isSome, hp.exposure]
  exact .inr (Program.lookup_linkWrappers_isSome
    (fun _ ha => Program.offers_of_mem_links hoffers ha) ht)

/-- A pass that ends without a refusal has answered all its requests without one. -/
theorem exists_answered_of_quiet {requests : Requests} (hd : p.discover s = .ok requests)
    {report : PassReport} (hrun : ((p.pass s).run h start).outcome = .ok report)
    (hquiet : ∀ d ∈ report.diagnostics, d.id ≠ DiagnosticKind.outputConflict.id) :
    ∃ (opened answered closed : PassState σ) (ds : List Diagnostic),
      execute h (p.pass s) { host := start } = .ok () closed ∧
        answerAll h (p.pass s) requests.toList opened = .ok () answered ∧
        answered.Progress (p.pass s) closed [] ds ∧
        ∀ d ∈ answered.diagnostics, d.id ≠ DiagnosticKind.outputConflict.id := by
  obtain ⟨closed, hexecute, hdiagnostics⟩ := execute_of_run hrun
  obtain ⟨opened, answered, -, hanswers, hclosed⟩ := execute_ok hd hexecute
  have hextensions := deliverExtensions_cases h (p.pass s) answered
  rw [hclosed] at hextensions
  rcases hextensions with ⟨_, ds, heq, hprogress, -⟩ | ⟨_, heq, -⟩
  · cases heq
    refine ⟨opened, answered, closed, ds, hexecute, hanswers, hprogress, fun d hmem => hquiet d ?_⟩
    rw [hdiagnostics, hprogress.diagnostics]
    exact List.mem_append_left _ hmem
  · cases heq

/-- A pass that ends without a refusal has delivered exactly the instance wrappers that its requests
need. -/
theorem delivered_iff_isNeeded (hp : p.Acyclic) {requests : Requests}
    (hd : p.discover s = .ok requests)
    {report : PassReport} (hrun : ((p.pass s).run h start).outcome = .ok report)
    (hquiet : ∀ d ∈ report.diagnostics, d.id ≠ DiagnosticKind.outputConflict.id) (t : TypeId) :
    (∃ w ∈ ((p.pass s).run h start).transcript.wrappers, w.mode = .ofInstance ∧ w.source = t) ↔
      p.IsNeeded requests t := by
  obtain ⟨opened, answered, closed, ds, hexecute, hanswers, hprogress, hquiet'⟩ :=
    exists_answered_of_quiet hd hrun hquiet
  have hagrees := agrees_execute (i := p.pass s) h start hp hd
  rw [wrappers_run]
  rw [stateAfter_ok hexecute] at hagrees
  rw [stateAfter_ok hexecute, Program.isNeeded_iff hp]
  constructor
  · rintro ⟨w, hw, hm, rfl⟩
    obtain ⟨r, hr, hrm, hoffers, hlink⟩ := hagrees.grown.link_requested hw hm
    exact ⟨r, (Program.mem_ofInstances hd).2 ⟨hr, hrm⟩, hoffers, hlink⟩
  · rintro ⟨r, hr, hoffers, hlink⟩
    obtain ⟨hr, hrm⟩ := (Program.mem_ofInstances hd).1 hr
    have hknown := lookup_of_answerAll hanswers hquiet' hr hrm hoffers hlink
    apply lookup_exposureOf_isSome.1
    rw [← hagrees.exposure, hprogress.exposure]
    exact hknown

/-! ## Whole passes -/

/-- At every moment of a pass over any host the instance wrappers were delivered parent first, each
once and for a needed type. When the pass ends without a refusal they are exactly the needed
ones. -/
theorem delivered_parent_first_and_needed (hp : p.Acyclic) (s : Settings) (h : Host σ) (start : σ) :
    (∀ st, Moment h (p.pass s) start st → ParentFirst p s st.transcript.wrappers st.factories) ∧
      ∀ requests report, p.discover s = .ok requests →
        ((p.pass s).run h start).outcome = .ok report →
        (∀ d ∈ report.diagnostics, d.id ≠ "RXGEN003") → ∀ t,
          (∃ w ∈ ((p.pass s).run h start).transcript.wrappers,
            w.mode = .ofInstance ∧ w.source = t) ↔ p.IsNeeded requests t :=
  ⟨fun _ hst => hst.parentFirst hp, fun _ _ hd hrun hquiet t =>
    delivered_iff_isNeeded hp hd hrun hquiet t⟩

theorem controls_acyclic : Program.controls.Acyclic := Program.acyclic_of_base_lt (by decide)

theorem exists_report_of_map_eq {outcome : Except PassError PassReport} {ds : List Diagnostic}
    (h : outcome.toOption.map (·.diagnostics) = some ds) :
    ∃ report, outcome = .ok report ∧ report.diagnostics = ds := by
  cases outcome with
  | error e => cases h
  | ok report => exact ⟨report, rfl, Option.some.inj h⟩

/-- The pass over the controls diagnoses nothing, and delivers a wrapper of the button. -/
theorem quiet_and_button_delivered_of_controls :
    (∃ report, ((Program.controls.pass {}).run MemoryHost.host {}).outcome = .ok report ∧
      report.diagnostics = []) ∧
    ∃ w ∈ ((Program.controls.pass {}).run MemoryHost.host {}).transcript.wrappers,
      w.mode = .ofInstance ∧ w.source = 4 := by
  have hrun : ((Program.controls.pass {}).run MemoryHost.host {}).outcome.toOption.map
        (·.diagnostics) = some [] ∧
      ∃ w ∈ ((Program.controls.pass {}).run MemoryHost.host {}).transcript.wrappers,
        w.mode = .ofInstance ∧ w.source = 4 := by
    decide +kernel
  exact ⟨exists_report_of_map_eq hrun.1, hrun.2⟩

theorem controls_button_and_control_delivered :
    Program.controls.Acyclic ∧
      ((Program.controls.pass {}).run MemoryHost.host {}).outcome.toOption.map (·.diagnostics) =
        some [] ∧
      ∃ w ∈ ((Program.controls.pass {}).run MemoryHost.host {}).transcript.wrappers,
        w.mode = .ofInstance ∧ w.source = 3 := by
  obtain ⟨⟨report, hrun, hquiet⟩, -⟩ := quiet_and_button_delivered_of_controls
  refine ⟨controls_acyclic, ?_, ?_⟩
  · rw [hrun]
    exact congrArg some hquiet
  · apply ((delivered_parent_first_and_needed controls_acyclic {} MemoryHost.host {}).2 _ report
      Program.discover_controls hrun (by simp [hquiet]) 3).2
    exact ⟨_, List.mem_singleton_self _, .inr ⟨.single rfl, by decide⟩⟩

/-- What a delivered instance wrapper exposes are the events of its type and of all its ancestors
with events, whichever requests the pass answered, and the properties that hide are those whose
name an ancestor has. -/
theorem delivered_exposes_exactly (hp : p.Acyclic) (s : Settings) (h : Host σ) (start : σ) :
    ∀ w ∈ ((p.pass s).run h start).transcript.wrappers, w.mode = .ofInstance →
      (w.exposed.Pairwise fun a b => a < b) ∧
      (∀ n, n ∈ w.exposed ↔ n ∈ p.ownNames w.source ∨ n ∈ p.inheritedNames w.source) ∧
      List.Forall₂ (fun e q => q.name = Code.escape e.name ∧
          (Code.Modifier.hiding ∈ q.modifiers ↔ e.name ∈ p.inheritedNames w.source))
        (p.collect w.source false false).events w.declaration.properties := by
  intro w hw hm
  rw [wrappers_run] at hw
  have hlast : Moment h (p.pass s) start (stateAfter (execute h (p.pass s)) { host := start }) :=
    .last
  obtain ⟨requests, -, hagrees⟩ := hlast.agrees hp
  exact ⟨sortedNames_sorted _, hagrees.grown.exposesAll hp w hw hm,
    hagrees.grown.properties hp hw hm⟩

theorem controls_button_exposes_shown :
    Program.controls.Acyclic ∧
      ∃ w ∈ ((Program.controls.pass {}).run MemoryHost.host {}).transcript.wrappers,
        w.mode = .ofInstance ∧ w.source = 4 ∧ "Shown" ∈ w.exposed := by
  obtain ⟨-, w, hw, hm, hsource⟩ := quiet_and_button_delivered_of_controls
  obtain ⟨-, hexposed, -⟩ :=
    delivered_exposes_exactly controls_acyclic {} MemoryHost.host {} w hw hm
  have hshown : "Shown" ∈ Program.controls.inheritedNames 4 :=
    (Program.mem_inheritedNames_iff _ _).2 (by decide)
  exact ⟨controls_acyclic, w, hw, hm, hsource, (hexposed "Shown").2 (.inr (hsource ▸ hshown))⟩

end PassInput

end EventWrap
