import EventWrap.Proofs.Pass.Moments

/-!
# Origins of delivered wrappers

Whatever the program, the requests and the host, each wrapper that a pass delivers is one that the
program has for a type: the link of a chain, made from what some wrappers expose, or the static
wrapper. Its class is named after the type alone.
-/

namespace EventWrap

namespace Program

variable {p : Program} {s : Settings} {known : Exposure} {w : Wrapper} {ws : List Wrapper}

/-- A wrapper that a program has for a type. -/
inductive Makes (p : Program) (s : Settings) (w : Wrapper) : Prop
  | link {known : Exposure} {t : TypeId} (built : p.linkWrapper? s known t = some w)
  | statics {t : TypeId} (built : p.staticWrapper? s t = some w)

theorem makes_of_mem_linkWrappers {links : List TypeId} (hw : w ∈ p.linkWrappers s known links) :
    p.Makes s w := by
  induction links generalizing known with
  | nil => cases hw
  | cons link rest ih =>
    rw [linkWrappers_cons] at hw
    split at hw
    · exact ih hw
    · split at hw
      · next v hv =>
        rcases List.mem_cons.1 hw with rfl | hw
        · exact .link hv
        · exact ih hw
      · exact ih hw

theorem makes_of_wrappersFor? {r : Request} (h : p.wrappersFor? s known r = some ws) (hw : w ∈ ws) :
    p.Makes s w := by
  cases hm : r.mode with
  | ofInstance =>
    simp only [wrappersFor?, hm, instanceWrappers?_eq] at h
    split at h
    · cases h
      exact makes_of_mem_linkWrappers hw
    · cases h
  | ofStatics =>
    simp only [wrappersFor?, hm] at h
    obtain ⟨v, hv, rfl⟩ := Option.map_eq_some_iff.1 h
    rw [List.mem_singleton.1 hw]
    exact .statics hv

/-- The class of a type's wrappers. It does not depend on the mode. -/
def wrapperKey (p : Program) (t : TypeId) : ClassKey :=
  (p.wrapperNamespace t, p.wrapperName t, (p.typeParametersInScope t).length)

theorem synthesize_classKey {plan : WrapperPlan} (h : p.synthesize s plan = some w) :
    w.classKey = p.wrapperKey w.source := by
  simp only [synthesize] at h
  split at h
  · cases h
  · cases h
    rw [Wrapper.classKey, wrapperKey, wrapperClass, List.length_map]

theorem synthesize_name {plan : WrapperPlan} (h : p.synthesize s plan = some w) :
    w.declaration.name = w.name := by
  simp only [synthesize] at h
  split at h
  · cases h
  · cases h
    rfl

namespace Makes

variable (h : p.Makes s w)

include h

theorem exists_plan : ∃ plan, p.synthesize s plan = some w := by
  cases h with
  | link built => exact ⟨_, built⟩
  | statics built => exact ⟨_, built⟩

theorem classKey : w.classKey = p.wrapperKey w.source := by
  obtain ⟨plan, hplan⟩ := h.exists_plan
  exact synthesize_classKey hplan

theorem name : w.declaration.name = w.name := by
  obtain ⟨plan, hplan⟩ := h.exists_plan
  exact synthesize_name hplan

/-- A static wrapper is made of the static events of its type, and there are some. -/
theorem of_statics (hm : w.mode = .ofStatics) : p.staticWrapper? s w.source = some w := by
  cases h with
  | link built =>
    rw [mode_of_linkWrapper? built] at hm
    cases hm
  | statics built => rw [(mode_of_staticWrapper? built).1, built]

end Makes

end Program

namespace PassStep

variable {σ : Type} {h : Host σ} {i : PassInput} {st st' : PassState σ} {ws : List Wrapper}
  {ds : List Diagnostic}

/-- What was delivered so far are wrappers that the program has. -/
def DeliversMade (i : PassInput) (st : PassState σ) : Prop :=
  ∀ w ∈ st.transcript.wrappers, i.program.Makes i.settings w

namespace DeliversMade

theorem progress (hst : DeliversMade i st) (hp : st.Progress i st' ws ds)
    (hws : ∀ w ∈ ws, i.program.Makes i.settings w) : DeliversMade i st' := by
  intro w hw
  rw [hp.wrappers, List.mem_append] at hw
  exact hw.elim (hst w) (hws w)

theorem idle (hst : DeliversMade i st) (hp : st.Progress i st' [] ds) : DeliversMade i st' :=
  hst.progress hp fun _ hw => absurd hw List.not_mem_nil

theorem answer (r : Request) (hst : DeliversMade i st) :
    DeliversMade i (stateAfter (answer h i r) st) := by
  have hanswered := answer_cases h i r st
  rw [stateAfter]
  revert hanswered
  generalize PassStep.answer h i r st = result
  intro hanswered
  cases hanswered with
  | delivered hneeded hp =>
    exact hst.progress hp fun _ hw => Program.makes_of_wrappersFor? hneeded hw
  | conflict hneeded hfirst hp | cancelled hneeded hfirst hp =>
    exact hst.progress hp fun _ hw => Program.makes_of_wrappersFor? hneeded (hfirst.subset hw)
  | nothing _ hp | failed _ hp => exact hst.idle hp
  | dropped => exact hst

theorem prepare (requests : Requests) (hst : DeliversMade i st) :
    DeliversMade i (stateAfter (prepare h i requests) st) := by
  rcases prepare_cases h i requests st with ⟨st', ds, hr, hp, -⟩ | ⟨st', hr, hp⟩
  · rw [stateAfter_ok hr]
    exact hst.idle hp
  · rw [stateAfter_error hr]
    exact hst.idle hp

theorem deliverExtensions (hst : DeliversMade i st) :
    DeliversMade i (stateAfter (deliverExtensions h i) st) := by
  rcases deliverExtensions_cases h i st with ⟨st', ds, hr, hp, -⟩ | ⟨st', hr, hp⟩
  · rw [stateAfter_ok hr]
    exact hst.idle hp
  · rw [stateAfter_error hr]
    exact hst.idle hp

theorem execute (h : Host σ) (i : PassInput) (start : σ) :
    DeliversMade i (stateAfter (execute h i) { host := start }) := by
  have hstart : DeliversMade i ({ host := start } : PassState σ) := fun _ hw => by cases hw
  cases hd : i.program.discover i.settings with
  | error e => rwa [stateAfter_error (execute_run_of_error h i hd _)]
  | ok requests =>
    rw [execute_eq h i hd]
    refine stateAfter_bind (hstart.prepare requests) fun _ opened hopened => ?_
    have hanswered := stateAfter_answerAll h i (fun r _ hst => answer r hst) (fun hst => hst)
      requests.toList hopened
    exact stateAfter_bind hanswered fun _ _ => deliverExtensions

end DeliversMade

end PassStep

namespace PassInput

variable {σ : Type}

/-- Every wrapper that a pass delivers is one that its program has. -/
theorem makes_of_mem_wrappers (h : Host σ) (i : PassInput) (start : σ) {w : Wrapper}
    (hw : w ∈ (i.run h start).transcript.wrappers) : i.program.Makes i.settings w := by
  rw [wrappers_run] at hw
  exact PassStep.DeliversMade.execute h i start w hw

end PassInput

end EventWrap
