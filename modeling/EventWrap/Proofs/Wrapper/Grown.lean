import EventWrap.Pass.Request
import EventWrap.Proofs.Wrapper.Chain

/-!
# Grown lists of wrappers

The wrappers that a pass delivers form a list that grows at its end, by a link of a requested chain
that fits what is there or by a static wrapper that is not there yet. In such a list no wrapper
occurs twice, and the parent of each instance wrapper comes before it.
-/

namespace EventWrap.Program

variable {p : Program} {s : Settings} {requests requests' : List Request}
  {ws before after : List Wrapper}
  {w : Wrapper} {t : TypeId}

/-- A wrapper for one of some requests that can be added to those before it. -/
inductive Admits (p : Program) (s : Settings) (requests : List Request) (before : List Wrapper)
    (w : Wrapper) : Prop
  | link {r : Request} (requested : r ∈ requests) (mode : r.mode = .ofInstance)
      (offers : p.offersInstanceEvents r.type) (isLink : w.source ∈ p.links r.type)
      (fits : p.Fits s (exposureOf before) w)
  | statics {r : Request} (requested : r ∈ requests) (mode : r.mode = .ofStatics)
      (built : p.staticWrapper? s r.type = some w)
      (fresh : ∀ v ∈ before, v.mode = .ofStatics → v.source ≠ w.source)

/-- Wrappers for some requests, each added to those before it. -/
inductive Grown (p : Program) (s : Settings) (requests : List Request) : List Wrapper → Prop
  | none : Grown p s requests []
  | append {ws : List Wrapper} {w : Wrapper} (earlier : Grown p s requests ws)
      (admitted : p.Admits s requests ws w) : Grown p s requests (ws ++ [w])

/-! ## A single wrapper -/

namespace Admits

theorem mono (h : p.Admits s requests before w) (hsub : requests ⊆ requests') :
    p.Admits s requests' before w := by
  cases h with
  | link hr hm ho hl hf => exact .link (hsub hr) hm ho hl hf
  | statics hr hm hb hf => exact .statics (hsub hr) hm hb hf

theorem fits (h : p.Admits s requests before w) (hm : w.mode = .ofInstance) :
    p.Fits s (exposureOf before) w := by
  cases h with
  | link _ _ _ _ hf => exact hf
  | statics _ _ hb =>
    rw [(mode_of_staticWrapper? hb).2] at hm
    cases hm

/-- A type has no second wrapper of a mode. -/
theorem new (h : p.Admits s requests before w) :
    ∀ v ∈ before, (v.source, v.mode) ≠ (w.source, w.mode) := by
  intro v hv heq
  obtain ⟨hsource, hmode⟩ := Prod.mk.inj heq
  cases h with
  | link _ _ _ _ hf =>
    rw [mode_of_linkWrapper? hf.built] at hmode
    have hknown := lookup_exposureOf_isSome.2 ⟨v, hv, hmode, hsource⟩
    rw [hf.fresh] at hknown
    cases hknown
  | statics _ _ hb hfresh =>
    rw [(mode_of_staticWrapper? hb).2] at hmode
    exact hfresh v hv hmode hsource

end Admits

namespace Grown

theorem mono (h : Grown p s requests ws) (hsub : requests ⊆ requests') :
    Grown p s requests' ws := by
  induction h with
  | none => exact .none
  | append _ hadmits ih => exact .append ih (hadmits.mono hsub)

/-- Every wrapper was added to those before it. -/
theorem at_split (h : Grown p s requests ws) (hws : ws = before ++ w :: after) :
    Grown p s requests before ∧ p.Admits s requests before w := by
  induction h generalizing after with
  | none => simp at hws
  | append earlier hadmits ih =>
    rcases List.eq_nil_or_concat' after with rfl | ⟨after, x, rfl⟩
    · obtain ⟨rfl, hv⟩ := List.append_inj' hws rfl
      cases hv
      exact ⟨earlier, hadmits⟩
    · rw [← List.cons_append, ← List.append_assoc] at hws
      exact ih (List.append_inj' hws rfl).1

theorem nodup (h : Grown p s requests ws) : (ws.map fun w => (w.source, w.mode)).Nodup := by
  induction h with
  | none => exact List.nodup_nil
  | append _ hadmits ih =>
    rw [List.map_append, List.nodup_append]
    refine ⟨ih, List.nodup_singleton _, ?_⟩
    intro a ha b hb
    obtain ⟨v, hv, rfl⟩ := List.mem_map.1 ha
    rw [List.mem_singleton.1 hb]
    exact hadmits.new v hv

/-- Each static wrapper was requested. -/
theorem static_requested (h : Grown p s requests ws) (hw : w ∈ ws) (hm : w.mode = .ofStatics) :
    ∃ r ∈ requests, r.mode = .ofStatics ∧ r.type = w.source := by
  obtain ⟨before, after, hws⟩ := List.append_of_mem hw
  cases (h.at_split hws).2 with
  | link _ _ _ _ hf =>
    rw [mode_of_linkWrapper? hf.built] at hm
    cases hm
  | statics hr hrm hb => exact ⟨_, hr, hrm, (mode_of_staticWrapper? hb).1.symm⟩

/-- Each instance wrapper is for a link of a requested chain. -/
theorem link_requested (h : Grown p s requests ws) (hw : w ∈ ws) (hm : w.mode = .ofInstance) :
    ∃ r ∈ requests, r.mode = .ofInstance ∧ p.offersInstanceEvents r.type ∧
      w.source ∈ p.links r.type := by
  obtain ⟨before, after, hws⟩ := List.append_of_mem hw
  cases (h.at_split hws).2 with
  | link hr hrm ho hl => exact ⟨_, hr, hrm, ho, hl⟩
  | statics _ _ hb =>
    rw [(mode_of_staticWrapper? hb).2] at hm
    cases hm

/-! ## Growing by an answer -/

/-- Wrappers that fit in turn can be added, all or a first part of them. -/
theorem append_links {needed first : List Wrapper} {r : Request} (h : Grown p s requests ws)
    (hfit : p.FitInTurn s (exposureOf ws) needed) (hr : r ∈ requests) (hm : r.mode = .ofInstance)
    (ho : p.offersInstanceEvents r.type) (hlinks : ∀ w ∈ needed, w.source ∈ p.links r.type)
    (hfirst : first <+: needed) :
    Grown p s requests (ws ++ first) := by
  induction first generalizing ws needed with
  | nil =>
    rw [List.append_nil]
    exact h
  | cons w first ih =>
    obtain ⟨later, rfl⟩ := hfirst
    cases hfit with
    | cons hfits hrest =>
      have hgrown : Grown p s requests (ws ++ [w]) :=
        .append h (.link hr hm ho (hlinks w List.mem_cons_self) hfits)
      rw [← List.singleton_append, ← List.append_assoc]
      refine ih hgrown ?_ (fun v hv => hlinks v (List.mem_cons_of_mem _ hv)) ⟨later, rfl⟩
      rw [exposureOf_append, exposureOf_instance (mode_of_linkWrapper? hfits.built)]
      exact hrest

/-- The wrappers that a request still needs can be added, all or a first part of them. -/
theorem append_needed (hp : p.Acyclic) {needed first : List Wrapper} {r : Request}
    (h : Grown p s requests ws) (hneeded : p.wrappersFor? s (exposureOf ws) r = some needed)
    (hnew : ∀ r' ∈ requests, (r'.type, r'.mode) ≠ (r.type, r.mode))
    (hfirst : first <+: needed) : Grown p s (requests ++ [r]) (ws ++ first) := by
  have hgrown : Grown p s (requests ++ [r]) ws := h.mono (List.subset_append_left _ _)
  have hr : r ∈ requests ++ [r] := List.mem_append_right _ List.mem_cons_self
  cases hm : r.mode with
  | ofInstance =>
    simp only [wrappersFor?, hm, instanceWrappers?_eq] at hneeded
    split at hneeded
    · next ho =>
      cases hneeded
      exact hgrown.append_links (fitInTurn_links hp ho _) hr hm ho
        (fun w hw => source_of_mem_linkWrappers hw) hfirst
    · cases hneeded
  | ofStatics =>
    simp only [wrappersFor?, hm] at hneeded
    obtain ⟨w, hw, rfl⟩ := Option.map_eq_some_iff.1 hneeded
    have hsource := (mode_of_staticWrapper? hw).1
    rcases List.prefix_cons_iff.1 hfirst with rfl | ⟨_, rfl, hnil⟩
    · rw [List.append_nil]
      exact hgrown
    · rw [List.prefix_nil.1 hnil]
      refine .append hgrown (.statics hr hm hw fun v hv hvm hvs => ?_)
      obtain ⟨r', hr', hm', ht'⟩ := h.static_requested hv hvm
      exact hnew r' hr' (by rw [hm', ht', hvs, hsource, hm])

end Grown

end EventWrap.Program
