import EventWrap.Generator
import EventWrap.Proofs.Document.Rearrangement
import EventWrap.Proofs.Renaming.Pass

/-!
# The order of documents does not matter

A generator gives the same units and the same diagnostics, but for their places, whatever the order
in which a document lists its types, invocations and attributes.
-/

namespace EventWrap.Generator

variable {g : Generator} {d d' : Document} {p q : Program}

/-- A document is loaded on a foundation, which depends on the settings only. -/
theorem load_eq_ok_iff : g.load d = .ok p ↔ ∃ triggers base,
    Loading.installTriggers g.settings Program.withCoreLibrary = .ok triggers base ∧
      Loading.loadDocument d base = .ok () p := by
  unfold load
  constructor
  · intro hp
    dsimp only at hp
    split at hp
    · next hrun =>
      cases hp
      obtain ⟨triggers, base, htriggers, hrun⟩ := Loading.bind_eq_ok_iff.1 hrun
      exact ⟨triggers, base, htriggers, hrun⟩
    · cases hp
  · rintro ⟨triggers, base, htriggers, hrun⟩
    dsimp only
    rw [Loading.bind_eq_ok_iff.2 ⟨triggers, base, htriggers, hrun⟩]

theorem exists_load_of_rearranges (h : d.Rearranges d') (houter : d'.OuterFirst)
    (hp : g.load d = .ok p) :
    ∃ q, g.load d' = .ok q := by
  obtain ⟨triggers, base, htriggers, hp⟩ := load_eq_ok_iff.1 hp
  have hbase := Loading.isFoundation_of_installTriggers Program.isFoundation_withCoreLibrary
    htriggers
  obtain ⟨headers, hloaded⟩ := Loading.loaded_of_loadDocument hbase.indexed hp
  obtain ⟨q, hq⟩ := h.exists_loadDocument hbase houter hloaded
  exact ⟨q, load_eq_ok_iff.2 ⟨triggers, base, htriggers, hq⟩⟩

theorem rearranges_of_load (h : d.Rearranges d') (hp : g.load d = .ok p) (hq : g.load d' = .ok q) :
    ∃ σ, p.Rearranges σ q := by
  obtain ⟨triggers, base, htriggers, hp⟩ := load_eq_ok_iff.1 hp
  obtain ⟨triggers', base', htriggers', hq⟩ := load_eq_ok_iff.1 hq
  obtain ⟨rfl, rfl⟩ := EStateM.Result.ok.inj (htriggers.symm.trans htriggers')
  have hbase := Loading.isFoundation_of_installTriggers Program.isFoundation_withCoreLibrary
    htriggers
  obtain ⟨headers, hloaded⟩ := Loading.loaded_of_loadDocument hbase.indexed hp
  obtain ⟨headers', hloaded'⟩ := Loading.loaded_of_loadDocument hbase.indexed hq
  exact ⟨_, h.rearranges hbase hloaded hloaded'⟩

/-- Rearranged documents, with outer types first, can both be loaded or cannot. Where they can, the
same units are delivered and the same diagnostics reported, in the same order. -/
theorem rearranged_output_eq (g : Generator) {d d' : Document} (h : d.Rearranges d')
    (houter : d.OuterFirst) (houter' : d'.OuterFirst) :
    ((∃ p, g.load d = .ok p) ↔ ∃ q, g.load d' = .ok q) ∧
    ∀ p q, g.load d = .ok p → g.load d' = .ok q →
      (g.run MemoryHost.host p {}).host.sources = (g.run MemoryHost.host q {}).host.sources ∧
      (g.run MemoryHost.host p {}).host.diagnostics.map (fun x => (x.id, x.message)) =
        (g.run MemoryHost.host q {}).host.diagnostics.map fun x => (x.id, x.message) := by
  refine ⟨⟨?_, ?_⟩, ?_⟩
  · exact fun ⟨_, hp⟩ => exists_load_of_rearranges h houter' hp
  · exact fun ⟨_, hq⟩ => exists_load_of_rearranges h.symm houter hq
  · intro p q hp hq
    obtain ⟨σ, hpq⟩ := rearranges_of_load h hp hq
    have halike := hpq.run g.settings
    exact ⟨halike.sources.symm, halike.wordings.symm⟩

/-- Both documents are loaded with default settings, and give the same. -/
theorem relisted_output_eq : ∃ (g : Generator) (p q : Program), g.settings = {} ∧
    g.load .listed = .ok p ∧ g.load .relisted = .ok q ∧
    (g.run MemoryHost.host p {}).host.sources = (g.run MemoryHost.host q {}).host.sources ∧
    (g.run MemoryHost.host p {}).host.diagnostics.map (fun x => (x.id, x.message)) =
      (g.run MemoryHost.host q {}).host.diagnostics.map fun x => (x.id, x.message) := by
  let g : Generator := ⟨{}, by decide⟩
  have hload : (g.load .listed).isOk = true := by decide
  obtain ⟨hiff, houtput⟩ :=
    rearranged_output_eq g Document.rearranges_relisted (by decide) (by decide)
  cases hp : g.load .listed with
  | error e =>
    rw [hp] at hload
    cases hload
  | ok p =>
    obtain ⟨q, hq⟩ := hiff.1 ⟨p, hp⟩
    exact ⟨g, p, q, rfl, hp, hq, houtput p q hp hq⟩

end EventWrap.Generator
