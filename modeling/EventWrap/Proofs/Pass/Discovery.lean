import EventWrap.Proofs.Document.History
import EventWrap.Proofs.Pass.Requests
import Mathlib.Data.List.Induction

/-!
# Discovery

The requests of a program are found exactly once. The first trigger that asks for a type stands
behind the request for it, the requests come in the order of the types' names, and all other
triggers that ask for something are told as repeated ones, in their own order. This rests on the
names of types being distinct, by which first triggers are recognised.
-/

namespace EventWrap

variable {α β κ : Type}

/-! ## Positions -/

/-- What stands at a position of a list asks for something. -/
def AsksAt (asks : α → β → Prop) (l : List α) (n : Nat) (b : β) : Prop :=
  ∃ a, l[n]? = some a ∧ asks a b

/-- Something of the same key is asked for at an earlier position. -/
def AskedBefore (key : β → κ) (asks : α → β → Prop) (l : List α) (n : Nat) (b : β) : Prop :=
  ∃ m < n, ∃ c, AsksAt asks l m c ∧ key c = key b

/-- Something is asked for at a position, and something of the same key at an earlier one. -/
def AskedAgain (key : β → κ) (asks : α → β → Prop) (l : List α) (n : Nat) : Prop :=
  ∃ b, AsksAt asks l n b ∧ AskedBefore key asks l n b

section Positions

variable {key : β → κ} {asks : α → β → Prop} {l : List α} {a : α} {b : β} {n : Nat}

theorem AsksAt.lt (h : AsksAt asks l n b) : n < l.length := by
  obtain ⟨a, ha, -⟩ := h
  exact (List.getElem?_eq_some_iff.1 ha).1

theorem asksAt_concat :
    AsksAt asks (l ++ [a]) n b ↔ AsksAt asks l n b ∨ n = l.length ∧ asks a b := by
  rcases Nat.lt_trichotomy n l.length with hlt | rfl | hgt
  · simp [AsksAt, List.getElem?_append_left hlt, Nat.ne_of_lt hlt]
  · simp [AsksAt]
  · have hlength : (l ++ [a]).length ≤ n := by
      rw [List.length_append]
      exact hgt
    have hnone : (l ++ [a])[n]? = none := List.getElem?_eq_none hlength
    simp [AsksAt, hnone, List.getElem?_eq_none (Nat.le_of_lt hgt), Nat.ne_of_gt hgt]

theorem askedBefore_concat (hn : n ≤ l.length) :
    AskedBefore key asks (l ++ [a]) n b ↔ AskedBefore key asks l n b := by
  refine exists_congr fun m => and_congr_right fun hm => ?_
  have hne : m ≠ l.length := Nat.ne_of_lt (Nat.lt_of_lt_of_le hm hn)
  simp only [asksAt_concat, hne, false_and, or_false]

theorem askedAgain_concat_of_lt (hn : n < l.length) :
    AskedAgain key asks (l ++ [a]) n ↔ AskedAgain key asks l n := by
  refine exists_congr fun b => and_congr ?_ (askedBefore_concat (Nat.le_of_lt hn))
  rw [asksAt_concat, or_iff_left fun h => Nat.ne_of_lt hn h.1]

theorem askedAgain_concat_length :
    AskedAgain key asks (l ++ [a]) l.length ↔
      ∃ b, asks a b ∧ AskedBefore key asks l l.length b := by
  refine exists_congr fun b => and_congr ?_ (askedBefore_concat (Nat.le_refl _))
  rw [asksAt_concat, or_iff_right fun h => Nat.lt_irrefl _ h.lt, and_iff_right rfl]

/-- What is asked for first is the same under keys that tell the same things apart. -/
theorem askedBefore_congr {κ' : Type} {key' : β → κ'}
    (hkey : ∀ {m c}, AsksAt asks l m c → (key c = key b ↔ key' c = key' b)) :
    AskedBefore key asks l n b ↔ AskedBefore key' asks l n b :=
  exists_congr fun _ => and_congr_right fun _ => exists_congr fun _ => and_congr_right hkey

end Positions

/-! ## First and repeated entries at their positions -/

namespace Occurrence

variable {key : β → κ} {asks : α → β → Prop} {f : α → Option β}
  (hf : ∀ a b, f a = some b ↔ asks a b)

include hf

theorem askedBefore_length_iff {l : List α} {b : β} :
    AskedBefore key asks l l.length b ↔ key b ∈ (l.filterMap f).map key := by
  rw [List.mem_map]
  constructor
  · rintro ⟨m, -, c, ⟨a, ha, hasks⟩, hkey⟩
    exact ⟨c, List.mem_filterMap.2 ⟨a, List.mem_of_getElem? ha, (hf a c).2 hasks⟩, hkey⟩
  · rintro ⟨c, hc, hkey⟩
    obtain ⟨a, ha, hac⟩ := List.mem_filterMap.1 hc
    obtain ⟨m, hm⟩ := List.mem_iff_getElem?.1 ha
    have hasks : AsksAt asks l m c := ⟨a, hm, (hf a c).1 hac⟩
    exact ⟨m, hasks.lt, c, hasks, hkey⟩

variable [DecidableEq κ]

/-- First entries are those that are asked for at a position before which nothing of their key
is. -/
theorem mem_firsts_iff_asksAt (l : List α) (b : β) :
    b ∈ firsts key [] (l.filterMap f) ↔
      ∃ n, AsksAt asks l n b ∧ ¬AskedBefore key asks l n b := by
  induction l using List.reverseRecOn with
  | nil => simp [AsksAt]
  | append_singleton l a ih =>
    have hlast : b ∈ firsts key ((l.filterMap f).map key ++ []) ([a].filterMap f) ↔
        asks a b ∧ ¬AskedBefore key asks l l.length b := by
      rw [askedBefore_length_iff hf, List.append_nil, ← hf a b]
      cases hfa : f a with
      | none => simp [hfa]
      | some c =>
        rw [List.filterMap_cons_some hfa, List.filterMap_nil, firsts]
        split
        · next hmet =>
          refine ⟨fun hb => absurd hb List.not_mem_nil, ?_⟩
          rintro ⟨⟨⟩, hnot⟩
          exact absurd hmet hnot
        · next hmet =>
          constructor
          · intro hb
            obtain rfl := List.mem_singleton.1 hb
            exact ⟨rfl, hmet⟩
          · rintro ⟨⟨⟩, -⟩
            exact List.mem_singleton_self b
    rw [List.filterMap_append, firsts_append, List.mem_append, ih, hlast]
    constructor
    · rintro (⟨n, hasks, hfirst⟩ | ⟨hasks, hfirst⟩)
      · exact ⟨n, asksAt_concat.2 (.inl hasks),
          (askedBefore_concat (Nat.le_of_lt hasks.lt)).not.2 hfirst⟩
      · exact ⟨l.length, asksAt_concat.2 (.inr ⟨rfl, hasks⟩),
          (askedBefore_concat (Nat.le_refl _)).not.2 hfirst⟩
    · rintro ⟨n, hasks, hfirst⟩
      rcases asksAt_concat.1 hasks with hearlier | ⟨rfl, hlast⟩
      · exact .inl ⟨n, hearlier, (askedBefore_concat (Nat.le_of_lt hearlier.lt)).not.1 hfirst⟩
      · exact .inr ⟨hlast, (askedBefore_concat (Nat.le_refl _)).not.1 hfirst⟩

open Classical in
/-- Repeated entries are those that are asked for again, in the order of their positions. -/
theorem forall₂_asksAt_repeats (key : β → κ) (l : List α) :
    List.Forall₂ (AsksAt asks l)
      ((List.range l.length).filter fun n => AskedAgain key asks l n)
      (repeats key [] (l.filterMap f)) := by
  induction l using List.reverseRecOn with
  | nil => exact .nil
  | append_singleton l a ih =>
    have hearlier : ((List.range l.length).filter fun n => AskedAgain key asks (l ++ [a]) n) =
        (List.range l.length).filter fun n => AskedAgain key asks l n :=
      List.filter_congr fun n hn =>
        decide_eq_decide.2 (askedAgain_concat_of_lt (List.mem_range.1 hn))
    have hpaired : List.Forall₂ (AsksAt asks (l ++ [a]))
        ((List.range l.length).filter fun n => AskedAgain key asks l n)
        (repeats key [] (l.filterMap f)) :=
      ih.imp fun _ _ hasks => asksAt_concat.2 (.inl hasks)
    have hlast : AskedAgain key asks (l ++ [a]) l.length ↔
        ∃ b, f a = some b ∧ key b ∈ (l.filterMap f).map key := by
      rw [askedAgain_concat_length]
      exact exists_congr fun b => and_congr (hf a b).symm (askedBefore_length_iff hf)
    rw [List.length_append, List.length_singleton, List.range_succ, List.filter_append, hearlier,
      List.filterMap_append]
    cases hfa : f a with
    | none =>
      have hnot : ¬AskedAgain key asks (l ++ [a]) l.length := by
        rw [hlast, hfa]
        rintro ⟨b, hb, -⟩
        cases hb
      simpa [hfa, hnot] using hpaired
    | some b =>
      rw [List.filterMap_cons_some hfa, List.filterMap_nil, repeats_concat, List.append_nil]
      apply List.rel_append hpaired
      have hb : AskedAgain key asks (l ++ [a]) l.length ↔
          key b ∈ (l.filterMap f).map key := by
        rw [hlast, hfa]
        constructor
        · rintro ⟨_, ⟨⟩, hmet⟩
          exact hmet
        · exact fun hmet => ⟨b, rfl, hmet⟩
      by_cases hmet : key b ∈ (l.filterMap f).map key
      · rw [if_pos hmet, List.filter_singleton, decide_eq_true (hb.2 hmet), cond_true]
        exact .cons (asksAt_concat.2 (.inr ⟨rfl, (hf a b).1 hfa⟩)) .nil
      · rw [if_neg hmet, List.filter_singleton, decide_eq_false (hb.not.2 hmet), cond_false]
        exact .nil

end Occurrence

/-! ## Collected requests -/

theorem Invocation.AsksFor.type_mem_mentions {s : Settings} {holder : TypeId} {i : Invocation}
    {r : Request} (h : i.AsksFor s holder r) : r.type ∈ i.mentions := by
  obtain ⟨arguments, htypes | htypes⟩ := h.typeArguments <;>
    simp [Invocation.mentions, htypes, TypeRef.mentions]

theorem Attribute.AsksFor.type_mem_mentions {s : Settings} {a : Attribute} {r : Request}
    (h : a.AsksFor s r) : r.type ∈ a.mentions := by
  obtain ⟨arguments, rest, harguments⟩ := h.arguments
  simp [Attribute.mentions, harguments, Attribute.Argument.mentions, TypeRef.mentions]

namespace Program

open Classical in
/-- Requests and repeated requests account for all that the triggers of a list ask for: what is
asked for a type first is its only request, in the order of the types' names, and what is asked for
again is repeated, in the order of the triggers. -/
structure Collects (p : Program) (asks : α → Request → Prop) (triggers : List α)
    (requests repeated : List Request) : Prop where
  mem_iff : ∀ r, r ∈ requests ↔
    ∃ n, AsksAt asks triggers n r ∧ ¬AskedBefore Request.type asks triggers n r
  existsUnique : ∀ n r, AsksAt asks triggers n r → ∃! r', r' ∈ requests ∧ r'.type = r.type
  sorted : requests.Pairwise fun r r' => p.metadataName r.type < p.metadataName r'.type
  again : List.Forall₂ (AsksAt asks triggers)
    ((List.range triggers.length).filter fun n => AskedAgain Request.type asks triggers n) repeated
  count : requests.length + repeated.length = triggers.countP fun a => ∃ r, asks a r

variable {p : Program}

section Collect

variable {asks : α → Request → Prop} {f : α → Option Request} {triggers : List α} {r : Request}
  {n : Nat} (h : p.Indexed) (hrange : ∀ a ∈ triggers, ∀ r, asks a r → r.type < p.size)
  (hf : ∀ a r, f a = some r ↔ asks a r)

include h hrange

/-- The types that triggers ask for are told apart by their names, as places of the program. -/
theorem metadataName_eq_iff_of_asksAt {m : Nat} {r' : Request} (hr' : AsksAt asks triggers m r')
    (hr : AsksAt asks triggers n r) :
    p.metadataName r'.type = p.metadataName r.type ↔ r'.type = r.type := by
  have hlt : ∀ {n r}, AsksAt asks triggers n r → r.type < p.size := by
    rintro n r ⟨a, ha, hasks⟩
    exact hrange a (List.mem_of_getElem? ha) r hasks
  exact ⟨h.eq_of_metadataName_eq (hlt hr') (hlt hr), congrArg p.metadataName⟩

theorem askedBefore_metadataName_iff (hr : AsksAt asks triggers n r) :
    AskedBefore (fun r => p.metadataName r.type) asks triggers n r ↔
      AskedBefore Request.type asks triggers n r :=
  askedBefore_congr fun hr' => metadataName_eq_iff_of_asksAt h hrange hr' hr

include hf

theorem mem_firstRequests_iff :
    r ∈ p.firstRequests (triggers.filterMap f) ↔
      ∃ n, AsksAt asks triggers n r ∧ ¬AskedBefore Request.type asks triggers n r := by
  rw [firstRequests, mem_sortedBy, Occurrence.mem_firsts_iff_asksAt hf]
  exact exists_congr fun n => and_congr_right fun hr =>
    not_congr (askedBefore_metadataName_iff h hrange hr)

theorem existsUnique_firstRequests (hr : AsksAt asks triggers n r) :
    ∃! r', r' ∈ p.firstRequests (triggers.filterMap f) ∧ r'.type = r.type := by
  obtain ⟨a, ha, hasks⟩ := id hr
  have hmem : r ∈ triggers.filterMap f :=
    List.mem_filterMap.2 ⟨a, List.mem_of_getElem? ha, (hf a r).2 hasks⟩
  have hname : p.metadataName r.type ∈ (Occurrence.firsts (fun r => p.metadataName r.type) []
      (triggers.filterMap f)).map fun r => p.metadataName r.type :=
    (Occurrence.mem_map_firsts ..).2 ⟨List.mem_map.2 ⟨r, hmem, rfl⟩, List.not_mem_nil⟩
  obtain ⟨r', hr', heq⟩ := List.mem_map.1 hname
  have hfirst : r' ∈ p.firstRequests (triggers.filterMap f) := mem_sortedBy.2 hr'
  obtain ⟨m, hasks', -⟩ := (mem_firstRequests_iff h hrange hf).1 hfirst
  have htype := (metadataName_eq_iff_of_asksAt h hrange hasks' hr).1 heq
  refine ⟨r', ⟨hfirst, htype⟩, fun r'' hr'' => ?_⟩
  exact List.inj_on_of_nodup_map (nodup_types_firstRequests p _) hr''.1 hfirst
    (hr''.2.trans htype.symm)

open Classical in
theorem forall₂_asksAt_repeatedRequests :
    List.Forall₂ (AsksAt asks triggers)
      ((List.range triggers.length).filter fun n => AskedAgain Request.type asks triggers n)
      (p.repeatedRequests (triggers.filterMap f)) := by
  have hagain : ∀ n, AskedAgain Request.type asks triggers n ↔
      AskedAgain (fun r => p.metadataName r.type) asks triggers n := fun n =>
    exists_congr fun r => and_congr_right fun hr => (askedBefore_metadataName_iff h hrange hr).symm
  rw [List.filter_congr fun n _ => decide_eq_decide.2 (hagain n)]
  exact Occurrence.forall₂_asksAt_repeats hf (fun r => p.metadataName r.type) triggers

omit h hrange in
open Classical in
theorem length_requests (p : Program) (triggers : List α) :
    (p.firstRequests (triggers.filterMap f)).length +
        (p.repeatedRequests (triggers.filterMap f)).length =
      triggers.countP fun a => ∃ r, asks a r := by
  have hsome : ∀ a, (f a).isSome ↔ ∃ r, asks a r := fun a => by
    simp only [Option.isSome_iff_exists, hf]
  rw [firstRequests, repeatedRequests, (sortedBy_perm _ _).length_eq,
    Occurrence.length_firsts_add_length_repeats, List.length_filterMap_eq_countP]
  exact List.countP_congr fun a _ => by rw [hsome, decide_eq_true_iff]

theorem Indexed.collects :
    p.Collects asks triggers (p.firstRequests (triggers.filterMap f))
      (p.repeatedRequests (triggers.filterMap f)) where
  mem_iff _ := mem_firstRequests_iff h hrange hf
  existsUnique _ _ hr := existsUnique_firstRequests h hrange hf hr
  sorted := sortedBy_pairwise_lt (Occurrence.nodup_map_firsts _ _ _)
  again := forall₂_asksAt_repeatedRequests h hrange hf
  count := length_requests hf p triggers

end Collect

/-- Discovery fails exactly where the holder cannot be found, and else accounts for every call of
the factory method and every marker: of those for one type the first makes the request, and all
others are told as repeated, calls before markers. -/
theorem discover_collects (h : p.IsBuilt) (s : Settings) :
    (p.discover s = .error (.missingHolder s.holderName) ↔ p.resolve? s.holderName = none) ∧
    ∀ holder, p.resolve? s.holderName = some holder →
      ∃ requests ofCalls ofMarkers, p.discover s = .ok requests ∧
        requests.repeated = ofCalls ++ ofMarkers ∧
        p.Collects (Invocation.AsksFor s holder) p.invocations requests.ofInstances ofCalls ∧
        p.Collects (Attribute.AsksFor s) p.assemblyAttributes requests.ofStatics ofMarkers := by
  constructor
  · constructor
    · exact fun hd => (discover_eq_error hd).1
    · intro hres
      rw [discover, hres]
  · intro holder hres
    have hcalled : ∀ i ∈ p.invocations, ∀ r, i.AsksFor s holder r → r.type < p.size :=
      fun i hi r hasks => h.invocations i hi r.type hasks.type_mem_mentions
    have hmarked : ∀ a ∈ p.assemblyAttributes, ∀ r, a.AsksFor s r → r.type < p.size :=
      fun a ha r hasks => h.assemblyAttributes a ha r.type hasks.type_mem_mentions
    have hcalls := h.indexed.collects hcalled fun _ _ => instanceRequest?_eq_some_iff
    have hmarkers := h.indexed.collects hmarked fun _ _ => staticRequest?_eq_some_iff
    exact ⟨_, _, _, discover_eq_ok hres, rfl, hcalls, hmarkers⟩

/-- Two calls that ask for `Task`, and a marker on it. -/
def asking : Program :=
  let call : Invocation :=
    { method := "Events", container := some 30, typeArguments := [.named 24 []] }
  let marker : Attribute :=
    { className := "ObservableEvents.GenerateStaticEventObservablesAttribute",
      arguments := [.typeOf (.named 24 [])] }
  ((installed.leave (.addInvocation call)).leave
    (.addInvocation { call with typeArguments := [.nullable (.named 24 [])] })).leave
      (.addAssemblyAttribute marker)

theorem isBuilt_asking : asking.IsBuilt where
  history := ⟨withCoreLibrary, _, .inr rfl,
    ((history_installed.step (List.forall_mem_nil _)).step (List.forall_mem_nil _)).step
      (List.forall_mem_nil _)⟩
  invocations := by decide
  assemblyAttributes := by decide

theorem asking_discover_collects :
    asking.discover {} = .ok {
        ofInstances := [⟨24, .ofInstance, {}⟩]
        ofStatics := [⟨24, .ofStatics, {}⟩]
        repeated := [⟨24, .ofInstance, {}⟩] } ∧
      ∃ requests ofCalls ofMarkers, asking.discover {} = .ok requests ∧
        requests.repeated = ofCalls ++ ofMarkers ∧
        asking.Collects (Invocation.AsksFor {} 30) asking.invocations requests.ofInstances
          ofCalls ∧
        asking.Collects (Attribute.AsksFor {}) asking.assemblyAttributes requests.ofStatics
          ofMarkers :=
  ⟨by decide +kernel, (discover_collects isBuilt_asking {}).2 30 (by decide)⟩

end Program

end EventWrap
