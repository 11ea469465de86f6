import EventWrap.Command.Validation
import EventWrap.Proofs.Triggers

/-!
# Warnings about triggers

Validation warns about calls of the factory method's name that bind elsewhere or do not have one
type argument, and about markers whose first argument is no type. What is left, bound calls with one
type argument and markers with a type, is found by discovery where that type is a declared one.
Where it is a type parameter or an array, or is nullable beyond what discovery strips, the trigger
is overlooked: nothing is generated for it and nothing is said.
-/

namespace EventWrap

/-! ## Triggers that are not found -/

/-- A declared type, whatever its type arguments. -/
def TypeRef.IsDeclared (r : TypeRef) : Prop := ∃ id arguments, r = .named id arguments

section Triggers

variable (s : Settings) (holder : TypeId)

/-- Why a call of the factory method's name asks for nothing. -/
inductive Invocation.WarnedBy (i : Invocation) : Warning → Prop
  | unbound (method : i.method = s.factoryMethod) (container : i.container ≠ some holder) :
    WarnedBy i (.unboundCall i.location i.method s.holderName)
  | miscounted (method : i.method = s.factoryMethod) (container : i.container = some holder)
    (count : i.typeArguments.length ≠ 1) :
    WarnedBy i (.argumentCount i.location i.method i.typeArguments.length)

/-- A call binds to the holder with a single type argument that is no declared type, not even when
it is stripped of a nullable mark. -/
structure Invocation.IsOverlooked (i : Invocation) : Prop where
  container : i.container = some holder
  typeArgument : ∃ argument, i.typeArguments = [argument] ∧ ¬argument.stripNullable.IsDeclared

/-- Why a marker asks for nothing. -/
inductive Attribute.WarnedBy (a : Attribute) : Warning → Prop
  | untyped (className : a.className = s.markerName)
    (arguments : ∀ type rest, a.arguments ≠ .typeOf type :: rest) :
    WarnedBy a (.untypedMarker a.location s.staticAttribute)

/-- A marker is given a type that is no declared one. -/
def Attribute.IsOverlooked (a : Attribute) : Prop :=
  ∃ type rest, a.arguments = .typeOf type :: rest ∧ ¬type.IsDeclared

end Triggers

section Invocations

variable {p : Program} {s : Settings} {holder : TypeId} {i : Invocation} {w : Warning}

theorem Program.callWarning?_eq_some_iff (h : p.resolve? s.holderName = some holder) :
    p.callWarning? s i = some w ↔ i.WarnedBy s holder w := by
  constructor
  · intro hw
    rw [callWarning?, h] at hw
    split at hw
    · cases hw
    · next hmethod =>
      have hmethod := Decidable.not_not.1 hmethod
      split at hw
      · next hcontainer =>
        cases hw
        exact .unbound hmethod hcontainer
      · next hcontainer =>
        split at hw
        · next hcount =>
          cases hw
          exact .miscounted hmethod (Decidable.not_not.1 hcontainer) hcount
        · cases hw
  · rintro (⟨hmethod, hcontainer⟩ | ⟨hmethod, hcontainer, hcount⟩)
    · rw [callWarning?, if_neg (not_not_intro hmethod), h, if_pos hcontainer]
    · rw [callWarning?, if_neg (not_not_intro hmethod), h, if_neg (not_not_intro hcontainer),
        if_pos hcount]

theorem Invocation.exists_asksFor_iff : (∃ r, i.AsksFor s holder r) ↔
    i.method = s.factoryMethod ∧ i.container = some holder ∧
      ∃ argument, i.typeArguments = [argument] ∧ argument.stripNullable.IsDeclared := by
  constructor
  · rintro ⟨r, hmethod, hcontainer, ⟨arguments, htype | htype⟩, -, -⟩
    · exact ⟨hmethod, hcontainer, _, htype, _, _, rfl⟩
    · exact ⟨hmethod, hcontainer, _, htype, _, _, rfl⟩
  · rintro ⟨hmethod, hcontainer, argument, htype, id, arguments, hnamed⟩
    refine ⟨⟨id, .ofInstance, i.location⟩, hmethod, hcontainer, ⟨arguments, ?_⟩, rfl, rfl⟩
    rcases TypeRef.stripNullable_eq_named_iff.1 hnamed with rfl | rfl
    · exact .inl htype
    · exact .inr htype

theorem Invocation.exists_warnedBy_iff : (∃ w, i.WarnedBy s holder w) ↔
    i.method = s.factoryMethod ∧ (i.container = some holder → i.typeArguments.length ≠ 1) := by
  constructor
  · rintro ⟨_, ⟨hmethod, hcontainer⟩ | ⟨hmethod, hcontainer, hcount⟩⟩
    · exact ⟨hmethod, fun h => absurd h hcontainer⟩
    · exact ⟨hmethod, fun _ => hcount⟩
  · rintro ⟨hmethod, hcount⟩
    by_cases hcontainer : i.container = some holder
    · exact ⟨_, .miscounted hmethod hcontainer (hcount hcontainer)⟩
    · exact ⟨_, .unbound hmethod hcontainer⟩

/-- A call of the factory method's name is found, is warned about or is overlooked. -/
theorem Invocation.found_or_warned_iff (hmethod : i.method = s.factoryMethod) :
    (∃ r, i.AsksFor s holder r) ∨ (∃ w, i.WarnedBy s holder w) ↔ ¬i.IsOverlooked holder := by
  rw [exists_asksFor_iff, exists_warnedBy_iff, and_iff_right hmethod, and_iff_right hmethod]
  constructor
  · rintro (⟨-, argument, htype, hdeclared⟩ | hcount) ⟨hcontainer, argument', htype', hnot⟩
    · obtain rfl := List.singleton_inj.1 (htype.symm.trans htype')
      exact hnot hdeclared
    · exact hcount hcontainer (htype' ▸ rfl)
  · intro hnot
    by_contra hneither
    obtain ⟨hunasked, hunwarned⟩ := not_or.1 hneither
    obtain ⟨hcontainer, hcount⟩ := Classical.not_imp.1 hunwarned
    obtain ⟨argument, htype⟩ := List.length_eq_one_iff.1 (Decidable.not_not.1 hcount)
    exact hnot ⟨hcontainer, argument, htype, fun hdeclared =>
      hunasked ⟨hcontainer, argument, htype, hdeclared⟩⟩

end Invocations

section Attributes

variable {s : Settings} {a : Attribute} {w : Warning}

theorem Attribute.isNone_typeArgument?_iff :
    a.typeArgument?.isNone ↔ ∀ type rest, a.arguments ≠ .typeOf type :: rest := by
  unfold typeArgument?
  split
  · next type rest harguments => simp [harguments]
  · next h => exact iff_of_true rfl h

theorem Program.markerWarning?_eq_some_iff :
    markerWarning? s a = some w ↔ a.WarnedBy s w := by
  constructor
  · intro hw
    unfold markerWarning? at hw
    split at hw
    · next h =>
      cases hw
      exact .untyped h.1 (Attribute.isNone_typeArgument?_iff.1 h.2)
    · cases hw
  · rintro ⟨hclass, harguments⟩
    rw [markerWarning?, if_pos ⟨hclass, Attribute.isNone_typeArgument?_iff.2 harguments⟩]

/-- A marker that is not overlooked is found, or else is warned about. -/
theorem Attribute.found_or_warned_iff (hclass : a.className = s.markerName) :
    (∃ r, a.AsksFor s r) ∨ (∃ w, a.WarnedBy s w) ↔ ¬a.IsOverlooked := by
  constructor
  · rintro (⟨r, -, ⟨arguments, rest, hdeclared⟩, -, -⟩ | ⟨_, -, huntyped⟩)
      ⟨type, rest', htype, hnot⟩
    · cases hdeclared.symm.trans htype
      exact hnot ⟨_, _, rfl⟩
    · exact huntyped type rest' htype
  · intro hnot
    by_cases htyped : ∃ type rest, a.arguments = .typeOf type :: rest
    · obtain ⟨type, rest, htype⟩ := htyped
      obtain ⟨id, arguments, rfl⟩ := Classical.not_not.1 fun h => hnot ⟨type, rest, htype, h⟩
      exact .inl ⟨⟨id, .ofStatics, a.location⟩, hclass, ⟨arguments, rest, htype⟩, rfl, rfl⟩
    · refine .inr ⟨_, .untyped hclass fun type rest htype => ?_⟩
      exact htyped ⟨type, rest, htype⟩

end Attributes

/-! ## All triggers of a program -/

section Accounts

variable {α : Type}

open Classical in
/-- The entries of a list that something comes of, each with what comes of it. -/
theorem forall₂_filterMap {β : Type} {yields : α → β → Prop} {f : α → Option β}
    (hf : ∀ a b, f a = some b ↔ yields a b) (l : List α) :
    List.Forall₂ yields (l.filter fun a => ∃ b, yields a b) (l.filterMap f) := by
  induction l with
  | nil => exact .nil
  | cons a rest ih =>
    cases hfa : f a with
    | none =>
      have hnone : ¬∃ b, yields a b := by
        rintro ⟨b, hb⟩
        cases hfa.symm.trans ((hf a b).2 hb)
      rw [List.filterMap_cons_none hfa, List.filter_cons, if_neg (by simpa using hnone)]
      exact ih
    | some b =>
      have hb : yields a b := (hf a b).1 hfa
      rw [List.filterMap_cons_some hfa, List.filter_cons, if_pos (decide_eq_true ⟨b, hb⟩)]
      exact .cons hb ih

open Classical in
/-- All triggers of a list but the overlooked ones are found or warned about: what was found is what
each of them asks for, in another order, and each warning is about its own trigger, in their
order. -/
structure Accounts (isTrigger : α → Prop) (asks : α → Request → Prop) (warns : α → Warning → Prop)
    (isOverlooked : α → Prop) (triggers : List α) (found : List Request)
    (warnings : List Warning) : Prop where
  accounted : ∀ a ∈ triggers, isTrigger a →
    ((∃ r, asks a r) ∨ (∃ w, warns a w) ↔ ¬isOverlooked a)
  found : ∃ asked, List.Forall₂ asks (triggers.filter fun a => ∃ r, asks a r) asked ∧
    asked.Perm found
  warned : List.Forall₂ warns (triggers.filter fun a => ∃ w, warns a w) warnings

namespace Program

variable {p : Program} {s : Settings} {requests : Requests}

theorem first_append_repeated_perm (p : Program) (rs : List Request) :
    (p.firstRequests rs ++ p.repeatedRequests rs).Perm rs :=
  ((sortedBy_perm _ _).append_right _).trans (Occurrence.firsts_append_repeats_perm _ [] rs)

/-- A list is accounted for when it is read for requests and for warnings. -/
theorem accounts_filterMap {isTrigger : α → Prop} {asks : α → Request → Prop}
    {warns : α → Warning → Prop} {isOverlooked : α → Prop} {f : α → Option Request}
    {g : α → Option Warning} (hf : ∀ a r, f a = some r ↔ asks a r)
    (hg : ∀ a w, g a = some w ↔ warns a w)
    (h : ∀ a, isTrigger a → ((∃ r, asks a r) ∨ (∃ w, warns a w) ↔ ¬isOverlooked a))
    (triggers : List α) :
    Accounts isTrigger asks warns isOverlooked triggers
      (p.firstRequests (triggers.filterMap f) ++ p.repeatedRequests (triggers.filterMap f))
      (triggers.filterMap g) where
  accounted a _ := h a
  found := ⟨_, forall₂_filterMap hf triggers, (p.first_append_repeated_perm _).symm⟩
  warned := forall₂_filterMap hg triggers

theorem warnings_validate (h : p.discover s = .ok requests) (path : String) :
    (p.validate s path).warnings = p.triggerWarnings s ++ p.requestWarnings requests := by
  rw [validate, h]

end Program

end Accounts

namespace Generator

variable {g : Generator} {d : Document} {p : Program}

/-- Of a loaded document every call of the factory method's name and every marker is found by
discovery, among the requests or the repeated ones, or has a warning of its own, unless it is
overlooked. -/
theorem validate_accounts (h : g.load d = .ok p) (path : String) :
    ∃ holder requests ofCalls ofMarkers callWarnings markerWarnings,
      p.resolve? g.settings.holderName = some holder ∧ g.discover p = .ok requests ∧
      requests.repeated = ofCalls ++ ofMarkers ∧
      (p.validate g.settings path).warnings =
        callWarnings ++ markerWarnings ++ p.requestWarnings requests ∧
      Accounts (fun i => i.method = g.settings.factoryMethod)
        (Invocation.AsksFor g.settings holder) (Invocation.WarnedBy g.settings holder)
        (Invocation.IsOverlooked holder) p.invocations (requests.ofInstances ++ ofCalls)
        callWarnings ∧
      Accounts (fun a => a.className = g.settings.markerName) (Attribute.AsksFor g.settings)
        (Attribute.WarnedBy g.settings) Attribute.IsOverlooked p.assemblyAttributes
        (requests.ofStatics ++ ofMarkers) markerWarnings := by
  obtain ⟨triggers, htriggers⟩ := hasTriggers_of_load h
  have hholder : p.resolve? g.settings.holderName = some triggers.holder := htriggers.holder
  have hdiscover := Program.discover_eq_ok hholder
  refine ⟨triggers.holder, _, _, _, _, _, hholder, hdiscover, rfl,
    Program.warnings_validate hdiscover path, ?_, ?_⟩
  · exact Program.accounts_filterMap (fun _ _ => Program.instanceRequest?_eq_some_iff)
      (fun _ _ => Program.callWarning?_eq_some_iff hholder)
      (fun _ => Invocation.found_or_warned_iff) p.invocations
  · exact Program.accounts_filterMap (fun _ _ => Program.staticRequest?_eq_some_iff)
      (fun _ _ => Program.markerWarning?_eq_some_iff)
      (fun _ => Attribute.found_or_warned_iff) p.assemblyAttributes

end Generator

/-- Two calls of the factory method and two markers: for a clock, for an array of clocks and for a
clock that is marked as nullable. -/
def Document.clocks : Document where
  types := [{
    namespaceName := "Sample"
    name := "Clock"
    events := [{ name := "Tick", delegate := .name "System.EventHandler" },
      { name := "Struck", delegate := .name "System.EventHandler", isStatic := true }] }]
  assemblyAttributes := [marker (.name "Sample.Clock"), marker (.nullable (.name "Sample.Clock"))]
  invocations := [call (.name "Sample.Clock"), call (.array (.name "Sample.Clock") 1)]
where
  marker (type : Reference) : AttributeEntry :=
    { name := "ObservableEvents.GenerateStaticEventObservablesAttribute"
      arguments := [.typeOf type] }
  call (type : Reference) : InvocationEntry :=
    { method := "Events", container := some "ObservableEvents.ObservableGeneratorExtensions",
      typeArguments := [type] }

namespace Generator

theorem clocks_accounted : ∃ (g : Generator) (p : Program) (holder : TypeId) (requests : Requests),
    g.settings = {} ∧ g.load .clocks = .ok p ∧
    p.resolve? "ObservableEvents.ObservableGeneratorExtensions" = some holder ∧
    g.discover p = .ok requests ∧
    (∀ i ∈ p.invocations, i.method = "Events" →
      ((∃ r, i.AsksFor {} holder r) ∨ (∃ w, i.WarnedBy {} holder w) ↔ ¬i.IsOverlooked holder)) ∧
    ∃ callWarnings markerWarnings, (p.validate {} "model.json").warnings =
      callWarnings ++ markerWarnings ++ p.requestWarnings requests := by
  let g : Generator := ⟨{}, by decide⟩
  have hload : (g.load .clocks).isOk = true := by decide
  cases hp : g.load .clocks with
  | error e =>
    rw [hp] at hload
    cases hload
  | ok p =>
    obtain ⟨holder, requests, _, _, callWarnings, markerWarnings, hholder, hdiscover, -,
      hwarnings, hcalls, -⟩ := validate_accounts hp "model.json"
    exact ⟨g, p, holder, requests, rfl, hp, hholder, hdiscover, hcalls.accounted, callWarnings,
      markerWarnings, hwarnings⟩

/-- Of two calls and two markers one each is found, none is repeated, and there is no warning. -/
theorem clocks_overlooked : ∃ (g : Generator) (p : Program), g.settings = {} ∧
    g.load .clocks = .ok p ∧
    p.invocations.countP (fun i => i.method = g.settings.factoryMethod) = 2 ∧
    p.assemblyAttributes.countP (fun a => a.className = g.settings.markerName) = 2 ∧
    g.discover p = .ok
      { ofInstances := [⟨p.size - 1, .ofInstance, {}⟩]
        ofStatics := [⟨p.size - 1, .ofStatics, {}⟩] } ∧
    (p.validate g.settings "model.json").warnings = [] := by
  let g : Generator := ⟨{}, by decide⟩
  have hload : (g.load .clocks).toOption.any (fun p =>
      p.invocations.countP (fun i => i.method = g.settings.factoryMethod) = 2 ∧
      p.assemblyAttributes.countP (fun a => a.className = g.settings.markerName) = 2 ∧
      g.discover p = .ok
        { ofInstances := [⟨p.size - 1, .ofInstance, {}⟩]
          ofStatics := [⟨p.size - 1, .ofStatics, {}⟩] } ∧
      (p.validate g.settings "model.json").warnings = []) = true := by decide +kernel
  cases hp : g.load .clocks with
  | error e =>
    rw [hp] at hload
    cases hload
  | ok p =>
    rw [hp] at hload
    exact ⟨g, p, rfl, hp, of_decide_eq_true hload⟩

end Generator

end EventWrap
