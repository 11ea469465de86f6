import EventWrap.Proofs.Wrapper.Listed

/-!
# Hiding of events

A name stands for its first declaration: the first of this name in the first type that has one, from
the type itself upward. What is collected for a type tells of every name whose first declaration is
eligible, and of no other. So a declaration that is not eligible hides all later ones of its name.
-/

namespace EventWrap

namespace Occurrence

variable {α β κ : Type} [DecidableEq κ] {key : β → κ} {seen : List κ} {a b : β}

/-- First occurrences are the entries before which nothing has their key. -/
theorem mem_firsts_iff_append {l : List β} : b ∈ firsts key seen l ↔
    key b ∉ seen ∧ ∃ before after, l = before ++ b :: after ∧ ∀ a ∈ before, key a ≠ key b := by
  induction l generalizing seen with
  | nil => simp
  | cons a rest ih =>
    rw [firsts]
    constructor
    · intro hb
      split at hb
      · next hmet =>
        obtain ⟨hseen, before, after, rfl, hbefore⟩ := ih.1 hb
        refine ⟨hseen, a :: before, after, rfl, List.forall_mem_cons.2 ⟨?_, hbefore⟩⟩
        exact fun heq => hseen (heq ▸ hmet)
      · next hmet =>
        rcases List.mem_cons.1 hb with rfl | hb
        · exact ⟨hmet, [], rest, rfl, List.forall_mem_nil _⟩
        · obtain ⟨hseen, before, after, rfl, hbefore⟩ := ih.1 hb
          rw [List.mem_cons, not_or] at hseen
          exact ⟨hseen.2, a :: before, after, rfl,
            List.forall_mem_cons.2 ⟨Ne.symm hseen.1, hbefore⟩⟩
    · rintro ⟨hseen, before, after, hsplit, hbefore⟩
      cases before with
      | nil =>
        obtain ⟨rfl, rfl⟩ := List.cons.inj hsplit
        rw [if_neg hseen]
        exact List.mem_cons_self
      | cons c before =>
        obtain ⟨rfl, rfl⟩ := List.cons.inj hsplit
        obtain ⟨hne, hbefore⟩ := List.forall_mem_cons.1 hbefore
        split
        · exact ih.2 ⟨hseen, before, after, rfl, hbefore⟩
        · refine List.mem_cons_of_mem _ (ih.2 ⟨?_, before, after, rfl, hbefore⟩)
          rw [List.mem_cons, not_or]
          exact ⟨hne.symm, hseen⟩

/-- In a list of blocks, the first occurrence of a key is the one in the first block that has it. -/
theorem mem_firsts_flatMap {blocks : List α} {f : α → List β} :
    b ∈ firsts key seen (blocks.flatMap f) ↔ ∃ before block after,
      blocks = before ++ block :: after ∧ (∀ x ∈ before, ∀ a ∈ f x, key a ≠ key b) ∧
        b ∈ firsts key seen (f block) := by
  induction blocks generalizing seen with
  | nil => simp
  | cons x rest ih =>
    rw [List.flatMap_cons, firsts_append, List.mem_append, ih]
    constructor
    · rintro (hb | ⟨before, block, after, rfl, hbefore, hb⟩)
      · exact ⟨[], x, rest, rfl, List.forall_mem_nil _, hb⟩
      · have hseen := (mem_firsts_iff_append.1 hb).1
        rw [List.mem_append, not_or] at hseen
        refine ⟨x :: before, block, after, rfl, List.forall_mem_cons.2 ⟨?_, hbefore⟩, ?_⟩
        · exact fun a ha heq => hseen.1 (heq ▸ List.mem_map_of_mem ha)
        · exact mem_firsts_iff_append.2 ⟨hseen.2, (mem_firsts_iff_append.1 hb).2⟩
    · rintro ⟨before, block, after, hsplit, hbefore, hb⟩
      cases before with
      | nil =>
        obtain ⟨rfl, rfl⟩ := List.cons.inj hsplit
        exact .inl hb
      | cons c before =>
        obtain ⟨rfl, rfl⟩ := List.cons.inj hsplit
        obtain ⟨hx, hbefore⟩ := List.forall_mem_cons.1 hbefore
        obtain ⟨hseen, hfirst⟩ := mem_firsts_iff_append.1 hb
        refine .inr ⟨before, block, after, rfl, hbefore, mem_firsts_iff_append.2 ⟨?_, hfirst⟩⟩
        rw [List.mem_append, not_or]
        refine ⟨fun hmet => ?_, hseen⟩
        obtain ⟨a, ha, heq⟩ := List.mem_map.1 hmet
        exact hx a ha heq

end Occurrence

namespace Program

variable {p : Program} {t : TypeId} {inherited isStatic : Bool}

/-! ## Eligible events -/

/-- The return types that are nothing, a task or a value task. -/
inductive Completes (p : Program) : TypeRef → ReturnKind → Prop
  | void {id : TypeId} {arguments : List TypeRef}
      (nothing : (p.declaration id).builtIn = some .void) : Completes p (.named id arguments) .void
  | task {id : TypeId} (something : (p.declaration id).builtIn ≠ some .void)
      (name : p.metadataName id = CoreLibrary.taskName) : Completes p (.named id []) .task
  | valueTask {id : TypeId} (something : (p.declaration id).builtIn ≠ some .void)
      (name : p.metadataName id = CoreLibrary.valueTaskName) : Completes p (.named id []) .valueTask

/-- The delegate of an event as it is seen with the arguments of the type that declares it. -/
def delegateSeen (p : Program) (type : Constructed) (e : EventDeclaration) : TypeRef :=
  e.delegate.substitute (p.declaration type.1).parameterNames type.2

/-- An event is eligible as it is seen: it is public, has the staticness asked for, and its delegate
has an invoke signature whose return type is not constructed and is nothing, a task or a value
task. -/
structure EligibleAs (p : Program) (isStatic : Bool) (type : Constructed) (e : EventDeclaration)
    (signature : Signature) (kind : ReturnKind) : Prop where
  accessibility : e.accessibility = .everyone
  staticness : e.isStatic = isStatic
  invoked : p.signature? (p.delegateSeen type e) = some signature
  unconstructed : signature.result.isConstructed = false
  completes : p.Completes signature.result kind

def Eligible (p : Program) (isStatic : Bool) (type : Constructed) (e : EventDeclaration) : Prop :=
  ∃ signature kind, p.EligibleAs isStatic type e signature kind

theorem isBuiltIn_named {id : TypeId} {arguments : List TypeRef} {b : BuiltIn} :
    p.isBuiltIn (.named id arguments) b = true ↔ (p.declaration id).builtIn = some b :=
  beq_iff_eq

theorem returnKind?_eq_some_iff {result : TypeRef} {kind : ReturnKind} :
    p.returnKind? result = some kind ↔ p.Completes result kind := by
  have hnames : CoreLibrary.valueTaskName ≠ CoreLibrary.taskName := by decide
  constructor
  · intro hkind
    unfold returnKind? at hkind
    split at hkind
    · next hvoid =>
      cases hkind
      cases result with
      | named id arguments => exact .void (isBuiltIn_named.1 hvoid)
      | parameter | array | nullable => cases hvoid
    · next hvoid =>
      split at hkind
      · next id =>
        have hsomething : (p.declaration id).builtIn ≠ some .void := fun h =>
          hvoid (isBuiltIn_named.2 h)
        dsimp only at hkind
        split at hkind
        · next hname =>
          cases hkind
          exact .task hsomething hname
        · split at hkind
          · next hname =>
            cases hkind
            exact .valueTask hsomething hname
          · cases hkind
      · cases hkind
  · unfold returnKind?
    rintro (hnothing | ⟨hsomething, hname⟩ | ⟨hsomething, hname⟩)
    · rw [if_pos (isBuiltIn_named.2 hnothing)]
    · rw [if_neg (fun h => hsomething (isBuiltIn_named.1 h))]
      simp only [hname, ↓reduceIte]
    · rw [if_neg (fun h => hsomething (isBuiltIn_named.1 h))]
      simp only [hname, if_neg hnames, ↓reduceIte]

/-- A descriptor tells of an event that is eligible as it is seen. -/
structure Describes (p : Program) (isStatic : Bool) (type : Constructed) (e : EventDeclaration)
    (descriptor : EventDescriptor) : Prop where
  eligible : p.EligibleAs isStatic type e descriptor.signature descriptor.returnKind
  name : descriptor.name = e.name
  declaringType : descriptor.declaringType = type.1
  delegate : descriptor.delegate = p.delegateSeen type e
  staticness : descriptor.isStatic = e.isStatic
  obsolescence : descriptor.obsolescence = e.obsolescence?

theorem describe?_eq_some_iff {type : Constructed} {e : EventDeclaration}
    {descriptor : EventDescriptor} :
    p.describe? isStatic type.1 e (p.delegateSeen type e) = some descriptor ↔
      p.Describes isStatic type e descriptor := by
  have hcandidate : isCandidate isStatic e = true ↔
      e.accessibility = .everyone ∧ e.isStatic = isStatic := by
    simp [isCandidate]
  constructor
  · intro h
    have hevent := eq_of_describe? h
    unfold describe? at h
    split at h
    · next hpublic =>
      obtain ⟨haccessibility, hstatic⟩ := hcandidate.1 hpublic
      obtain ⟨signature, kind, hsignature, hkind, rfl⟩ := hevent
      obtain ⟨signature', hsignature', h⟩ := Option.bind_eq_some_iff.1 h
      obtain rfl := Option.some.inj (hsignature'.symm.trans hsignature)
      split at h
      · cases h
      · next hplain =>
        exact ⟨⟨haccessibility, hstatic, hsignature, Bool.eq_false_iff.2 hplain,
          returnKind?_eq_some_iff.1 hkind⟩, rfl, rfl, rfl, rfl, rfl⟩
    · cases h
  · rintro ⟨⟨haccessibility, hstatic, hsignature, hplain, hkind⟩, hname, htype, hdelegate,
      hstatic', hobsolescence⟩
    rw [describe?, if_pos (hcandidate.2 ⟨haccessibility, hstatic⟩)]
    refine Option.bind_eq_some_iff.2 ⟨_, hsignature, ?_⟩
    rw [if_neg (by simp [hplain])]
    refine Option.bind_eq_some_iff.2 ⟨_, returnKind?_eq_some_iff.2 hkind, ?_⟩
    cases descriptor
    cases hname
    cases htype
    cases hdelegate
    cases hstatic'
    cases hobsolescence
    rfl

theorem eligible_iff_exists_describes {type : Constructed} {e : EventDeclaration} :
    p.Eligible isStatic type e ↔ ∃ descriptor, p.Describes isStatic type e descriptor := by
  constructor
  · rintro ⟨signature, kind, h⟩
    exact ⟨⟨e.name, type.1, p.delegateSeen type e, signature, kind, e.isStatic, e.obsolescence?⟩,
      h, rfl, rfl, rfl, rfl, rfl⟩
  · rintro ⟨descriptor, h⟩
    exact ⟨_, _, h.eligible⟩

/-- A type sees the delegates of its own events as they were written. -/
theorem delegateSeen_own (e : EventDeclaration) :
    p.delegateSeen (t, (p.declaration t).ownArguments) e = e.delegate :=
  Declaration.substitute_ownArguments _ _

/-! ## First declarations -/

/-- What a name stands for among some types: the first event of this name in the first type that
declares one. -/
structure FirstDeclared (p : Program) (types : List Constructed) (name : String)
    (type : Constructed) (e : EventDeclaration) : Prop where
  named : e.name = name
  among : ∃ before after, types = before ++ type :: after ∧
    ∀ nearer ∈ before, ∀ e' ∈ (p.declaration nearer.1).events, e'.name ≠ name
  within : ∃ before after, (p.declaration type.1).events = before ++ e :: after ∧
    ∀ e' ∈ before, e'.name ≠ name

/-- An event that is seen through a type. -/
def seenThrough (p : Program) (type : Constructed) (e : EventDeclaration) : SeenEvent :=
  ⟨type.1, e, p.delegateSeen type e⟩

theorem eventsSeen_eq_map (type : Constructed) :
    p.eventsSeen type = (p.declaration type.1).events.map (p.seenThrough type) := rfl

/-- The visible events are the first declarations. -/
theorem mem_visibleEvents_iff {x : SeenEvent} : x ∈ p.visibleEvents t inherited isStatic ↔
    ∃ type e, p.FirstDeclared (p.collectedTypes t inherited isStatic) x.event.name type e ∧
      x = p.seenThrough type e := by
  rw [visibleEvents, Occurrence.mem_firsts_flatMap]
  constructor
  · rintro ⟨before, type, after, hsplit, hbefore, hx⟩
    rw [eventsSeen_eq_map, Occurrence.firsts_map] at hx
    obtain ⟨e, he, rfl⟩ := List.mem_map.1 hx
    obtain ⟨-, hwithin⟩ := Occurrence.mem_firsts_iff_append.1 he
    refine ⟨type, e, ⟨rfl, ⟨before, after, hsplit, fun nearer hnearer e' he' => ?_⟩, hwithin⟩, rfl⟩
    exact hbefore nearer hnearer _ (List.mem_map_of_mem he')
  · rintro ⟨type, e, ⟨-, ⟨before, after, hsplit, hbefore⟩, hwithin⟩, rfl⟩
    refine ⟨before, type, after, hsplit, fun nearer hnearer a ha => ?_, ?_⟩
    · obtain ⟨e', he', rfl⟩ := List.mem_map.1 ha
      exact hbefore nearer hnearer e' he'
    · rw [eventsSeen_eq_map, Occurrence.firsts_map]
      exact List.mem_map_of_mem (Occurrence.mem_firsts_iff_append.2 ⟨List.not_mem_nil, hwithin⟩)

/-- The collected descriptors are those of first declarations. -/
theorem mem_collect_iff {descriptor : EventDescriptor} :
    descriptor ∈ (p.collect t inherited isStatic).events ↔ ∃ type e,
      p.FirstDeclared (p.collectedTypes t inherited isStatic) descriptor.name type e ∧
        p.Describes isStatic type e descriptor := by
  rw [collect, mem_sortedBy, List.mem_filterMap]
  constructor
  · rintro ⟨x, hx, hdescribed⟩
    obtain ⟨type, e, hfirst, rfl⟩ := mem_visibleEvents_iff.1 hx
    have hdescribes := describe?_eq_some_iff.1 hdescribed
    rw [hdescribes.name]
    exact ⟨type, e, hfirst, hdescribes⟩
  · rintro ⟨type, e, hfirst, hdescribes⟩
    rw [hdescribes.name] at hfirst
    exact ⟨p.seenThrough type e, mem_visibleEvents_iff.2 ⟨type, e, hfirst, rfl⟩,
      describe?_eq_some_iff.2 hdescribes⟩

theorem mem_names_collect_iff {name : String} :
    name ∈ (p.collect t inherited isStatic).names ↔ ∃ type e,
      p.FirstDeclared (p.collectedTypes t inherited isStatic) name type e ∧
        p.Eligible isStatic type e := by
  constructor
  · intro hname
    obtain ⟨descriptor, hdescriptor, rfl⟩ := List.mem_map.1 hname
    obtain ⟨type, e, hfirst, hdescribes⟩ := mem_collect_iff.1 hdescriptor
    exact ⟨type, e, hfirst, eligible_iff_exists_describes.2 ⟨descriptor, hdescribes⟩⟩
  · rintro ⟨type, e, hfirst, heligible⟩
    obtain ⟨descriptor, hdescribes⟩ := eligible_iff_exists_describes.1 heligible
    have hname : descriptor.name = name := hdescribes.name.trans hfirst.named
    refine List.mem_map.2 ⟨descriptor, mem_collect_iff.2 ⟨type, e, ?_, hdescribes⟩, hname⟩
    rwa [hname]

/-- A name stands for one declaration. -/
theorem FirstDeclared.unique {types : List Constructed} {name : String} {type type' : Constructed}
    {e e' : EventDeclaration} (h : p.FirstDeclared types name type e)
    (h' : p.FirstDeclared types name type' e') : type = type' ∧ e = e' := by
  let declares (nearer : Constructed) : Bool :=
    (p.declaration nearer.1).events.any (·.name = name)
  have hdeclares {type : Constructed} {e : EventDeclaration}
      (h : p.FirstDeclared types name type e) : types.find? declares = some type := by
    obtain ⟨before, after, hsplit, hbefore⟩ := h.among
    obtain ⟨_, _, hevents, -⟩ := h.within
    refine List.find?_eq_some_iff_append.2 ⟨?_, before, after, hsplit, fun nearer hnearer => ?_⟩
    · refine List.any_eq_true.2 ⟨e, ?_, decide_eq_true h.named⟩
      rw [hevents]
      exact List.mem_append_right _ List.mem_cons_self
    · rw [Bool.not_eq_true', List.any_eq_false]
      exact fun e' he' => by simpa using hbefore nearer hnearer e' he'
  obtain rfl := Option.some.inj ((hdeclares h).symm.trans (hdeclares h'))
  have hfirst {e : EventDeclaration} (h : p.FirstDeclared types name type e) :
      (p.declaration type.1).events.find? (·.name = name) = some e := by
    obtain ⟨before, after, hsplit, hbefore⟩ := h.within
    exact List.find?_eq_some_iff_append.2 ⟨decide_eq_true h.named, before, after, hsplit,
      fun e' he' => by simpa using hbefore e' he'⟩
  exact ⟨rfl, Option.some.inj ((hfirst h).symm.trans (hfirst h'))⟩

/-- What is collected of the types that are asked for is sorted strictly by name. A name is among it
exactly when its first declaration is eligible, with the descriptor of this declaration; one that is
not eligible hides whatever has its name after it. -/
theorem collect_exact (p : Program) (t : TypeId) (inherited isStatic : Bool) :
    let types : List Constructed := (t, (p.declaration t).ownArguments) ::
      if inherited then p.ancestorsWithEvents t isStatic else []
    let collected := p.collect t inherited isStatic
    (collected.events.Pairwise fun a b => a.name < b.name) ∧
    (∀ name, name ∈ collected.names ↔
      ∃ type e, p.FirstDeclared types name type e ∧ p.Eligible isStatic type e) ∧
    ∀ name type e, p.FirstDeclared types name type e →
      (∀ descriptor, descriptor ∈ collected.events ∧ descriptor.name = name ↔
        p.Describes isStatic type e descriptor) ∧
      (¬p.Eligible isStatic type e → name ∉ collected.names) := by
  intro types collected
  refine ⟨p.collect_sorted t isStatic inherited, fun name => mem_names_collect_iff,
    fun name type e hfirst => ⟨?_, ?_⟩⟩
  · intro descriptor
    constructor
    · rintro ⟨hdescriptor, rfl⟩
      obtain ⟨type', e', hfirst', hdescribes⟩ := mem_collect_iff.1 hdescriptor
      obtain ⟨rfl, rfl⟩ := hfirst.unique hfirst'
      exact hdescribes
    · intro hdescribes
      have hname : descriptor.name = name := hdescribes.name.trans hfirst.named
      exact ⟨mem_collect_iff.2 ⟨type, e, hname ▸ hfirst, hdescribes⟩, hname⟩
  · intro hhidden hname
    obtain ⟨type', e', hfirst', heligible⟩ := mem_names_collect_iff.1 hname
    obtain ⟨rfl, rfl⟩ := hfirst.unique hfirst'
    exact hhidden heligible

/-! ## Types with eligible events -/

/-- Of the events that a type declares under one name it offers the first, where this one is
eligible as the type itself sees it. -/
structure Offers (p : Program) (isStatic : Bool) (t : TypeId) (e : EventDeclaration) : Prop where
  first : ∃ before after, (p.declaration t).events = before ++ e :: after ∧
    ∀ e' ∈ before, e'.name ≠ e.name
  eligible : p.Eligible isStatic (t, (p.declaration t).ownArguments) e

theorem hasEligibleEvents_iff_offers :
    p.hasEligibleEvents t isStatic = true ↔ ∃ e, p.Offers isStatic t e := by
  have hdescribed (e : EventDeclaration) : (p.describe? isStatic t e e.delegate).isSome = true ↔
      p.Eligible isStatic (t, (p.declaration t).ownArguments) e := by
    rw [eligible_iff_exists_describes, Option.isSome_iff_exists]
    simp only [← describe?_eq_some_iff, delegateSeen_own]
  rw [hasEligibleEvents, List.any_eq_true]
  constructor
  · rintro ⟨e, he, hsome⟩
    obtain ⟨-, hfirst⟩ := Occurrence.mem_firsts_iff_append.1 he
    exact ⟨e, hfirst, (hdescribed e).1 hsome⟩
  · rintro ⟨e, hfirst, heligible⟩
    exact ⟨e, Occurrence.mem_firsts_iff_append.2 ⟨List.not_mem_nil, hfirst⟩,
      (hdescribed e).2 heligible⟩

/-- The quick test for eligible events succeeds exactly where something is collected from the type
alone, and both are so exactly where the type offers an event. -/
theorem hasEligibleEvents_iff_collected (p : Program) (t : TypeId) (isStatic : Bool) :
    (p.hasEligibleEvents t isStatic = true ↔ (p.collect t false isStatic).events ≠ []) ∧
    (p.hasEligibleEvents t isStatic = true ↔ ∃ e, p.Offers isStatic t e) := by
  refine ⟨?_, hasEligibleEvents_iff_offers⟩
  have hempty := p.isEmpty_collect_own t isStatic
  rw [TypeEvents.isEmpty] at hempty
  rw [Ne, ← List.isEmpty_iff, hempty, Bool.not_eq_true', Bool.not_eq_false]

end Program

end EventWrap
