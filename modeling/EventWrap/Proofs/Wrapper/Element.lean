import EventWrap.Proofs.Program.Applied
import EventWrap.Wrapper.Property

/-!
# Elements of observables

The element type of an observable is the type of what its handlers forward: the unit for nothing,
the last parameter's type for this parameter, a tuple for all parameters. How many parameters there
are, and whether the first of two is an object, decides which shape a signature has. Collapsing
plain `EventArgs` never changes the shape, and changes what is conveyed where a sender comes with
`EventArgs` itself and nowhere else.
-/

namespace EventWrap

open Code

/-! ## What is conveyed -/

/-- The element type for some parameters is that of what is forwarded of them. -/
inductive Conveys (parameters : List Parameter) : Element → Forwarding → Prop
  | unit : Conveys parameters .unit .unit
  | parameter (i : Fin parameters.length) (last : i.val + 1 = parameters.length) :
      Conveys parameters (.type parameters[i].type) (.parameter parameters[i].name)
  | tuple (several : 2 ≤ parameters.length) :
      Conveys parameters (.tuple parameters) (.tuple (parameters.map (·.name)))

theorem Conveys.element_eq_unit_iff {parameters : List Parameter} {element : Element}
    {forwarding : Forwarding} (h : Conveys parameters element forwarding) :
    element = .unit ↔ forwarding = .unit := by
  cases h with
  | unit => exact iff_of_true rfl rfl
  | parameter => exact iff_of_false nofun nofun
  | tuple => exact iff_of_false nofun nofun

/-- A type as written is that of an expression in a handler that takes some formal parameters. -/
inductive HasWrittenType (names : ReactiveNames) (formals : List Formal) : Expr → String → Prop
  | unit : HasWrittenType names formals (.name names.unitDefault) names.unit
  | formal {f : Formal} (taken : f ∈ formals) : HasWrittenType names formals (.name f.name) f.type
  | tuple (several : 2 ≤ formals.length) :
      HasWrittenType names formals (.tuple (formals.map fun f => .name f.name))
        ("(" ++ ", ".intercalate (formals.map fun f => f.type ++ " " ++ f.name) ++ ")")

theorem mem_toList_intercalate {c : Char} {text : String} {texts : List String}
    (separator : String) (htext : text ∈ texts) (hc : c ∈ text.toList) : c ∈ (separator.intercalate texts).toList := by
  induction texts with
  | nil => cases htext
  | cons first rest ih =>
    cases rest with
    | nil =>
      rw [List.mem_singleton] at htext
      rwa [String.intercalate_singleton, ← htext]
    | cons next others =>
      rw [String.intercalate_cons_cons, String.toList_append, List.mem_append]
      rcases List.mem_cons.1 htext with rfl | htext
      · exact .inl (by simp [hc])
      · exact .inr (ih htext)

namespace Program

variable (p : Program)

/-- A type is `object`, or nullable `object`. -/
inductive IsObject : TypeRef → Prop
  | named {id : TypeId} {arguments : List TypeRef}
      (object : (p.declaration id).builtIn = some .object) : IsObject (.named id arguments)
  | nullable {id : TypeId} {arguments : List TypeRef}
      (object : (p.declaration id).builtIn = some .object) :
      IsObject (.nullable (.named id arguments))

/-- There are two parameters, the first of them an object. -/
def HasSender (parameters : List Parameter) : Prop :=
  ∃ sender argument, parameters = [sender, argument] ∧ p.IsObject sender.type

/-- The shape that the number of parameters and the type of the first of two dictate. -/
def HasShape (parameters : List Parameter) : ArgumentShape → Prop
  | .empty => parameters.length = 0
  | .single => parameters.length = 1
  | .senderAndArgument => p.HasSender parameters
  | .multiple => 2 ≤ parameters.length ∧ ¬ p.HasSender parameters

/-- A sender and `System.EventArgs` itself, which is not generic and is not marked nullable. -/
def IsPlainNotice (parameters : List Parameter) : Prop :=
  ∃ sender argument id, parameters = [sender, argument] ∧ p.IsObject sender.type ∧
    argument.type = .named id [] ∧ (p.declaration id).isGeneric = false ∧
    p.metadataName id = "System.EventArgs"

variable {p : Program}

/-! ## Senders and plain arguments -/

theorem isSender_iff {q : Parameter} : p.isSender q = true ↔ p.IsObject q.type := by
  obtain ⟨name, type⟩ := q
  constructor
  · intro h
    rcases type with ⟨id, arguments⟩ | _ | _ | ⟨id, arguments⟩ | _ | _ | _
    · exact .named (beq_iff_eq.1 h)
    · cases h
    · cases h
    · exact .nullable (beq_iff_eq.1 h)
    · cases h
    · cases h
    · cases h
  · intro h
    cases h with
    | named object => exact beq_iff_eq.2 object
    | nullable object => exact beq_iff_eq.2 object

/-- The metadata name of a generic type tells its arity behind a backtick. -/
theorem mem_toList_metadataName {id : TypeId} (h : (p.declaration id).isGeneric = true) :
    '`' ∈ (p.metadataName id).toList := by
  have hlevel : (p.declaration id).simpleName ∈ (p.nesting id).map (·.simpleName) := by
    rw [nesting_eq_dropLast_append, List.map_append]
    exact List.mem_append_right _ List.mem_cons_self
  have hmark : '`' ∈ (p.declaration id).simpleName.toList := by
    simp [Declaration.simpleName, h]
  have hpath := mem_toList_intercalate "+" hlevel hmark
  rw [metadataName, Nesting.metadataName, qualify]
  split
  · exact hpath
  · rw [String.toList_append]
    exact List.mem_append_right _ hpath

theorem isPlainEventArgs_iff {r : TypeRef} : p.isPlainEventArgs r = true ↔
    ∃ id, r = .named id [] ∧ (p.declaration id).isGeneric = false ∧
      p.metadataName id = "System.EventArgs" := by
  constructor
  · intro h
    rcases r with ⟨id, _ | ⟨first, rest⟩⟩ | _ | _ | _
    · have hname : p.metadataName id = "System.EventArgs" := beq_iff_eq.1 h
      refine ⟨id, rfl, ?_, hname⟩
      by_contra hgeneric
      have hmark := mem_toList_metadataName (Bool.not_eq_false _ ▸ hgeneric)
      rw [hname] at hmark
      exact absurd hmark (by decide)
    all_goals cases h
  · rintro ⟨id, rfl, -, hname⟩
    exact beq_iff_eq.2 hname

/-! ## Classifications -/

/-- The ways in which parameters are classified. -/
inductive Classifies (p : Program) (collapse : Bool) (parameters : List Parameter) :
    Classification → Prop
  | empty (none : parameters = []) : Classifies p collapse parameters ⟨.empty, .unit, .unit⟩
  | single {q : Parameter} (one : parameters = [q]) :
      Classifies p collapse parameters ⟨.single, .type q.type, .parameter q.name⟩
  | collapsed (on : collapse = true) (plain : p.IsPlainNotice parameters) :
      Classifies p collapse parameters ⟨.senderAndArgument, .unit, .unit⟩
  | argument {sender argument : Parameter} (two : parameters = [sender, argument])
      (object : p.IsObject sender.type) (kept : ¬ (collapse = true ∧ p.IsPlainNotice parameters)) :
      Classifies p collapse parameters
        ⟨.senderAndArgument, .type argument.type, .parameter argument.name⟩
  | multiple (several : 2 ≤ parameters.length) (other : ¬ p.HasSender parameters) :
      Classifies p collapse parameters
        ⟨.multiple, .tuple parameters, .tuple (parameters.map (·.name))⟩

theorem HasSender.length_eq {parameters : List Parameter} (h : p.HasSender parameters) :
    parameters.length = 2 := by
  obtain ⟨sender, argument, rfl, -⟩ := h
  rfl

theorem hasSender_pair_iff {first second : Parameter} :
    p.HasSender [first, second] ↔ p.isSender first = true := by
  rw [isSender_iff]
  constructor
  · rintro ⟨sender, argument, hpair, object⟩
    cases hpair
    exact object
  · exact fun object => ⟨first, second, rfl, object⟩

theorem isPlainNotice_pair_iff {first second : Parameter} : p.IsPlainNotice [first, second] ↔
    p.isSender first = true ∧ p.isPlainEventArgs second.type = true := by
  rw [isSender_iff, isPlainEventArgs_iff]
  constructor
  · rintro ⟨sender, argument, id, hpair, object, hargument⟩
    cases hpair
    exact ⟨object, id, hargument⟩
  · rintro ⟨object, id, hargument⟩
    exact ⟨first, second, id, rfl, object, hargument⟩

theorem classifies_classify (p : Program) (s : Signature) (collapse : Bool) :
    p.Classifies collapse s.parameters (p.classify s collapse) := by
  rw [classify]
  rcases s.parameters with _ | ⟨first, _ | ⟨second, _ | ⟨third, rest⟩⟩⟩
  · exact .empty rfl
  · exact .single rfl
  · simp only
    split
    · next hsender =>
      split
      · next hcollapse =>
        rw [Bool.and_eq_true] at hcollapse
        exact .collapsed hcollapse.1 (isPlainNotice_pair_iff.2 ⟨hsender, hcollapse.2⟩)
      · next hkept =>
        rw [Bool.and_eq_true] at hkept
        refine .argument rfl (isSender_iff.1 hsender) fun hcollapse => hkept ?_
        exact ⟨hcollapse.1, (isPlainNotice_pair_iff.1 hcollapse.2).2⟩
    · next hother => exact .multiple (Nat.le_refl 2) fun h => hother (hasSender_pair_iff.1 h)
  · refine .multiple (by simp) fun h => ?_
    have hlength := h.length_eq
    simp at hlength

namespace Classifies

variable {collapse : Bool} {parameters : List Parameter} {c : Classification}

theorem hasShape (h : p.Classifies collapse parameters c) : p.HasShape parameters c.shape := by
  cases h with
  | empty none => exact List.length_eq_zero_iff.2 none
  | single one => exact List.length_eq_one_iff.2 ⟨_, one⟩
  | collapsed on plain =>
    obtain ⟨sender, argument, -, two, object, -⟩ := plain
    exact ⟨sender, argument, two, object⟩
  | argument two object => exact ⟨_, _, two, object⟩
  | multiple several other => exact ⟨several, other⟩

theorem conveys (h : p.Classifies collapse parameters c) :
    Conveys parameters c.element c.forwarding := by
  cases h with
  | empty none => exact .unit
  | @single q one =>
    subst one
    exact .parameter (⟨0, by simp⟩ : Fin [q].length) rfl
  | collapsed on plain => exact .unit
  | @argument sender argument two =>
    subst two
    exact .parameter (⟨1, by simp⟩ : Fin [sender, argument].length) rfl
  | multiple several => exact .tuple several

/-- Nothing is conveyed of no parameters, and of a plain notice that is collapsed. -/
theorem element_eq_unit_iff (h : p.Classifies collapse parameters c) :
    c.element = .unit ↔ parameters = [] ∨ collapse = true ∧ p.IsPlainNotice parameters := by
  cases h with
  | empty none => exact iff_of_true rfl (.inl none)
  | single one => exact iff_of_false nofun (by simp [one, IsPlainNotice])
  | collapsed on plain => exact iff_of_true rfl (.inr ⟨on, plain⟩)
  | argument two _ kept =>
    refine iff_of_false nofun ?_
    rintro (none | collapsed)
    · simp [none] at two
    · exact kept collapsed
  | multiple several other =>
    refine iff_of_false nofun ?_
    rintro (none | ⟨-, sender, argument, -, two, object, -⟩)
    · simp [none] at several
    · exact other ⟨sender, argument, two, object⟩

end Classifies

theorem HasShape.unique {parameters : List Parameter} {shape shape' : ArgumentShape}
    (h : p.HasShape parameters shape) (h' : p.HasShape parameters shape') : shape = shape' := by
  have hsender : p.HasSender parameters → parameters.length = 2 := HasSender.length_eq
  cases shape <;> cases shape' <;> simp only [HasShape] at h h' <;> grind

/-- What is conveyed has the same type as written in a handler for the same parameters. -/
theorem hasWrittenType_forwardedValue {s : Signature} {element : Element} {forwarding : Forwarding}
    (h : Conveys s.parameters element forwarding) (names : ReactiveNames) :
    HasWrittenType names (p.handlerFormals s) (forwardedValue names forwarding)
      (p.elementText names element) := by
  cases h with
  | unit => exact .unit
  | parameter i =>
    let q := s.parameters[i]
    have hmem : Formal.mk false (p.typeText q.type) (escape q.name) ∈ p.handlerFormals s :=
      List.mem_map.2 ⟨q, List.getElem_mem i.isLt, rfl⟩
    exact .formal hmem
  | tuple several =>
    have hseveral : 2 ≤ (p.handlerFormals s).length := by rwa [handlerFormals, List.length_map]
    have htuple : HasWrittenType names (p.handlerFormals s) _ _ := .tuple hseveral
    simpa [handlerFormals, forwardedValue, elementText, Function.comp_def] using htuple

/-- Only a plain notice is classified in two ways. -/
theorem classify_collapse {s : Signature} (h : ¬ p.IsPlainNotice s.parameters) :
    p.classify s true = p.classify s false := by
  rw [classify, classify]
  rcases hparameters : s.parameters with _ | ⟨first, _ | ⟨second, _ | ⟨third, rest⟩⟩⟩
  · rfl
  · rfl
  · rw [hparameters, isPlainNotice_pair_iff] at h
    cases hsender : p.isSender first with
    | false => simp [hsender]
    | true =>
      have hother : p.isPlainEventArgs second.type = false := by simpa [hsender] using h
      simp [hsender, hother]
  · rfl

/-- A plain notice conveys nothing exactly where it is collapsed. -/
theorem classify_of_isPlainNotice {s : Signature} (h : p.IsPlainNotice s.parameters)
    (collapse : Bool) : ((p.classify s collapse).element = .unit ↔ collapse = true) ∧
      ((p.classify s collapse).forwarding = .unit ↔ collapse = true) := by
  have hclassifies := p.classifies_classify s collapse
  have hsome : s.parameters ≠ [] := by
    obtain ⟨sender, argument, -, two, -⟩ := h
    simp [two]
  have helement : (p.classify s collapse).element = .unit ↔ collapse = true := by
    rw [hclassifies.element_eq_unit_iff]
    simp [hsome, h]
  exact ⟨helement, by rw [← hclassifies.conveys.element_eq_unit_iff, helement]⟩

/-- What tells a collapsed plain notice from one that is kept changes for plain notices only. -/
theorem collapse_changes_iff {α : Type} {s : Signature} {unit : α} (view : Classification → α)
    (hunit : p.IsPlainNotice s.parameters →
      ∀ collapse, view (p.classify s collapse) = unit ↔ collapse = true) :
    view (p.classify s true) ≠ view (p.classify s false) ↔ p.IsPlainNotice s.parameters := by
  constructor
  · intro hne
    by_contra hother
    exact hne (congrArg view (classify_collapse hother))
  · intro plain heq
    have hcollapsed : view (p.classify s true) = unit := (hunit plain true).2 rfl
    have hkept := (hunit plain false).1 (heq ▸ hcollapsed)
    exact absurd hkept Bool.false_ne_true

/-- For every signature the element type is the type of what is forwarded, as a reference and as
written in the handler, and nothing is conveyed only of no parameters and of a collapsed plain
notice. The shape is the one that the parameters dictate, whether or not plain arguments are
collapsed. Element and forwarding depend on it exactly for a sender with `System.EventArgs`. -/
theorem classify_coherent (p : Program) (s : Signature) :
    (∀ collapse,
      Conveys s.parameters (p.classify s collapse).element (p.classify s collapse).forwarding ∧
      (∀ names, HasWrittenType names (p.handlerFormals s)
        (forwardedValue names (p.classify s collapse).forwarding)
        (p.elementText names (p.classify s collapse).element)) ∧
      ((p.classify s collapse).element = .unit ↔
        s.parameters = [] ∨ collapse = true ∧ p.IsPlainNotice s.parameters) ∧
      ∀ shape, (p.classify s collapse).shape = shape ↔ p.HasShape s.parameters shape) ∧
    (p.classify s true).shape = (p.classify s false).shape ∧
    ((p.classify s true).element ≠ (p.classify s false).element ↔
      p.IsPlainNotice s.parameters) ∧
    ((p.classify s true).forwarding ≠ (p.classify s false).forwarding ↔
      p.IsPlainNotice s.parameters) := by
  have hon := p.classifies_classify s true
  have hoff := p.classifies_classify s false
  refine ⟨fun collapse => ?_, hon.hasShape.unique hoff.hasShape, ?_, ?_⟩
  · have h := p.classifies_classify s collapse
    refine ⟨h.conveys, hasWrittenType_forwardedValue h.conveys, h.element_eq_unit_iff, ?_⟩
    exact fun shape => ⟨fun heq => heq ▸ h.hasShape, h.hasShape.unique⟩
  · exact collapse_changes_iff (·.element) fun plain collapse =>
      (classify_of_isPlainNotice plain collapse).1
  · exact collapse_changes_iff (·.forwarding) fun plain collapse =>
      (classify_of_isPlainNotice plain collapse).2

end Program

end EventWrap
