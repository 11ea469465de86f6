import EventWrap.Proofs.Document.Completing
import EventWrap.Proofs.Document.Foundation
import EventWrap.Proofs.Renaming.Mentions

/-!
# Histories of a program

A program grows by operations, each of which may fail: a declaration is added, a document is
loaded, the triggers are declared, an invocation or an attribute is added. Whatever has happened to
it, the index of a program is the inverse of its arena, what it holds mentions its own places only,
and no operation changes what was there before, even where it fails midway.
-/

namespace EventWrap

namespace Program

/-! ## Sound programs -/

/-- The index is exact, and declarations mention places of the program only. -/
structure Sound (p : Program) : Prop where
  indexed : p.Indexed
  inRange : ∀ id < p.size, ∀ place ∈ (p.declaration id).mentions, place < p.size

/-- A program holds all that another one holds, at the same places and under the same names. -/
structure Extends (p q : Program) : Prop where
  size : p.size ≤ q.size
  declaration : ∀ id < p.size, q.declaration id = p.declaration id
  metadataName : ∀ id < p.size, q.metadataName id = p.metadataName id
  resolve? : ∀ {name id}, p.resolve? name = some id → q.resolve? name = some id
  invocations : p.invocations <+: q.invocations
  assemblyAttributes : p.assemblyAttributes <+: q.assemblyAttributes

namespace Extends

variable {p q r : Program}

theorem refl (p : Program) : p.Extends p where
  size := Nat.le_refl _
  declaration _ _ := rfl
  metadataName _ _ := rfl
  resolve? h := h
  invocations := List.prefix_refl _
  assemblyAttributes := List.prefix_refl _

theorem trans (h : p.Extends q) (h' : q.Extends r) : p.Extends r where
  size := Nat.le_trans h.size h'.size
  declaration id hid :=
    (h'.declaration id (Nat.lt_of_lt_of_le hid h.size)).trans (h.declaration id hid)
  metadataName id hid :=
    (h'.metadataName id (Nat.lt_of_lt_of_le hid h.size)).trans (h.metadataName id hid)
  resolve? hres := h'.resolve? (h.resolve? hres)
  invocations := h.invocations.trans h'.invocations
  assemblyAttributes := h.assemblyAttributes.trans h'.assemblyAttributes

end Extends

/-- A renaming of the places beyond a program does not concern what is resolved in it. -/
theorem Indexed.resolvesAlike_moveFrom {p : Program} (h : p.Indexed) :
    p.ResolvesAlike (moveFrom p.size) p where
  resolve? hres := by rw [moveFrom_of_lt (h.resolve?_iff.1 hres).1, hres]
  arity id := by
    by_cases hid : id < p.size
    · rw [moveFrom_of_lt hid]
    · have hle := Nat.le_of_not_lt hid
      rw [declaration_of_size_le hle, declaration_of_size_le (le_moveFrom hle)]

/-! ## A new declaration -/

section Push

variable {p : Program} {d : Declaration} (h : p.Sound) (hd : ∀ id ∈ d.mentions, id < p.size)

theorem container_lt (hd : ∀ id ∈ d.mentions, id < p.size) {outer : TypeId}
    (hc : d.container = some outer) : outer < p.size := by
  apply hd
  simp [Declaration.mentions, hc]

include h hd

theorem extends_push (hfresh : p.resolve? (p.nestingOf d).metadataName = none) :
    p.Extends (p.push d) where
  size := by
    rw [size_push]
    exact Nat.le_succ _
  declaration id hid := declaration_push_of_lt hid
  metadataName id hid := by
    rw [metadataName, h.indexed.nesting_push_of_lt (fun _ hc => container_lt hd hc) hid]
    rfl
  resolve? hres := resolve?_push_of_eq_some hres hfresh
  invocations := List.prefix_refl _
  assemblyAttributes := List.prefix_refl _

theorem Sound.push (hfresh : p.resolve? (p.nestingOf d).metadataName = none) :
    (p.push d).Sound where
  indexed := h.indexed.push (fun _ hc => container_lt hd hc) hfresh
  inRange id hid place hplace := by
    rw [size_push] at hid ⊢
    rcases Nat.lt_succ_iff_lt_or_eq.1 hid with hlt | rfl
    · rw [declaration_push_of_lt hlt] at hplace
      exact Nat.lt_succ_of_lt (h.inRange id hlt place hplace)
    · rw [declaration_push_self] at hplace
      exact Nat.lt_succ_of_lt (hd place hplace)

end Push

/-! ## Completed types -/

section Complete

open Document

variable {p : Program} {t : TypeEntry} {id : TypeId} {details : Details}

/-- Details of a type that are resolved in a program mention its places only. -/
theorem Sound.inRange_addTo (h : p.Sound) (hid : id < p.size)
    (hdetails : resolveDetails p id t = .ok details) :
    ∀ place ∈ (details.addTo (p.declaration id)).mentions, place < p.size := by
  have hscope : (p.typeParametersInScope (moveFrom p.size id)).map (·.name) =
      (p.typeParametersInScope id).map (·.name) := by
    rw [moveFrom_of_lt hid]
  have hrenamed := h.indexed.resolvesAlike_moveFrom.resolveDetails hscope hdetails
  rw [moveFrom_of_lt hid, hdetails] at hrenamed
  have hkept : details.rename (moveFrom p.size) = details := (Except.ok.inj hrenamed).symm
  have hcontainer : (p.declaration id).container.map (moveFrom p.size) =
      (p.declaration id).container := by
    cases hc : (p.declaration id).container with
    | none => rfl
    | some outer =>
      have houter := Nat.lt_trans (h.indexed.outerFirst id outer hc) hid
      rw [Option.map_some, moveFrom_of_lt houter]
  apply Declaration.mentions_lt
  calc (details.addTo (p.declaration id)).rename (moveFrom p.size)
    _ = (details.rename (moveFrom p.size)).addTo
        { p.declaration id with
          container := (p.declaration id).container.map (moveFrom p.size) } := rfl
    _ = details.addTo (p.declaration id) := by rw [hkept, hcontainer]

theorem Sound.inRange_resolveAttribute (h : p.Sound) {scope : List String} {context : String}
    {a : AttributeEntry} {x : Attribute} (hx : resolveAttribute p scope context a = .ok x) :
    ∀ place ∈ x.mentions, place < p.size := by
  have hrenamed := h.indexed.resolvesAlike_moveFrom.resolveAttribute a x hx
  rw [hx] at hrenamed
  exact Attribute.mentions_lt (Except.ok.inj hrenamed).symm

theorem Sound.inRange_resolveInvocation (h : p.Sound) {i : InvocationEntry} {x : Invocation}
    (hx : resolveInvocation p i = .ok x) : ∀ place ∈ x.mentions, place < p.size := by
  have hrenamed := h.indexed.resolvesAlike_moveFrom.resolveInvocation i x hx
  rw [hx] at hrenamed
  exact Invocation.mentions_lt (Except.ok.inj hrenamed).symm

end Complete

/-! ## Sound extensions -/

variable {p q : Program}

section Same

variable (h : p.Sound) (htypes : q.types = p.types) (hindex : q.index = p.index)

include htypes hindex

theorem sameOutlines_of_types : p.SameOutlines q where
  index := hindex
  size := congrArg Array.size htypes
  outline id := by rw [declaration, declaration, htypes]

include h

/-- A program with the same types and the same index. -/
theorem Sound.of_types : q.Sound where
  indexed := (sameOutlines_of_types htypes hindex).indexed h.indexed
  inRange id hid place hplace := by
    rw [size, htypes] at hid ⊢
    rw [declaration, htypes] at hplace
    exact h.inRange id hid place hplace

theorem extends_of_types (hinvocations : p.invocations <+: q.invocations)
    (hattributes : p.assemblyAttributes <+: q.assemblyAttributes) : p.Extends q where
  size := Nat.le_of_eq (congrArg Array.size htypes.symm)
  declaration id _ := by rw [declaration, declaration, htypes]
  metadataName id _ := (sameOutlines_of_types htypes hindex).metadataName h.indexed.outerFirst id
  resolve? hres := by rwa [Program.resolve?, hindex]
  invocations := hinvocations
  assemblyAttributes := hattributes

end Same

theorem extends_addInvocation (h : p.Sound) (i : Invocation) : p.Extends (p.addInvocation i) :=
  extends_of_types h rfl rfl (List.prefix_append _ _) (List.prefix_refl _)

theorem extends_addAssemblyAttribute (h : p.Sound) (a : Attribute) :
    p.Extends (p.addAssemblyAttribute a) :=
  extends_of_types h rfl rfl (List.prefix_refl _) (List.prefix_append _ _)

/-- A sound program that extends another one by invocations and attributes that mention its places
only. -/
structure SoundlyExtends (base p : Program) : Prop extends base.Extends p where
  sound : p.Sound
  newInvocations : ∀ i ∈ p.invocations,
    i ∈ base.invocations ∨ ∀ place ∈ i.mentions, place < p.size
  newAttributes : ∀ a ∈ p.assemblyAttributes,
    a ∈ base.assemblyAttributes ∨ ∀ place ∈ a.mentions, place < p.size

namespace SoundlyExtends

variable {base p q : Program}

theorem refl (h : p.Sound) : p.SoundlyExtends p where
  toExtends := .refl p
  sound := h
  newInvocations _ hi := .inl hi
  newAttributes _ ha := .inl ha

theorem trans (h : base.SoundlyExtends p) (h' : p.SoundlyExtends q) : base.SoundlyExtends q where
  toExtends := h.toExtends.trans h'.toExtends
  sound := h'.sound
  newInvocations i hi := by
    rcases h'.newInvocations i hi with hi | hrange
    · exact (h.newInvocations i hi).imp_right fun hrange place hplace =>
        Nat.lt_of_lt_of_le (hrange place hplace) h'.size
    · exact .inr hrange
  newAttributes a ha := by
    rcases h'.newAttributes a ha with ha | hrange
    · exact (h.newAttributes a ha).imp_right fun hrange place hplace =>
        Nat.lt_of_lt_of_le (hrange place hplace) h'.size
    · exact .inr hrange

theorem push {d : Declaration} (h : p.Sound) (hd : ∀ id ∈ d.mentions, id < p.size)
    (hfresh : p.resolve? (p.nestingOf d).metadataName = none) : p.SoundlyExtends (p.push d) where
  toExtends := extends_push h hd hfresh
  sound := h.push hd hfresh
  newInvocations _ hi := .inl hi
  newAttributes _ ha := .inl ha

theorem addInvocation {i : Invocation} (h : p.Sound) (hi : ∀ place ∈ i.mentions, place < p.size) :
    p.SoundlyExtends (p.addInvocation i) where
  toExtends := extends_addInvocation h i
  sound := h.of_types rfl rfl
  newInvocations j hj := (List.mem_append.1 hj).imp_right fun hj => by
    rw [List.mem_singleton.1 hj]
    exact hi
  newAttributes _ ha := .inl ha

theorem addAssemblyAttribute {a : Attribute} (h : p.Sound)
    (ha : ∀ place ∈ a.mentions, place < p.size) :
    p.SoundlyExtends (p.addAssemblyAttribute a) where
  toExtends := extends_addAssemblyAttribute h a
  sound := h.of_types rfl rfl
  newInvocations _ hi := .inl hi
  newAttributes b hb := (List.mem_append.1 hb).imp_right fun hb => by
    rw [List.mem_singleton.1 hb]
    exact ha

open Document in
/-- A type beyond the base is completed. -/
theorem update {t : TypeEntry} {id : TypeId} {details : Details} (h : base.SoundlyExtends p)
    (hbase : base.size ≤ id) (hid : id < p.size)
    (hsame : p.SameOutlines (p.update id details.addTo))
    (hdetails : resolveDetails p id t = .ok details) :
    base.SoundlyExtends (p.update id details.addTo) where
  size := Nat.le_trans h.size (Nat.le_of_eq hsame.size.symm)
  declaration other hother := by
    rw [declaration_update_of_ne _ (Nat.ne_of_lt (Nat.lt_of_lt_of_le hother hbase))]
    exact h.declaration other hother
  metadataName other hother := by
    rw [hsame.metadataName h.sound.indexed.outerFirst]
    exact h.metadataName other hother
  resolve? hres := by
    rw [hsame.resolve?]
    exact h.resolve? hres
  invocations := h.invocations
  assemblyAttributes := h.assemblyAttributes
  sound := by
    refine ⟨hsame.indexed h.sound.indexed, fun other hother place hplace => ?_⟩
    rw [hsame.size] at hother ⊢
    by_cases heq : other = id
    · rw [heq, declaration_update_self _ hid] at hplace
      exact h.sound.inRange_addTo hid hdetails place hplace
    · rw [declaration_update_of_ne _ heq] at hplace
      exact h.sound.inRange other hother place hplace
  newInvocations := hsame.size ▸ h.newInvocations
  newAttributes := hsame.size ▸ h.newAttributes

end SoundlyExtends

end Program

/-! ## Steps that may fail -/

namespace Loading

variable {α β : Type} {J : Program → Prop}

/-- The program that a step leaves, whether or not it fails. -/
def leaves (x : Loading α) (p : Program) : Program :=
  match x p with
  | .ok _ p' => p'
  | .error _ p' => p'

theorem leaves_ok {x : Loading α} {a : α} {p p' : Program} (hx : x p = .ok a p') :
    x.leaves p = p' := by
  rw [leaves, hx]

theorem leaves_error {x : Loading α} {e : LoadError} {p p' : Program} (hx : x p = .error e p') :
    x.leaves p = p' := by
  rw [leaves, hx]

theorem leaves_bind_ok {x : Loading α} {a : α} {p p' : Program} (f : α → Loading β)
    (hx : x p = .ok a p') : (x >>= f).leaves p = (f a).leaves p' := by
  simp only [leaves, Bind.bind, EStateM.bind, hx]

theorem leaves_bind_error {x : Loading α} {e : LoadError} {p p' : Program} (f : α → Loading β)
    (hx : x p = .error e p') : (x >>= f).leaves p = p' := by
  simp only [leaves, Bind.bind, EStateM.bind, hx]

theorem leaves_bind_pure (x : Loading α) (b : β) (p : Program) :
    (x >>= fun _ => pure b).leaves p = x.leaves p := by
  simp only [leaves, Bind.bind, EStateM.bind, pure, EStateM.pure]
  cases x p <;> rfl

/-- A step keeps a property of programs, even where it fails. -/
def Keeps (J : Program → Prop) (x : Loading α) : Prop := ∀ p, J p → J (x.leaves p)

theorem keeps_pure (a : α) : Keeps J (pure a : Loading α) := fun _ hp => hp

theorem Keeps.bind {x : Loading α} {f : α → Loading β} (hx : Keeps J x) (hf : ∀ a, Keeps J (f a)) :
    Keeps J (x >>= f) := by
  intro p hp
  have hfirst := hx p hp
  rcases hrun : x p with ⟨a, p'⟩ | ⟨e, p'⟩
  · rw [leaves_ok hrun] at hfirst
    rw [leaves_bind_ok f hrun]
    exact hf a p' hfirst
  · rw [leaves_error hrun] at hfirst
    rwa [leaves_bind_error f hrun]

theorem Keeps.mapM {f : α → Loading β} {l : List α} (hf : ∀ a ∈ l, Keeps J (f a)) :
    Keeps J (l.mapM f) := by
  induction l with
  | nil => exact keeps_pure _
  | cons a rest ih =>
    rw [List.mapM_cons]
    obtain ⟨hfirst, hrest⟩ := List.forall_mem_cons.1 hf
    exact hfirst.bind fun _ => (ih hrest).bind fun _ => keeps_pure _

theorem Keeps.forM {f : α → Loading PUnit} {l : List α} (hf : ∀ a ∈ l, Keeps J (f a)) :
    Keeps J (l.forM f) := by
  induction l with
  | nil => exact keeps_pure _
  | cons a rest ih =>
    obtain ⟨hfirst, hrest⟩ := List.forall_mem_cons.1 hf
    exact hfirst.bind fun _ => ih hrest

/-- A check in front of a step changes nothing where it fails. -/
theorem Keeps.checked {x : Loading α} (hx : Keeps J x) {c : Prop} [Decidable c] {e : LoadError} :
    Keeps J (do
      if c then throw e
      x) := by
  by_cases hc : c
  · simp only [if_pos hc]
    exact fun _ hp => hp
  · simp only [if_neg hc]
    exact hx

theorem keeps_ask (question : Program → Except LoadError α) : Keeps J (ask question) := by
  intro p hp
  rw [leaves, ask]
  cases question p <;> exact hp

/-- What is asked of a program is then worked into it. -/
theorem keeps_ask_modify {question : Program → Except LoadError β}
    {change : β → Program → Program}
    (h : ∀ p b, J p → question p = .ok b → J (change b p)) :
    Keeps J (do
      let b ← ask question
      modify (change b) : Loading Unit) := by
  intro p hp
  simp only [leaves, Bind.bind, EStateM.bind, ask]
  cases hquestion : question p with
  | error e => exact hp
  | ok b => exact h p b hp hquestion

/-! ## Operations that declare types -/

open Document

variable {base p : Program} {d : Declaration}

theorem leaves_add_cases (d : Declaration) (p : Program) : (add d).leaves p = p ∨
    p.resolve? (p.nestingOf d).metadataName = none ∧ (add d).leaves p = p.push d := by
  rw [leaves, add, Program.add, Program.contains]
  by_cases hfresh : (p.resolve? (p.nestingOf d).metadataName).isSome
  · rw [if_pos hfresh]
    exact .inl rfl
  · rw [if_neg hfresh]
    exact .inr ⟨Option.not_isSome_iff_eq_none.1 hfresh, rfl⟩

theorem soundlyExtends_add (h : p.Sound) (hd : ∀ id ∈ d.mentions, id < p.size) :
    p.SoundlyExtends ((add d).leaves p) := by
  rcases leaves_add_cases d p with hsame | ⟨hfresh, hpush⟩
  · rw [hsame]
    exact .refl h
  · rw [hpush]
    exact .push h hd hfresh

/-- Making sure of a type keeps what adding it under a new name keeps. -/
theorem keeps_ensure_of_push (name : String) (hpush : ∀ p, J p →
    p.resolve? (p.nestingOf d).metadataName = none → J (p.push d)) : Keeps J (ensure name d) := by
  intro p hp
  rw [leaves, ensure_run]
  cases p.resolve? name with
  | some id => exact hp
  | none =>
    change J ((add d).leaves p)
    rcases leaves_add_cases d p with hsame | ⟨hfresh, hadded⟩
    · rwa [hsame]
    · rw [hadded]
      exact hpush p hp hfresh

theorem keeps_ensure (name : String) (hd : d.mentions = []) :
    Keeps base.SoundlyExtends (ensure name d) := by
  refine keeps_ensure_of_push name fun p hp hfresh => hp.trans (.push hp.sound ?_ hfresh)
  intro id hid
  rw [hd] at hid
  cases hid

theorem keeps_installTriggers (s : Settings) :
    Keeps base.SoundlyExtends (installTriggers s) :=
  (keeps_ensure _ rfl).bind fun _ => (keeps_ensure _ rfl).bind fun _ => keeps_pure _

theorem eq_of_declareType_error {t : TypeEntry} {e : LoadError} {p' : Program}
    (hrun : declareType t p = .error e p') : p' = p := by
  rw [declareType_run] at hrun
  split at hrun
  · cases hrun
    rfl
  · split at hrun
    · cases hrun
      rfl
    · split at hrun
      · cases hrun
        rfl
      · split at hrun
        · cases hrun
        · cases hrun
          rfl

/-- A header mentions the type around it at most. -/
theorem mentions_header (t : TypeEntry) (container : Option TypeId) :
    (t.header container).mentions = container.toList := by
  simp [Declaration.mentions, TypeEntry.header, List.flatMap_map, TypeParameter.mentions]

/-- Declaring a type keeps what adding its header keeps. -/
theorem keeps_declareType_of_push {t : TypeEntry} (hindexed : ∀ p, J p → p.Indexed)
    (hpush : ∀ p, J p → t.FitsIn p → J (p.push (t.headerIn p))) : Keeps J (declareType t) := by
  intro p hp
  rcases hrun : declareType t p with ⟨id, p'⟩ | ⟨e, p'⟩
  · rw [leaves_ok hrun]
    obtain ⟨ht, -, rfl⟩ := (declareType_eq_ok_iff (hindexed p hp)).1 hrun
    exact hpush p hp ht
  · rw [leaves_error hrun, eq_of_declareType_error hrun]
    exact hp

theorem keeps_declareType (t : TypeEntry) : Keeps base.SoundlyExtends (declareType t) := by
  refine keeps_declareType_of_push (fun p hp => hp.sound.indexed) fun p hp ht => ?_
  refine hp.trans (.push hp.sound (fun id hid => ?_) ?_)
  · rw [TypeEntry.headerIn, mentions_header, Option.mem_toList] at hid
    exact hp.sound.indexed.container_headerIn_lt hid
  · rw [hp.sound.indexed.metadataName_headerIn ht.container]
    exact ht.fresh

/-! ## Operations that complete types -/

/-- Types beyond the base are completed one after the other, as far as they can be. -/
theorem keeps_completeType {pairs : List (TypeEntry × TypeId)}
    (hbase : ∀ x ∈ pairs, base.size ≤ x.2) {x : TypeEntry × TypeId} (hx : x ∈ pairs) :
    Keeps (fun p => base.SoundlyExtends p ∧ HaveHeaders p pairs) (completeType x.1 x.2) := by
  refine keeps_ask_modify ?_
  rintro p details ⟨hp, hheaders⟩ hdetails
  obtain ⟨hid, hnames⟩ := hheaders x hx
  have hsame : p.SameOutlines (p.update x.2 details.addTo) :=
    Program.sameOutlines_update hid ((parameterNames_of_resolveDetails hdetails).trans hnames.symm)
  exact ⟨hp.update (hbase x hx) hid hsame hdetails, hheaders.of_sameOutlines hsame⟩

theorem keeps_addAssemblyAttribute (a : AttributeEntry) :
    Keeps base.SoundlyExtends (addAssemblyAttribute a) :=
  keeps_ask_modify fun _ _ hp hresolved =>
    hp.trans (.addAssemblyAttribute hp.sound (hp.sound.inRange_resolveAttribute hresolved))

theorem keeps_addInvocation (i : InvocationEntry) :
    Keeps base.SoundlyExtends (addInvocation i) :=
  keeps_ask_modify fun _ _ hp hresolved =>
    hp.trans (.addInvocation hp.sound (hp.sound.inRange_resolveInvocation hresolved))

/-- What all steps of loading keep, a document keeps, however far it can be loaded. Types are
completed beyond the base, where their headers stand. -/
theorem leaves_loadDocument (h : base.Indexed) (hbase : J base) (document : Document)
    (hdeclare : ∀ t, Keeps J (declareType t))
    (hcomplete : ∀ {pairs : List (TypeEntry × TypeId)}, (∀ x ∈ pairs, base.size ≤ x.2) →
      ∀ x ∈ pairs, Keeps (fun p => J p ∧ HaveHeaders p pairs) (completeType x.1 x.2))
    (hattribute : ∀ a, Keeps J (addAssemblyAttribute a))
    (hinvocation : ∀ i, Keeps J (addInvocation i)) :
    J ((loadDocument document).leaves base) := by
  have htypes : Keeps J (document.types.mapM declareType) := .mapM fun t _ => hdeclare t
  have hheaders := htypes base hbase
  rcases hrun : document.types.mapM declareType base with ⟨ids, headers⟩ | ⟨e, headers⟩
  · rw [leaves_ok hrun] at hheaders
    obtain ⟨hdeclared, -, rfl⟩ := declared_of_mapM h hrun
    have hbeyond : ∀ x ∈ places base document.types, base.size ≤ x.2 :=
      fun x hx => (hdeclared.mem_snd_places_iff.1 (List.mem_map_of_mem hx)).1
    have hpairs : Keeps (fun p => J p ∧ HaveHeaders p (places base document.types))
        ((places base document.types).forM fun x => completeType x.1 x.2) :=
      .forM fun x hx => hcomplete hbeyond x hx
    have hcompleted := (hpairs headers ⟨hheaders, hdeclared.haveHeaders⟩).1
    have hrest : Keeps J (do
        document.assemblyAttributes.forM addAssemblyAttribute
        document.invocations.forM addInvocation) :=
      (Keeps.forM fun a _ => hattribute a).bind fun _ => Keeps.forM fun i _ => hinvocation i
    rw [loadDocument, leaves_bind_ok _ hrun]
    rcases hrun' : ((places base document.types).forM fun x => completeType x.1 x.2) headers with
      ⟨⟨⟩, completed⟩ | ⟨e, completed⟩
    · rw [leaves_ok hrun'] at hcompleted
      exact (leaves_bind_ok _ hrun').symm ▸ hrest completed hcompleted
    · rw [leaves_error hrun'] at hcompleted
      exact (leaves_bind_error _ hrun').symm ▸ hcompleted
  · rw [leaves_error hrun] at hheaders
    rwa [loadDocument, leaves_bind_error _ hrun]

/-- However far a document can be loaded, what it leaves extends what was there. -/
theorem soundlyExtends_loadDocument (h : base.Sound) (document : Document) :
    base.SoundlyExtends ((loadDocument document).leaves base) :=
  leaves_loadDocument h.indexed (.refl h) document keeps_declareType
    (fun hbase _ hx => keeps_completeType hbase hx) keeps_addAssemblyAttribute keeps_addInvocation

end Loading

/-! ## Histories -/

namespace Program

/-- What can be done to a program that is being built. -/
inductive Operation where
  | add (d : Declaration)
  | load (d : Document)
  | install (s : Settings)
  | addInvocation (i : Invocation)
  | addAssemblyAttribute (a : Attribute)

namespace Operation

/-- The places that a declaration to be added mentions. -/
def declared : Operation → List TypeId
  | add d => d.mentions
  | _ => []

def run : Operation → Loading Unit
  | add d => do let _ ← Loading.add d
  | load d => Loading.loadDocument d
  | install s => do let _ ← Loading.installTriggers s
  | addInvocation i => modify (·.addInvocation i)
  | addAssemblyAttribute a => modify (·.addAssemblyAttribute a)

end Operation

/-- The program that an operation leaves, whether or not it fails. -/
def leave (p : Program) (op : Operation) : Program := op.run.leaves p

/-- What a history of operations makes of a program. Declarations that are added mention only places
that there are. -/
inductive History (start : Program) : List Operation → Program → Prop
  | start : History start [] start
  | step {ops : List Operation} {p : Program} {op : Operation} (before : History start ops p)
      (known : ∀ id ∈ op.declared, id < p.size) : History start (ops ++ [op]) (p.leave op)

/-- An operation of a history handed in something that mentions a place which there was not. -/
def HandedUnknown (start : Program) (ops : List Operation) (op : Operation)
    (mentions : List TypeId) : Prop :=
  ∃ before after p, ops = before ++ op :: after ∧ History start before p ∧
    ∃ place ∈ mentions, p.size ≤ place

/-- What an operation handed in mentions places of the program only, unless it did not even then. -/
def KnownAsHanded (start : Program) (ops : List Operation) (p : Program) (op : Operation)
    (mentions : List TypeId) : Prop :=
  (∀ place ∈ mentions, place < p.size) ∨ HandedUnknown start ops op mentions

/-- Invocations and attributes mention places of the program only, whether they come from a document
or were handed in. What is handed in is kept as it is, so that the one exception is what mentioned
a place that there was not even then. -/
structure TriggersInRange (start : Program) (ops : List Operation) (p : Program) : Prop where
  invocations : ∀ i ∈ p.invocations, KnownAsHanded start ops p (.addInvocation i) i.mentions
  assemblyAttributes : ∀ a ∈ p.assemblyAttributes,
    KnownAsHanded start ops p (.addAssemblyAttribute a) a.mentions

variable {start p q : Program} {ops : List Operation} {op : Operation} {mentions : List TypeId}

theorem KnownAsHanded.snoc {op' : Operation} (h : KnownAsHanded start ops p op' mentions)
    (hsize : p.size ≤ q.size) (op : Operation) :
    KnownAsHanded start (ops ++ [op]) q op' mentions := by
  rcases h with hrange | ⟨before, after, r, rfl, hhistory, hplace⟩
  · exact .inl fun place hplace => Nat.lt_of_lt_of_le (hrange place hplace) hsize
  · exact .inr ⟨before, after ++ [op], r, by simp, hhistory, hplace⟩

theorem History.knownAsHanded (h : History start ops p) (op : Operation) (mentions : List TypeId)
    (hsize : p.size ≤ q.size) : KnownAsHanded start (ops ++ [op]) q op mentions := by
  by_cases hrange : ∀ place ∈ mentions, place < p.size
  · exact .inl fun place hplace => Nat.lt_of_lt_of_le (hrange place hplace) hsize
  · obtain ⟨place, hplace, hunknown⟩ : ∃ place ∈ mentions, ¬place < p.size := by
      simpa using hrange
    exact .inr ⟨ops, [], p, rfl, h, place, hplace, Nat.le_of_not_lt hunknown⟩

/-! ### One operation -/

theorem Sound.empty : Sound {} where
  indexed := indexed_of_check (fun id hid => absurd hid (Nat.not_lt_zero id))
    (List.forall_mem_nil _) (fun id hid => absurd hid (Nat.not_lt_zero id))
  inRange id hid := absurd hid (Nat.not_lt_zero id)

theorem Sound.withCoreLibrary : Sound withCoreLibrary where
  indexed := indexed_withCoreLibrary
  inRange id _ := Declaration.mentions_lt
    (isClosed_withCoreLibrary _ (fun _ hid => moveFrom_of_lt hid) id)

/-- Operations that hand in neither an invocation nor an attribute extend a program soundly. -/
theorem Sound.soundlyExtends_leave (h : p.Sound) (hknown : ∀ id ∈ op.declared, id < p.size)
    (hinvocation : ∀ i, op ≠ .addInvocation i) (hattribute : ∀ a, op ≠ .addAssemblyAttribute a) :
    p.SoundlyExtends (p.leave op) := by
  cases op with
  | add d =>
    rw [leave, Operation.run, Loading.leaves_bind_pure]
    exact Loading.soundlyExtends_add h hknown
  | load d => exact Loading.soundlyExtends_loadDocument h d
  | install s =>
    rw [leave, Operation.run, Loading.leaves_bind_pure]
    exact Loading.keeps_installTriggers s p (.refl h)
  | addInvocation i => exact absurd rfl (hinvocation i)
  | addAssemblyAttribute a => exact absurd rfl (hattribute a)

/-- Every operation extends a program, and leaves it sound. -/
theorem Sound.extends_leave (h : p.Sound) (hknown : ∀ id ∈ op.declared, id < p.size) :
    p.Extends (p.leave op) ∧ (p.leave op).Sound := by
  cases op with
  | addInvocation i => exact ⟨extends_addInvocation h i, h.of_types rfl rfl⟩
  | addAssemblyAttribute a => exact ⟨extends_addAssemblyAttribute h a, h.of_types rfl rfl⟩
  | add d | load d | install s =>
    have hextends := h.soundlyExtends_leave hknown (fun _ => nofun) (fun _ => nofun)
    exact ⟨hextends.toExtends, hextends.sound⟩

/-- An operation hands in at most one invocation or attribute, and whatever else it adds mentions
places of the program only. -/
theorem TriggersInRange.leave (ht : TriggersInRange start ops p) (h : History start ops p)
    (hp : p.Sound) (hknown : ∀ id ∈ op.declared, id < p.size) :
    TriggersInRange start (ops ++ [op]) (p.leave op) := by
  have hsize := (hp.extends_leave hknown).1.size
  cases op with
  | addInvocation i =>
    refine ⟨fun j hj => ?_, fun a ha => (ht.assemblyAttributes a ha).snoc hsize _⟩
    rcases List.mem_append.1 hj with hj | hj
    · exact (ht.invocations j hj).snoc hsize _
    · rw [List.mem_singleton.1 hj]
      exact h.knownAsHanded _ _ hsize
  | addAssemblyAttribute a =>
    refine ⟨fun i hi => (ht.invocations i hi).snoc hsize _, fun b hb => ?_⟩
    rcases List.mem_append.1 hb with hb | hb
    · exact (ht.assemblyAttributes b hb).snoc hsize _
    · rw [List.mem_singleton.1 hb]
      exact h.knownAsHanded _ _ hsize
  | add d | load d | install s =>
    have hextends := hp.soundlyExtends_leave hknown (fun _ => nofun) (fun _ => nofun)
    exact ⟨fun i hi => (hextends.newInvocations i hi).elim
        (fun hi => (ht.invocations i hi).snoc hsize _) .inl,
      fun a ha => (hextends.newAttributes a ha).elim
        (fun ha => (ht.assemblyAttributes a ha).snoc hsize _) .inl⟩

/-! ### Whole histories -/

/-- What a history starts with. -/
def IsBlank (p : Program) : Prop := p = {} ∨ p = withCoreLibrary

theorem IsBlank.sound (h : p.IsBlank) : p.Sound := by
  rcases h with rfl | rfl
  · exact .empty
  · exact .withCoreLibrary

namespace History

theorem sound (h : History start ops p) (hstart : start.Sound) : p.Sound := by
  induction h with
  | start => exact hstart
  | step _ known ih => exact (ih.extends_leave known).2

end History

/-- A program as it is when it has been built: some history has made it from nothing or from the
core library, and its invocations and attributes mention its own places. -/
structure IsBuilt (p : Program) : Prop where
  history : ∃ start ops, start.IsBlank ∧ History start ops p
  invocations : ∀ i ∈ p.invocations, ∀ place ∈ i.mentions, place < p.size
  assemblyAttributes : ∀ a ∈ p.assemblyAttributes, ∀ place ∈ a.mentions, place < p.size

theorem IsBuilt.indexed (h : p.IsBuilt) : p.Indexed := by
  obtain ⟨start, ops, hstart, hhistory⟩ := h.history
  exact (hhistory.sound hstart.sound).indexed

/-- The core library with the triggers, where `System.Object` could not be added once more. -/
def installed : Program :=
  (withCoreLibrary.leave (.install {})).leave (.add (CoreLibrary.builtIn .object))

theorem history_installed :
    History withCoreLibrary [.install {}, .add (CoreLibrary.builtIn .object)] installed := by
  have hinstalled : History withCoreLibrary [.install {}] (withCoreLibrary.leave (.install {})) :=
    .step .start (List.forall_mem_nil _)
  exact .step hinstalled (List.forall_mem_nil _)

end Program

end EventWrap
