import EventWrap.Proofs.Document.Scoping
import EventWrap.Proofs.Host.HintName
import EventWrap.Wrapper.Naming

/-!
# Hint names

The name of the file that a wrapper is written to holds the namespace and, for each type on the path
to the wrapped one, the name and the type parameters. They can be read back as long as no name has a
dot or a dash in it, so that types of one namespace do not share a file. A host takes such a name
for a file exactly when every name in it is made of characters that a file name may have.
-/

namespace EventWrap

/-! ## Levels -/

/-- The names that a declaration shows in hint names: its own and those of its type parameters. -/
def Declaration.ownNames (d : Declaration) : List String := d.name :: d.parameterNames

theorem Declaration.simpleName_congr_ownNames {d d' : Declaration} (h : d.ownNames = d'.ownNames) :
    d.simpleName = d'.simpleName :=
  simpleName_congr (List.cons.inj h).1 (List.cons.inj h).2

/-- Paths of one namespace with the same names at every level have one metadata name. -/
theorem Nesting.metadataName_congr {path path' : Nesting}
    (hnamespace : path.namespaceName = path'.namespaceName)
    (h : path.map (·.ownNames) = path'.map (·.ownNames)) :
    path.metadataName = path'.metadataName := by
  have hlevels : List.Forall₂ (fun d d' => d.ownNames = d'.ownNames) path path' := by
    rw [← List.forall₂_eq_eq_eq, List.forall₂_map_left_iff, List.forall₂_map_right_iff] at h
    exact h
  have hsimple : path.map (·.simpleName) = path'.map (·.simpleName) := by
    rw [← List.forall₂_eq_eq_eq, List.forall₂_map_left_iff, List.forall₂_map_right_iff]
    exact hlevels.imp fun _ _ => Declaration.simpleName_congr_ownNames
  rw [metadataName, metadataName, hnamespace, hsimple]

open HintName

namespace Program

variable {p : Program} {a b id : TypeId} {mode mode' : WrapperMode}

/-- A level of a hint name holds the names of a type, joined by dashes. -/
theorem hintLevel_eq (d : Declaration) : hintLevel d = "-".intercalate d.ownNames := by
  have hjoin : ∀ (names : List String) (name : String),
      name ++ String.join (names.map ("-" ++ ·)) = "-".intercalate (name :: names) := by
    intro names
    induction names with
    | nil => simp
    | cons next rest ih =>
      intro name
      rw [List.map_cons, String.join_cons, String.intercalate_cons_cons, ← ih next]
      simp only [String.append_assoc]
  exact hjoin d.parameterNames d.name

/-- The levels of the path to a type, joined by dots. -/
def hintLevels (p : Program) (id : TypeId) : String :=
  ".".intercalate ((p.nesting id).map hintLevel)

theorem hintName_eq (p : Program) (id : TypeId) (mode : WrapperMode) :
    p.hintName id mode = "SourceClass" ++ qualify (p.wrapperNamespace id) (p.hintLevels id) ++
      "-" ++ mode.fileSuffix ++ "Events.SourceGenerated.cs" := rfl

/-! ## Types of one namespace -/

/-- No name of a type or of a type parameter has a mark in it that parts the names in hint names. -/
def HasUnmarkedNames (p : Program) : Prop :=
  ∀ d ∈ p.types.toList, ∀ name ∈ d.ownNames, '.' ∉ name.toList ∧ '-' ∉ name.toList

instance (p : Program) : Decidable p.HasUnmarkedNames :=
  inferInstanceAs (Decidable (∀ _ ∈ _, ∀ _ ∈ _, _ ∧ _))

theorem HasUnmarkedNames.of_mem_nesting (h : p.HasUnmarkedNames) {d : Declaration}
    (hd : d ∈ p.nesting id) : ∀ name ∈ d.ownNames, '.' ∉ name.toList ∧ '-' ∉ name.toList := by
  obtain ⟨outer, rfl⟩ := exists_of_mem_nesting hd
  exact forall_declaration h (by decide) outer

/-- The names of all levels are read back by parting at dots and then at dashes. -/
theorem HasUnmarkedNames.parts_hintLevels (h : p.HasUnmarkedNames) (id : TypeId) :
    (Text.parts '.' (p.hintLevels id)).map (Text.parts '-') = (p.nesting id).map (·.ownNames) := by
  have hlevels : ∀ level ∈ (p.nesting id).map hintLevel, '.' ∉ level.toList := by
    rw [List.forall_mem_map]
    intro d hd
    have hnames : ∀ name ∈ d.ownNames, ∀ c ∈ name.toList, c ≠ '.' := fun name hname =>
      List.forall_mem_ne'.2 (h.of_mem_nesting hd name hname).1
    rw [hintLevel_eq, ← List.forall_mem_ne']
    exact (Text.forall_mem_intercalate (by simp)).2 hnames
  have hread : ∀ d ∈ p.nesting id, Text.parts '-' (hintLevel d) = d.ownNames := by
    intro d hd
    rw [hintLevel_eq]
    exact Text.parts_intercalate (fun name hname => (h.of_mem_nesting hd name hname).2)
      (List.cons_ne_nil _ _)
  calc (Text.parts '.' (p.hintLevels id)).map (Text.parts '-')
    _ = ((p.nesting id).map hintLevel).map (Text.parts '-') := by
      apply congrArg
      exact Text.parts_intercalate hlevels (mt List.map_eq_nil_iff.1 (nesting_ne_nil p id))
    _ = (p.nesting id).map (·.ownNames) := by
      rw [List.map_map]
      exact List.map_congr_left hread

theorem qualify_right_inj {namespaceName name name' : String} :
    qualify namespaceName name = qualify namespaceName name' ↔ name = name' := by
  rw [qualify, qualify]
  split
  · rfl
  · exact String.append_right_inj _

/-- The modes are told apart by the last letter before the common ending. -/
theorem hintName_eq_iff (hnamespace : p.wrapperNamespace a = p.wrapperNamespace b) :
    p.hintName a mode = p.hintName b mode' ↔ p.hintLevels a = p.hintLevels b ∧ mode = mode' := by
  rw [hintName_eq, hintName_eq, String.append_left_inj]
  constructor
  · intro h
    have hmode : mode = mode' := by
      have hletter := congrArg (fun text => text.toList.getLast?) h
      simp only [String.toList_append, List.getLast?_append] at hletter
      cases mode <;> cases mode' <;> simp [WrapperMode.fileSuffix] at hletter ⊢
    rw [hmode, String.append_left_inj, String.append_left_inj, String.append_right_inj,
      hnamespace, qualify_right_inj] at h
    exact ⟨h, hmode⟩
  · intro h
    rw [hnamespace, h.1, h.2]

/-- In a program without marks in its names, two types of one namespace share a hint name only when
they are one type, wrapped in one mode. -/
theorem hintName_inj (h : p.Reached) (hnames : p.HasUnmarkedNames) (ha : a < p.size)
    (hb : b < p.size) (hnamespace : p.wrapperNamespace a = p.wrapperNamespace b) :
    p.hintName a mode = p.hintName b mode' ↔ a = b ∧ mode = mode' := by
  rw [hintName_eq_iff hnamespace]
  constructor
  · intro heq
    have hpath : (p.nesting a).map (·.ownNames) = (p.nesting b).map (·.ownNames) :=
      calc (p.nesting a).map (·.ownNames)
        _ = (Text.parts '.' (p.hintLevels a)).map (Text.parts '-') :=
          (hnames.parts_hintLevels a).symm
        _ = (Text.parts '.' (p.hintLevels b)).map (Text.parts '-') := by rw [heq.1]
        _ = (p.nesting b).map (·.ownNames) := hnames.parts_hintLevels b
    have hname : p.metadataName a = p.metadataName b :=
      Nesting.metadataName_congr hnamespace hpath
    exact ⟨h.indexed.eq_of_metadataName_eq ha hb hname, heq.2⟩
  · intro heq
    obtain ⟨rfl, rfl⟩ := heq
    exact ⟨rfl, rfl⟩

/-- Two types of one name and arity, nested in types of one name that differ in arity, and one with
a bar in its name. -/
def crossedDocument : Document where
  types := [
    { namespaceName := "Sample", name := "Outer", typeParameters := [{ name := "T" }] },
    { name := "Inner", container := some "Sample.Outer`1", typeParameters := [{ name := "U" }] },
    { namespaceName := "Sample", name := "Outer" },
    { name := "Inner", container := some "Sample.Outer", typeParameters := [{ name := "U" }] },
    { name := "In|ner", container := some "Sample.Outer`1" }]

def crossed : Program := withCoreLibrary.leave (.load crossedDocument)

theorem reached_crossed : crossed.Reached := .step (.blank (.inr rfl)) fun _ _ hop _ => nomatch hop

theorem crossed_inner_files_apart :
    crossed.Reached ∧ crossed.HasUnmarkedNames ∧ crossed.size = 35 ∧
      crossed.wrapperNamespace 31 = crossed.wrapperNamespace 33 ∧
      (∀ mode mode', crossed.hintName 31 mode ≠ crossed.hintName 33 mode') ∧
      crossed.hintName 31 .ofInstance ≠ crossed.hintName 31 .ofStatics := by
  have hnames : crossed.HasUnmarkedNames := by decide
  have hsize : crossed.size = 35 := by decide
  have hnamespace : crossed.wrapperNamespace 31 = crossed.wrapperNamespace 33 := by decide
  have hfirst : 31 < crossed.size := by rw [hsize]; decide
  have hsecond : 33 < crossed.size := by rw [hsize]; decide
  refine ⟨reached_crossed, hnames, hsize, hnamespace, fun mode mode' heq => ?_, fun heq => ?_⟩
  · have hsame := (hintName_inj reached_crossed hnames hfirst hsecond hnamespace).1 heq
    exact absurd hsame.1 (by decide)
  · have hsame := (hintName_inj reached_crossed hnames hfirst hfirst rfl).1 heq
    cases hsame.2

/-! ## Accepted names -/

/-- A hint name is clean when the namespace and all names on the path are. -/
theorem isClean_hintName : IsClean (p.hintName id mode) ↔
    IsClean (p.nesting id).namespaceName ∧
      ∀ d ∈ p.nesting id, ∀ name ∈ d.ownNames, IsClean name := by
  have hlevels : IsClean (p.hintLevels id) ↔
      ∀ d ∈ p.nesting id, ∀ name ∈ d.ownNames, IsClean name :=
    calc IsClean (p.hintLevels id)
      _ ↔ ∀ level ∈ (p.nesting id).map hintLevel, IsClean level := isClean_intercalate (by decide)
      _ ↔ ∀ d ∈ p.nesting id, IsClean (hintLevel d) := List.forall_mem_map
      _ ↔ ∀ d ∈ p.nesting id, ∀ name ∈ d.ownNames, IsClean name := by
        simp only [hintLevel_eq, isClean_intercalate (by decide : IsClean "-")]
  have hconstant : IsClean "SourceClass" ∧ IsClean "-" ∧ IsClean mode.fileSuffix ∧
      IsClean "Events.SourceGenerated.cs" := by
    cases mode <;> decide
  obtain ⟨hclass, hdash, hsuffix, hending⟩ := hconstant
  rw [hintName_eq, isClean_append, isClean_append, isClean_append, isClean_append, isClean_qualify,
    hlevels, wrapperNamespace, and_iff_left hending, and_iff_left hsuffix, and_iff_left hdash,
    and_iff_right hclass]

/-- Whatever the names are, a hint name is not blank and begins and ends as it should. -/
theorem validate_hintName_iff_isClean :
    validate (p.hintName id mode) = .ok () ↔ IsClean (p.hintName id mode) := by
  have hname : (p.hintName id mode).toList = 'S' :: (("ourceClass" ++
      qualify (p.wrapperNamespace id) (p.hintLevels id) ++ "-" ++ mode.fileSuffix ++
        "Events.SourceGenerated").toList ++ ['.', 'c', 's']) := by
    simp [hintName_eq]
  exact validate_eq_ok_iff_isClean hname (by decide)

/-- A host takes a hint name for a file exactly when there is no unfit character in the namespace of
the outermost type around the wrapped one, nor in the names of it and of the types around it, nor in
those of their type parameters. -/
theorem validate_hintName_iff (h : p.Reached) (id : TypeId) (mode : WrapperMode) :
    validate (p.hintName id mode) = .ok () ↔ ∀ outer, p.Encloses outer id →
      ((p.declaration outer).container = none → IsClean (p.declaration outer).namespaceName) ∧
        IsClean (p.declaration outer).name ∧
          ∀ q ∈ (p.declaration outer).typeParameters, IsClean q.name := by
  have houter := h.indexed.outerFirst
  have hnames : ∀ d : Declaration, (∀ name ∈ d.ownNames, IsClean name) ↔
      IsClean d.name ∧ ∀ q ∈ d.typeParameters, IsClean q.name := by
    intro d
    rw [Declaration.ownNames, List.forall_mem_cons, Declaration.parameterNames, List.forall_mem_map]
  rw [validate_hintName_iff_isClean, isClean_hintName]
  constructor
  · intro hclean outer hencloses
    refine ⟨fun hc => ?_, ?_⟩
    · rw [← namespaceName_nesting houter hencloses hc]
      exact hclean.1
    · rw [← hnames]
      exact hclean.2 _ ((mem_nesting_iff houter).2 ⟨outer, hencloses, rfl⟩)
  · intro hclean
    constructor
    · obtain ⟨outer, hencloses, hc⟩ := exists_outermost houter id
      rw [namespaceName_nesting houter hencloses hc]
      exact (hclean outer hencloses).1 hc
    · intro d hd
      obtain ⟨outer, hencloses, rfl⟩ := (mem_nesting_iff houter).1 hd
      rw [hnames]
      exact (hclean outer hencloses).2

theorem crossed_bar_refused : crossed.Reached ∧
    validate (crossed.hintName 31 .ofInstance) = .ok () ∧
      validate (crossed.hintName 34 .ofInstance) ≠ .ok () := by
  refine ⟨reached_crossed, ?_, fun haccepted => ?_⟩
  · rw [validate_hintName_iff reached_crossed]
    intro outer hencloses
    have hclean : ∀ d ∈ crossed.nesting 31, (d.container = none → IsClean d.namespaceName) ∧
        IsClean d.name ∧ ∀ q ∈ d.typeParameters, IsClean q.name := by
      decide
    apply hclean
    rw [mem_nesting_iff reached_crossed.indexed.outerFirst]
    exact ⟨outer, hencloses, rfl⟩
  · have hclean := (validate_hintName_iff reached_crossed 34 .ofInstance).1 haccepted 34 .self
    have hbar : ¬IsClean (crossed.declaration 34).name := by decide
    exact hbar hclean.2.1

end Program

end EventWrap
