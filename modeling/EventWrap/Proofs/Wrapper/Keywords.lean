import EventWrap.Proofs.Code.Words
import EventWrap.Proofs.Wrapper.Factory

/-!
# Reserved words in the texts of types

Where the text of a type names a type parameter, a reserved word is marked. Namespaces and the
names of types are written as they are. So the text of a type has its keywords marked exactly when
no namespace or type that is named in it is called like a reserved word, and the text of a wrapper
when this holds of its namespace and of its arguments, since no wrapper is called like one.
-/

namespace EventWrap

open Code

/-! ## Names on a path -/

/-- The parts of a namespace between dots. -/
def namespaceSegments (namespaceName : String) : List String :=
  (namespaceName.toList.splitOn '.').map String.ofList

theorem intercalate_namespaceSegments (namespaceName : String) :
    ".".intercalate (namespaceSegments namespaceName) = namespaceName := by
  apply String.toList_inj.1
  calc (".".intercalate (namespaceSegments namespaceName)).toList
    _ = ['.'].intercalate (namespaceName.toList.splitOn '.') := by
      rw [String.toList_intercalate, namespaceSegments, List.map_map]
      simp
    _ = namespaceName.toList := List.intercalate_splitOn '.'

/-- No part of a namespace is a reserved word other than the keyword of a built-in type. -/
def IsPlainNamespace (namespaceName : String) : Prop :=
  ∀ segment ∈ namespaceSegments namespaceName, needsMark segment = false

instance (namespaceName : String) : Decidable (IsPlainNamespace namespaceName) :=
  inferInstanceAs (Decidable (∀ _ ∈ _, _))

theorem keywordsMarked_namespace {namespaceName : String}
    (h : ∀ segment ∈ namespaceSegments namespaceName, IsUnbroken segment) :
    KeywordsMarked namespaceName ↔ IsPlainNamespace namespaceName := by
  calc KeywordsMarked namespaceName
    _ ↔ KeywordsMarked (".".intercalate (namespaceSegments namespaceName)) := by
      rw [intercalate_namespaceSegments]
    _ ↔ ∀ segment ∈ namespaceSegments namespaceName, KeywordsMarked segment :=
      keywordsMarked_intercalate (by decide)
    _ ↔ IsPlainNamespace namespaceName := forall₂_congr fun segment hsegment =>
      keywordsMarked_iff_of_isUnbroken (h segment hsegment)

/-- Neither the namespace of a path nor a type on it is called like a reserved word other than the
keyword of a built-in type. -/
def Nesting.IsPlain (path : Nesting) : Prop :=
  IsPlainNamespace path.namespaceName ∧ ∀ d ∈ path, needsMark d.name = false

instance (path : Nesting) : Decidable path.IsPlain := inferInstanceAs (Decidable (_ ∧ _))

/-! ## Names without separators -/

/-- The names that a declaration gives: the parts of its namespace, its own and those of its type
parameters. -/
def Declaration.givenNames (d : Declaration) : List String :=
  namespaceSegments d.namespaceName ++ d.name :: d.parameterNames

/-- The names of a program's namespaces, types and type parameters have no separators in them, as
identifiers have none. -/
def Program.HasUnbrokenNames (p : Program) : Prop :=
  ∀ d ∈ p.types.toList, ∀ name ∈ d.givenNames, IsUnbroken name

instance (p : Program) : Decidable p.HasUnbrokenNames :=
  inferInstanceAs (Decidable (∀ _ ∈ _, ∀ _ ∈ _, _))

/-- The type parameters in a reference have names without separators. -/
def TypeRef.HasUnbrokenNames (r : TypeRef) : Prop := ∀ name ∈ r.parameters, IsUnbroken name

instance (r : TypeRef) : Decidable r.HasUnbrokenNames :=
  inferInstanceAs (Decidable (∀ _ ∈ _, _))

theorem TypeRef.hasUnbrokenNames_named {type : TypeId} {arguments : List TypeRef} :
    (named type arguments).HasUnbrokenNames ↔ ∀ a ∈ arguments, a.HasUnbrokenNames := by
  rw [HasUnbrokenNames, parameters, parametersOfAll_eq_flatMap, List.forall_mem_flatMap]
  rfl

namespace Program.HasUnbrokenNames

variable {p : Program} (h : p.HasUnbrokenNames)

include h

theorem declaration (id : TypeId) : ∀ name ∈ (p.declaration id).givenNames, IsUnbroken name :=
  forall_declaration h (by decide) id

theorem name (id : TypeId) : IsUnbroken (p.declaration id).name :=
  h.declaration id _ (by simp [Declaration.givenNames])

theorem parameterNames (id : TypeId) :
    ∀ name ∈ (p.declaration id).parameterNames, IsUnbroken name := by
  intro name hname
  apply h.declaration id
  simp [Declaration.givenNames, hname]

theorem scopeNames (id : TypeId) : ∀ name ∈ p.scopeNames id, IsUnbroken name := by
  intro name hname
  obtain ⟨q, hq, rfl⟩ := List.mem_map.1 hname
  obtain ⟨d, hd, hq⟩ := List.mem_flatMap.1 hq
  obtain ⟨outer, rfl⟩ := exists_of_mem_nesting hd
  exact h.parameterNames outer q.name (List.mem_map_of_mem hq)

/-- A type parameter in scope is marked where it needs to be. -/
theorem keywordsMarked_parameter {id : TypeId} {name : String} (hname : name ∈ p.scopeNames id) :
    KeywordsMarked (escape name) := keywordsMarked_escape (h.scopeNames id name hname)

theorem segments (id : TypeId) :
    ∀ segment ∈ namespaceSegments (p.nesting id).namespaceName, IsUnbroken segment := by
  apply forall_namespaceName fun name =>
    ∀ segment ∈ namespaceSegments name, IsUnbroken segment
  · intro outer segment hsegment
    apply h.declaration outer
    exact List.mem_append_left _ hsegment
  · decide

/-! ## Types as written -/

theorem isPlain_iff (id : TypeId) :
    (p.nesting id).IsPlain ↔ KeywordsMarked (p.nesting id).namespaceName ∧
      ∀ d ∈ p.nesting id, KeywordsMarked d.name := by
  apply and_congr
  · exact (keywordsMarked_namespace (h.segments id)).symm
  · apply forall₂_congr
    intro d hd
    obtain ⟨outer, rfl⟩ := exists_of_mem_nesting hd
    exact (keywordsMarked_iff_of_isUnbroken (h.name outer)).symm

/-- A type with its own parameters, which are marked where they need to be. -/
theorem keywordsMarked_openText (id : TypeId) :
    KeywordsMarked (openText (p.declaration id)) ↔ KeywordsMarked (p.declaration id).name := by
  rw [openText, keywordsMarked_append_argumentsText, and_iff_left_iff_imp]
  intro _
  rw [List.forall_mem_map]
  intro name hname
  exact h.keywordsMarked_parameter (p.parameterNames_subset_scopeNames id hname)

/-- Between the namespace and the arguments stand the types around a type and the type itself. -/
theorem keywordsMarked_namedText (id : TypeId) {texts : List String} :
    KeywordsMarked (p.namedText id texts) ↔
      (p.nesting id).IsPlain ∧ ∀ text ∈ texts, KeywordsMarked text := by
  have houter : (∀ d ∈ (p.nesting id).dropLast, KeywordsMarked (openText d)) ↔
      ∀ d ∈ (p.nesting id).dropLast, KeywordsMarked d.name := by
    apply forall₂_congr
    intro d hd
    obtain ⟨outer, rfl⟩ := exists_of_mem_nesting (List.dropLast_subset _ hd)
    exact h.keywordsMarked_openText outer
  have hlevels : (∀ d ∈ p.nesting id, KeywordsMarked d.name) ↔
      (∀ d ∈ (p.nesting id).dropLast, KeywordsMarked d.name) ∧
        KeywordsMarked (p.declaration id).name := by
    conv_lhs => rw [nesting_eq_dropLast_append]
    rw [List.forall_mem_append, List.forall_mem_singleton]
  rw [namedText, keywordsMarked_global, Nesting.pathText, keywordsMarked_qualify,
    keywordsMarked_intercalate (by decide), List.forall_mem_append, List.forall_mem_map, houter,
    List.forall_mem_singleton, keywordsMarked_append_argumentsText, h.isPlain_iff, hlevels]
  simp only [and_assoc]

end Program.HasUnbrokenNames

namespace Program

mutual

/-- The types that the text of a reference names, which are not built-in ones. -/
def typesWritten (p : Program) : TypeRef → List TypeId
  | .named id arguments => match (p.declaration id).builtIn with
    | some _ => []
    | none => id :: typesWrittenInAll p arguments
  | .parameter _ => []
  | .array element _ => typesWritten p element
  | .nullable inner => typesWritten p inner

def typesWrittenInAll (p : Program) : List TypeRef → List TypeId
  | [] => []
  | r :: rest => typesWritten p r ++ typesWrittenInAll p rest

end

end Program

namespace Program.HasUnbrokenNames

variable {p : Program}

mutual

theorem keywordsMarked_typeText (h : p.HasUnbrokenNames) : ∀ {r : TypeRef}, r.HasUnbrokenNames →
    (KeywordsMarked (p.typeText r) ↔ ∀ id ∈ p.typesWritten r, (p.nesting id).IsPlain)
  | .named id arguments, hr => by
    rw [typeText, typesWritten]
    cases (p.declaration id).builtIn with
    | some b => simpa using keywordsMarked_keyword b
    | none =>
      have harguments := keywordsMarked_typeTexts h (TypeRef.hasUnbrokenNames_named.1 hr)
      rw [h.keywordsMarked_namedText, harguments, List.forall_mem_cons]
  | .parameter name, hr => by
    simpa [typeText, typesWritten] using keywordsMarked_escape (hr name List.mem_cons_self)
  | .array element rank, hr => by
    rw [typeText, keywordsMarked_append_punctuation (isPunctuation_rankText rank), typesWritten]
    exact keywordsMarked_typeText h (r := element) hr
  | .nullable inner, hr => by
    rw [typeText, keywordsMarked_append_punctuation (by decide), typesWritten]
    exact keywordsMarked_typeText h (r := inner) hr

theorem keywordsMarked_typeTexts (h : p.HasUnbrokenNames) : ∀ {refs : List TypeRef},
    (∀ r ∈ refs, r.HasUnbrokenNames) →
    ((∀ text ∈ p.typeTexts refs, KeywordsMarked text) ↔
      ∀ id ∈ p.typesWrittenInAll refs, (p.nesting id).IsPlain)
  | [], _ => by simp [typeTexts, typesWrittenInAll]
  | r :: rest, hrefs => by
    obtain ⟨hfirst, hrest⟩ := List.forall_mem_cons.1 hrefs
    rw [typeTexts, typesWrittenInAll, List.forall_mem_cons, List.forall_mem_append,
      keywordsMarked_typeText h hfirst, keywordsMarked_typeTexts h hrest]

end

variable (h : p.HasUnbrokenNames)

include h

theorem keywordsMarked_definitionText {id : TypeId} (hid : (p.declaration id).builtIn = none) :
    KeywordsMarked (p.definitionText id) ↔ (p.nesting id).IsPlain := by
  rw [definitionText, typeText, hid, h.keywordsMarked_namedText, and_iff_left_iff_imp]
  intro _
  rw [typeTexts_eq_map, Declaration.ownArguments, List.map_map, List.forall_mem_map]
  intro name hname
  exact h.keywordsMarked_parameter (p.parameterNames_subset_scopeNames id hname)

theorem isUnbroken_wrapperName (id : TypeId) : IsUnbroken (p.wrapperName id) := by
  simp only [wrapperName, isUnbroken_append, isUnbroken_join, List.forall_mem_map]
  refine ⟨⟨⟨by decide, ?_⟩, h.name id⟩, by decide⟩
  intro d hd
  obtain ⟨outer, rfl⟩ := exists_of_mem_nesting (List.dropLast_subset _ hd)
  rw [wrapperNameLevel]
  split
  · exact isUnbroken_append.2
      ⟨isUnbroken_append.2 ⟨h.name outer, by decide⟩, isUnbroken_toString _⟩
  · exact h.name outer

/-- No wrapper is called like a reserved word, since no reserved word starts with a capital. -/
theorem keywordsMarked_wrapperName (id : TypeId) : KeywordsMarked (p.wrapperName id) := by
  apply (keywordsMarked_iff_of_isUnbroken (h.isUnbroken_wrapperName id)).2
  apply needsMark_of_not_isReserved
  exact isReserved_of_head (c := 'R') (by simp [wrapperName]) (by decide)

theorem keywordsMarked_wrapperText (id : TypeId) {arguments : List TypeRef}
    (harguments : ∀ a ∈ arguments, a.HasUnbrokenNames) :
    KeywordsMarked (p.wrapperText id arguments) ↔
      IsPlainNamespace (p.wrapperNamespace id) ∧
        ∀ a ∈ arguments, ∀ t ∈ p.typesWritten a, (p.nesting t).IsPlain := by
  have houter : ∀ a ∈ p.outerArguments id, KeywordsMarked (p.typeText a) := by
    rw [outerArguments, List.forall_mem_map]
    intro name hname
    have hscope : name ∈ p.scopeNames id := by
      rw [scopeNames_eq]
      exact List.mem_append_left _ hname
    exact h.keywordsMarked_parameter hscope
  have hname : KeywordsMarked (p.wrapperNamespace id) ↔ IsPlainNamespace (p.wrapperNamespace id) :=
    keywordsMarked_namespace (h.segments id)
  rw [wrapperText_eq, keywordsMarked_append_argumentsText, keywordsMarked_global,
    keywordsMarked_qualify, hname, and_iff_left (h.keywordsMarked_wrapperName id),
    List.forall_mem_map, List.forall_mem_append]
  apply and_congr_right
  intro _
  rw [and_iff_right houter]
  apply forall₂_congr
  intro a ha
  exact keywordsMarked_typeText h (harguments a ha)

end Program.HasUnbrokenNames

namespace Program

variable {p : Program}

/-- In a program with identifiers for names, the text of a reference has its keywords marked exactly
when none of the types that it names, of the types around them and of their namespaces is called
like a reserved word. The text of a declared type has them marked when this holds of the type
itself, and the text of a wrapper when it holds of the wrapper's namespace and of the arguments. -/
theorem texts_keywordsMarked_iff (h : p.HasUnbrokenNames) :
    (∀ r : TypeRef, r.HasUnbrokenNames →
      (KeywordsMarked (p.typeText r) ↔ ∀ t ∈ p.typesWritten r, (p.nesting t).IsPlain)) ∧
    (∀ id, (p.declaration id).builtIn = none →
      (KeywordsMarked (p.definitionText id) ↔ (p.nesting id).IsPlain)) ∧
    (∀ id (arguments : List TypeRef), (∀ a ∈ arguments, a.HasUnbrokenNames) →
      (KeywordsMarked (p.wrapperText id arguments) ↔
        IsPlainNamespace (p.wrapperNamespace id) ∧
          ∀ a ∈ arguments, ∀ t ∈ p.typesWritten a, (p.nesting t).IsPlain)) := by
  refine ⟨?_, ?_, ?_⟩
  · intro r hr
    exact HasUnbrokenNames.keywordsMarked_typeText h hr
  · intro id hid
    exact h.keywordsMarked_definitionText hid
  · intro id arguments harguments
    exact h.keywordsMarked_wrapperText id harguments

/-- A type with a reserved word for its parameter, and one that also is called like a reserved word,
in a namespace with one. -/
def keywordNames : Program :=
  let declarations : List Declaration := [
    { kind := .structType, namespaceName := "System", name := "Int32", builtIn := some .int32 },
    { namespaceName := "Sample", name := "Feed", typeParameters := [{ name := "in" }] },
    { namespaceName := "Sample.event", name := "class", typeParameters := [{ name := "in" }] }]
  declarations.foldl push {}

theorem keywordNames_feed_marked :
    keywordNames.HasUnbrokenNames ∧
    keywordNames.typeText (.named 1 [.parameter "in"]) = "global::Sample.Feed<@in>" ∧
    KeywordsMarked (keywordNames.typeText (.named 1 [.parameter "in"])) ∧
    KeywordsMarked (keywordNames.definitionText 1) ∧
    KeywordsMarked (keywordNames.wrapperText 1 [.nullable (.named 0 []), .parameter "in"]) := by
  have hnames : keywordNames.HasUnbrokenNames := by decide
  obtain ⟨htypes, hdefinitions, hwrappers⟩ := texts_keywordsMarked_iff hnames
  refine ⟨hnames, by decide, ?_, ?_, ?_⟩
  · exact (htypes _ (by decide)).2 (by decide)
  · exact (hdefinitions 1 (by decide)).2 (by decide)
  · exact (hwrappers 1 _ (by decide)).2 (by decide)

/-- Of the reserved words by which a type is found, only that of its parameter is marked. -/
theorem keywordNames_class_unmarked :
    keywordNames.HasUnbrokenNames ∧ (keywordNames.declaration 2).builtIn = none ∧
    keywordNames.typeText (.named 2 [.parameter "in"]) = "global::Sample.event.class<@in>" ∧
    ¬ KeywordsMarked (keywordNames.typeText (.named 2 [.parameter "in"])) ∧
    ¬ KeywordsMarked (keywordNames.definitionText 2) ∧
    keywordNames.wrapperText 2 [.named 0 []] = "global::Sample.event.RxclassEvents<int>" ∧
    ¬ KeywordsMarked (keywordNames.wrapperText 2 [.named 0 []]) := by
  decide

end Program

end EventWrap
