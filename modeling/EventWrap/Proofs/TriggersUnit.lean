import EventWrap.Proofs.Code.Undocumented
import EventWrap.Proofs.Settings
import EventWrap.Proofs.Wrapper.Keywords
import EventWrap.Triggers

/-!
# The unit of the triggers

Valid settings name everything by identifiers, among which are the reserved words. The unit of the
triggers writes the names of the settings as they are, without marking those that are reserved. So
it declares the triggers, as they are read off its lines, exactly when no part of their namespace
and none of their own names is a reserved word.
-/

namespace EventWrap

open Code

/-! ## Identifiers -/

/-- A letter or an underscore, then letters, digits and underscores. -/
def IsIdentifier (name : String) : Prop := ∃ first rest, name.toList = first :: rest ∧
  (first = '_' ∨ Text.isAlphabetic first) ∧
    ∀ c ∈ rest, c = '_' ∨ Text.isAlphabetic c ∨ Text.isNumeric c

theorem IsIdentifier.ne_empty {name : String} (h : IsIdentifier name) : name ≠ "" := by
  rintro rfl
  obtain ⟨first, rest, htext, -⟩ := h
  cases htext

theorem IsIdentifier.isUnbroken {name : String} (h : IsIdentifier name) : IsUnbroken name := by
  obtain ⟨first, rest, htext, hfirst, hrest⟩ := h
  have hseparators : ∀ c ∈ separators,
      ¬(c = '_' ∨ Text.isAlphabetic c ∨ Text.isNumeric c) := by
    rw [← List.forall_iff_forall_mem]
    decide
  rw [IsUnbroken, htext, List.forall_mem_cons]
  exact ⟨fun hmem => hseparators first hmem (hfirst.imp_right .inl),
    fun c hc hmem => hseparators c hmem (hrest c hc)⟩

/-- A name that one word may be read as. -/
theorem IsIdentifier.words_eq {name : String} (h : IsIdentifier name) : words name = [name] := by
  rw [words_of_isUnbroken h.isUnbroken, if_neg h.ne_empty]

namespace Settings

theorem isIdentifier_iff {chars : List Char} :
    isIdentifier chars ↔ IsIdentifier (String.ofList chars) := by
  rw [IsIdentifier, String.toList_ofList]
  cases chars with
  | nil => exact iff_of_false nofun (fun ⟨_, _, h, _⟩ => nomatch h)
  | cons first rest =>
    simp only [isIdentifier, Text.isAlphanumeric, Bool.and_eq_true, Bool.or_eq_true,
      decide_eq_true_eq, List.all_eq_true]
    constructor
    · exact fun h => ⟨first, rest, rfl, h⟩
    · rintro ⟨_, _, ⟨⟩, h⟩
      exact h

/-- The parts between dots are those of a namespace. -/
theorem segments_eq_splitOn (chars : List Char) : segments chars = chars.splitOn '.' := by
  induction chars with
  | nil => rfl
  | cons c rest ih =>
    have hcons : (c :: rest).splitOn '.' =
        if c = '.' then [] :: rest.splitOn '.' else (rest.splitOn '.').modifyHead (c :: ·) := by
      rw [List.splitOn, List.splitOnP_cons_eq_if_modifyHead]
      simp only [beq_iff_eq]
      rfl
    rw [segments, ih, hcons]
    split
    · rfl
    · cases hsplit : rest.splitOn '.' with
      | nil => exact absurd hsplit (List.splitOnP_ne_nil _ _)
      | cons first others => rfl

theorem isDottedName_iff {name : String} :
    isDottedName name.toList ↔ ∀ segment ∈ namespaceSegments name, IsIdentifier segment := by
  rw [isDottedName, List.all_eq_true, segments_eq_splitOn, namespaceSegments, List.forall_mem_map]
  exact forall₂_congr fun segment _ => isIdentifier_iff

/-- A name without the mark of the global namespace in front. -/
def withoutGlobal (name : String) : String :=
  if "global::".toList <+: name.toList then String.ofList (name.toList.drop 8) else name

theorem stripGlobal_eq (name : String) : stripGlobal name.toList = (withoutGlobal name).toList := by
  rw [withoutGlobal]
  by_cases hglobal : "global::".toList <+: name.toList
  · obtain ⟨rest, hrest⟩ := id hglobal
    rw [if_pos hglobal, String.toList_ofList, ← hrest]
    rfl
  · rw [if_neg hglobal]
    unfold stripGlobal
    split
    · next rest hrest => exact absurd ⟨rest, hrest.symm⟩ hglobal
    · rfl

/-! ## Names of settings -/

/-- The parts of the triggers' namespace, none of the global one. -/
def path (s : Settings) : List String :=
  if s.extensionsNamespace = "" then [] else namespaceSegments s.extensionsNamespace

/-- The parts of the names that the unit of the triggers declares. -/
def triggerNames (s : Settings) : List String :=
  s.path ++ [s.extensionsClass, s.factoryMethod, s.staticAttribute]

/-- The parts of the reactive names. -/
def reactiveParts (s : Settings) : List String :=
  s.reactive.fields.flatMap fun field => namespaceSegments (withoutGlobal field.2)

/-- The parts of all names that settings give. -/
def names (s : Settings) : List String := s.triggerNames ++ s.reactiveParts

variable {s : Settings}

/-- Settings are valid if they name everything by identifiers and the two classes differ. -/
theorem validate_eq_ok_iff_names : s.validate = .ok () ↔
    (∀ name ∈ s.names, IsIdentifier name) ∧ s.extensionsClass ≠ s.staticAttribute := by
  have hword : ∀ {name : String}, isIdentifier name.toList ↔ IsIdentifier name := by
    intro name
    rw [isIdentifier_iff, String.ofList_toList]
  have hpath : (s.extensionsNamespace = "" ∨ isDottedName s.extensionsNamespace.toList) ↔
      ∀ name ∈ s.path, IsIdentifier name := by
    rw [path, isDottedName_iff]
    by_cases hempty : s.extensionsNamespace = "" <;> simp [hempty]
  have hreactive : (∀ field ∈ s.reactive.fields, isDottedName (stripGlobal field.2.toList)) ↔
      ∀ name ∈ s.reactiveParts, IsIdentifier name := by
    simp only [reactiveParts, List.forall_mem_flatMap, stripGlobal_eq, isDottedName_iff]
  rw [validate_eq_ok_iff, hpath, hword, hword, hword, hreactive]
  simp only [names, triggerNames, List.forall_mem_append, List.forall_mem_cons]
  constructor
  · rintro ⟨hpath, hclass, hmethod, hattribute, hne, hreactive⟩
    exact ⟨⟨⟨hpath, hclass, hmethod, hattribute, nofun⟩, hreactive⟩, hne⟩
  · rintro ⟨⟨⟨hpath, hclass, hmethod, hattribute, -⟩, hreactive⟩, hne⟩
    exact ⟨hpath, hclass, hmethod, hattribute, hne, hreactive⟩

end Settings

/-! ## Declarations as read -/

/-- The word after the modifiers and the kind of a declaration, unless it is reserved. -/
def declaredName? (kind : String) : List String → Option String
  | [] => none
  | word :: rest =>
    if word = kind then rest.head?.filter fun name => !isReserved name
    else if (Modifier.all.map Modifier.keyword).contains word then declaredName? kind rest
    else none

/-- The words after the keyword of a namespace, unless one of them is reserved. -/
def declaredPath? : List String → Option (List String)
  | "namespace" :: path => if path.any isReserved then none else some path
  | _ => none

theorem isReserved_of_declaredName? {kind name : String} {ws : List String}
    (h : declaredName? kind ws = some name) : isReserved name = false := by
  induction ws with
  | nil => cases h
  | cons word rest ih =>
    rw [declaredName?] at h
    split at h
    · simpa using (Option.filter_eq_some_iff.1 h).2
    · split at h
      · exact ih h
      · cases h

theorem isReserved_of_declaredPath? {path ws : List String} (h : declaredPath? ws = some path) :
    ∀ word ∈ path, isReserved word = false := by
  unfold declaredPath? at h
  split at h
  · split at h
    · cases h
    · next path hfree =>
      cases h
      simpa using hfree
  · cases h

namespace Settings

/-- The triggers are declared under the names of the settings, as read off the lines of their
unit: the namespace unless it is the global one, both classes and the method, which gives an
object. -/
structure DeclaresTriggers (s : Settings) : Prop where
  path : s.extensionsNamespace ≠ "" →
    ∃ line ∈ s.triggersUnit.layout, declaredPath? (words line.text) = some s.path
  holder : ∃ line ∈ s.triggersUnit.layout,
    declaredName? "class" (words line.text) = some s.extensionsClass
  method : ∃ line ∈ s.triggersUnit.layout,
    declaredName? "object" (words line.text) = some s.factoryMethod
  marker : ∃ line ∈ s.triggersUnit.layout,
    declaredName? "class" (words line.text) = some s.staticAttribute

end Settings

/-! ## Lines of a unit -/

namespace Code

variable {l : Line} {level : Nat} {c : ClassBlock} {u : SourceUnit}

theorem mem_inBraces {lines : List Line} (hl : l ∈ lines) : l ∈ inBraces level lines :=
  List.mem_cons_of_mem _ (List.mem_append_left _ hl)

theorem ClassBlock.mem_layout_of_member {m : Member} (hm : m ∈ c.members)
    (hl : l ∈ m.layout (level + 1)) : l ∈ c.layout level := by
  rw [layout]
  exact List.mem_append_right _ (mem_inBraces (Line.mem_spaced (List.mem_map_of_mem hm) hl))

theorem SourceUnit.mem_layout_of_namespace {n : NamespaceBlock} (hn : n ∈ u.namespaces)
    (hl : l ∈ n.layout) : l ∈ u.layout :=
  Line.mem_spaced (List.mem_append_left _ (List.mem_append_right _ (List.mem_map_of_mem hn))) hl

/-- The lines of a class are among those of the unit, within a namespace or not. -/
theorem SourceUnit.exists_level {c : ClassBlock} (hc : c ∈ u.classes) :
    ∃ level, ∀ l ∈ c.layout level, l ∈ u.layout := by
  rcases List.mem_append.1 hc with hc | hc
  · obtain ⟨n, hn, hc⟩ := List.mem_flatMap.1 hc
    refine ⟨1, fun l hl => SourceUnit.mem_layout_of_namespace hn ?_⟩
    exact List.mem_cons_of_mem _ (mem_inBraces (Line.mem_spaced (List.mem_map_of_mem hc) hl))
  · exact ⟨0, fun l hl => Line.mem_spaced (List.mem_append_right _ (List.mem_map_of_mem hc)) hl⟩

end Code

namespace Settings

variable {s : Settings}

theorem namespaces_triggersUnit (h : s.extensionsNamespace ≠ "") :
    s.triggersUnit.namespaces = [⟨s.extensionsNamespace, [s.holderClass, s.markerClass]⟩] := by
  simp [triggersUnit, emptyUnit, SourceUnit.addClass, SourceUnit.addToNamespace, h]

theorem classes_triggersUnit (s : Settings) :
    s.triggersUnit.classes = [s.holderClass, s.markerClass] := by
  by_cases h : s.extensionsNamespace = "" <;>
  simp [triggersUnit, emptyUnit, SourceUnit.addClass, SourceUnit.addToNamespace,
    SourceUnit.classes, h]

end Settings

/-! ## Words of a declaration -/

theorem words_modifiersText (modifiers : List Modifier) (rest : String) :
    words (modifiersText modifiers ++ rest) = modifiers.map Modifier.keyword ++ words rest := by
  have hkeyword : ∀ m : Modifier, words m.keyword = [m.keyword] := by
    intro m
    cases m <;> decide
  induction modifiers with
  | nil => rw [modifiersText, List.map_nil, String.join_nil, String.empty_append]; rfl
  | cons m modifiers ih =>
    have htext : modifiersText (m :: modifiers) ++ rest =
        m.keyword ++ " " ++ (modifiersText modifiers ++ rest) := by
      rw [modifiersText, List.map_cons, String.join_cons, String.append_assoc]
      rfl
    rw [htext, words_append_punctuation (by decide), ih, hkeyword]
    rfl

theorem declaredName?_modifiers {kind : String} (hkind : ∀ m : Modifier, m.keyword ≠ kind)
    (modifiers : List Modifier) (ws : List String) :
    declaredName? kind (modifiers.map Modifier.keyword ++ ws) = declaredName? kind ws := by
  induction modifiers with
  | nil => rfl
  | cons m modifiers ih =>
    have hmodifier : (Modifier.all.map Modifier.keyword).contains m.keyword := by
      cases m <;> decide
    rw [List.map_cons, List.cons_append, declaredName?, if_neg (hkind m), if_pos hmodifier, ih]

/-- A name is read off the line that declares it, which it stands on as it is. -/
theorem declaredName?_declaration {kind name tail : String} (modifiers : List Modifier)
    (hkind : ∀ m : Modifier, m.keyword ≠ kind) (hword : words kind = [kind])
    (hname : ∃ ws, words (name ++ tail) = name :: ws) (hfree : isReserved name = false) :
    declaredName? kind (words (modifiersText modifiers ++ (kind ++ " " ++ (name ++ tail)))) =
      some name := by
  obtain ⟨ws, hws⟩ := hname
  rw [words_modifiersText, words_append_punctuation (by decide), hword, hws,
    declaredName?_modifiers hkind, List.singleton_append, declaredName?, if_pos rfl,
    List.head?_cons, Option.filter_some, hfree]
  rfl

theorem IsIdentifier.words_append {name gap : String} (h : IsIdentifier name)
    (hgap : IsPunctuation gap) (back : String) :
    ∃ ws, words (name ++ (gap ++ back)) = name :: ws := by
  refine ⟨words back, ?_⟩
  rw [← String.append_assoc, words_append_punctuation hgap, h.words_eq]
  rfl

/-- A class without type parameters is read off its header. -/
theorem Code.ClassBlock.exists_declaring_line (c : ClassBlock) (level : Nat)
    (htypes : c.typeParameters = []) (hname : IsIdentifier c.name)
    (hfree : isReserved c.name = false) :
    ∃ line ∈ c.layout level, declaredName? "class" (words line.text) = some c.name := by
  refine ⟨_, c.header_mem_layout level, ?_⟩
  have hclass : ∀ m : Modifier, m.keyword ≠ "class" := by
    intro m
    cases m <;> decide
  have hword : words "class" = ["class"] := by decide
  have hread : ∀ tail, (∃ ws, words (c.name ++ tail) = c.name :: ws) →
      declaredName? "class" (words (modifiersText c.modifiers ++ ("class " ++ (c.name ++ tail)))) =
        some c.name :=
    fun _ htail => declaredName?_declaration c.modifiers hclass hword htail hfree
  have hnone : typeParametersText [] = "" := rfl
  rw [htypes, hnone, String.append_empty, String.append_assoc, String.append_assoc]
  cases c.base with
  | none => exact hread "" ⟨[], by rw [String.append_empty, hname.words_eq]⟩
  | some base => exact hread (" : " ++ base) (hname.words_append (by decide) base)

theorem Code.Fragment.head_ofText_append (text : String) (f : Fragment) :
    (Fragment.ofText text ++ f).head = text ++ f.head := rfl

/-- Among the lines of a method is one that starts with what it returns, its name and its type
parameters. -/
theorem Code.Method.exists_header (m : Method) (level : Nat) : ∃ line ∈ m.layout level, ∃ back,
    line.text = modifiersText m.modifiers ++ (m.returnType ++ " " ++
      (m.name ++ (typeParametersText m.typeParameters ++ back))) := by
  rw [layout]
  cases m.body with
  | expression e =>
    refine ⟨⟨level, _⟩, List.mem_append_right _ List.mem_cons_self,
      "(" ++ formalsText m.parameters ++ ")" ++
        String.join (m.constraints.map fun c => " " ++ c.toText) ++ " => " ++
        (e.layout level ++ Fragment.ofText ";").head, ?_⟩
    simp only [Fragment.head_ofText_append, String.append_assoc]
  | block statements =>
    refine ⟨⟨level, _⟩, List.mem_append_right _ List.mem_cons_self,
      "(" ++ formalsText m.parameters ++ ")" ++
        String.join (m.constraints.map fun c => " " ++ c.toText), ?_⟩
    simp only [String.append_assoc]

/-- A method with type parameters is read off its header. -/
theorem Code.Method.exists_declaring_line (m : Method) (level : Nat)
    (htypes : m.typeParameters ≠ []) (hkind : ∀ k : Modifier, k.keyword ≠ m.returnType)
    (hreturn : words m.returnType = [m.returnType]) (hname : IsIdentifier m.name)
    (hfree : isReserved m.name = false) :
    ∃ line ∈ m.layout level, declaredName? m.returnType (words line.text) = some m.name := by
  obtain ⟨line, hline, back, htext⟩ := m.exists_header level
  refine ⟨line, hline, ?_⟩
  have hopens : typeParametersText m.typeParameters ++ back =
      "<" ++ (", ".intercalate m.typeParameters ++ ">" ++ back) := by
    rw [typeParametersText, if_neg (by simpa using htypes)]
    simp only [String.append_assoc]
  rw [htext, hopens]
  exact declaredName?_declaration m.modifiers hkind hreturn (hname.words_append (by decide) _) hfree

namespace Settings

variable {s : Settings}

theorem triggerNames_subset_names : ∀ name ∈ s.triggerNames, name ∈ s.names :=
  fun _ => List.mem_append_left _

/-- The words of a namespace are its parts. -/
theorem words_namespace (h : ∀ name ∈ s.path, IsIdentifier name)
    (hspace : s.extensionsNamespace ≠ "") :
    words ("namespace " ++ s.extensionsNamespace) = "namespace" :: s.path := by
  have hpath : words s.extensionsNamespace = s.path := by
    rw [path, if_neg hspace] at h ⊢
    calc words s.extensionsNamespace
      _ = words (".".intercalate (namespaceSegments s.extensionsNamespace)) := by
        rw [intercalate_namespaceSegments]
      _ = (namespaceSegments s.extensionsNamespace).flatMap words :=
        words_intercalate (by decide) _
      _ = (namespaceSegments s.extensionsNamespace).flatMap fun name => [name] :=
        List.flatMap_congr fun name hname => (h name hname).words_eq
      _ = namespaceSegments s.extensionsNamespace := List.flatMap_singleton' _
  have hkeyword : "namespace " = "namespace" ++ " " := rfl
  have hword : words "namespace" = ["namespace"] := by decide
  rw [hkeyword, words_append_punctuation (by decide), hword, hpath]
  rfl

theorem declaresTriggers (h : ∀ name ∈ s.triggerNames, IsIdentifier name)
    (hfree : ∀ name ∈ s.triggerNames, isReserved name = false) : s.DeclaresTriggers := by
  simp only [triggerNames, List.forall_mem_append, List.forall_mem_cons] at h hfree
  obtain ⟨hpath, hclass, hmethod, hattribute, -⟩ := h
  obtain ⟨hpath', hclass', hmethod', hattribute', -⟩ := hfree
  obtain ⟨level, hholder⟩ : ∃ level, ∀ l ∈ s.holderClass.layout level, l ∈ s.triggersUnit.layout :=
    SourceUnit.exists_level (by simp [classes_triggersUnit])
  obtain ⟨level', hmarker⟩ : ∃ level, ∀ l ∈ s.markerClass.layout level, l ∈ s.triggersUnit.layout :=
    SourceUnit.exists_level (by simp [classes_triggersUnit])
  have hbody : ∀ l ∈ s.fallbackMethod.layout (level + 1), l ∈ s.triggersUnit.layout := fun l hl =>
    hholder l (ClassBlock.mem_layout_of_member (m := .method s.fallbackMethod)
      (List.mem_singleton_self _) hl)
  refine ⟨fun hspace => ?_, ?_, ?_, ?_⟩
  · refine ⟨_, SourceUnit.mem_layout_of_namespace
      (namespaces_triggersUnit hspace ▸ List.mem_singleton_self _) List.mem_cons_self, ?_⟩
    rw [words_namespace hpath hspace, declaredPath?, if_neg (by simpa using hpath')]
  · obtain ⟨line, hline, hread⟩ := s.holderClass.exists_declaring_line level rfl hclass hclass'
    exact ⟨line, hholder line hline, hread⟩
  · have hobject : ∀ k : Modifier, k.keyword ≠ "object" := by
      intro k
      cases k <;> decide
    have hword : words "object" = ["object"] := by decide
    obtain ⟨line, hline, hread⟩ := s.fallbackMethod.exists_declaring_line (level + 1)
      (List.cons_ne_nil "T" []) hobject hword hmethod hmethod'
    exact ⟨line, hbody line hline, hread⟩
  · obtain ⟨line, hline, hread⟩ :=
      s.markerClass.exists_declaring_line level' rfl hattribute hattribute'
    exact ⟨line, hmarker line hline, hread⟩

/-- Settings are valid if all their names are made of identifiers and the two classes differ. Of
valid settings the unit of the triggers declares what it is to declare exactly if none of these
identifiers that it writes is a reserved word. -/
theorem valid_names_declare_iff (s : Settings) :
    (s.validate = .ok () ↔
      (∀ name ∈ s.names, IsIdentifier name) ∧ s.extensionsClass ≠ s.staticAttribute) ∧
    (s.validate = .ok () →
      (s.DeclaresTriggers ↔ ∀ name ∈ s.triggerNames, isReserved name = false)) := by
  refine ⟨validate_eq_ok_iff_names, fun hvalid => ⟨?_, ?_⟩⟩
  · intro hdeclares
    have hpath : ∀ name ∈ s.path, isReserved name = false := by
      by_cases hspace : s.extensionsNamespace = ""
      · rw [path, if_pos hspace]
        exact List.forall_mem_nil _
      · obtain ⟨line, -, hread⟩ := hdeclares.path hspace
        exact isReserved_of_declaredPath? hread
    obtain ⟨_, -, hholder⟩ := hdeclares.holder
    obtain ⟨_, -, hmethod⟩ := hdeclares.method
    obtain ⟨_, -, hmarker⟩ := hdeclares.marker
    simp only [triggerNames, List.forall_mem_append, List.forall_mem_cons]
    exact ⟨hpath, isReserved_of_declaredName? hholder, isReserved_of_declaredName? hmethod,
      isReserved_of_declaredName? hmarker, List.forall_mem_nil _⟩
  · have hnames := (validate_eq_ok_iff_names.1 hvalid).1
    exact declaresTriggers fun name hname => hnames name (triggerNames_subset_names name hname)

theorem default_declares : ({} : Settings).DeclaresTriggers :=
  ((valid_names_declare_iff {}).2 (by decide)).2 (by decide)

/-- The factory method is called like a reserved word. -/
def reservedMethod : Settings := { factoryMethod := "class" }

theorem reservedMethod_undeclared : reservedMethod.validate = .ok () ∧
    "class" ∈ reservedMethod.names ∧ isReserved "class" = true ∧
    ¬reservedMethod.DeclaresTriggers := by
  refine ⟨by decide, by decide, by decide, fun h => ?_⟩
  obtain ⟨line, -, hread⟩ := h.method
  cases isReserved_of_declaredName? hread

end Settings

end EventWrap
