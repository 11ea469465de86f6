import EventWrap.Proofs.Code.Tidy

/-!
# Code without documentation

A declaration without its documentation comments is laid out in the lines of the declaration that
are not documentation: where the lines stand, how deep they are and which lines are empty does not
depend on the comments. In a unit the same holds of the directive at its head.
-/

namespace EventWrap.Code

open Text Line

/-! ## Lines that stay -/

namespace Line

/-- A line of code, or the line with nothing on it. -/
def IsPlain (l : Line) : Prop := l = empty ∨ l.IsCode

theorem IsPlain.oneLine {l : Line} (h : l.IsPlain) : IsOneLine l.text := by
  rcases h with rfl | h
  · decide
  · exact h.oneLine

theorem IsPlain.not_isDocumentation {l : Line} (h : l.IsPlain) :
    isDocumentation l.chars = false := by
  rcases h with rfl | h
  · decide
  · exact h.not_isDocumentation

theorem IsPlain.not_isNullableDirective {l : Line} (h : l.IsPlain) :
    isNullableDirective l.chars = false := by
  rcases h with rfl | h
  · decide
  · exact h.not_isNullableDirective

theorem not_isNullableDirective {l : Line} (h : l.IsPlain ∨ l.IsDoc) :
    isNullableDirective l.chars = false :=
  h.elim (·.not_isNullableDirective) (·.not_isNullableDirective)

variable {goes : List Char → Bool}

theorem without_append (goes : List Char → Bool) (lines lines' : List Line) :
    without goes (lines ++ lines') = without goes lines ++ without goes lines' :=
  List.filter_append ..

theorem without_eq_self {lines : List Line} (h : ∀ l ∈ lines, goes l.chars = false) :
    without goes lines = lines :=
  List.filter_eq_self.2 fun l hl => by rw [h l hl, Bool.not_false]

theorem without_eq_nil {lines : List Line} (h : ∀ l ∈ lines, goes l.chars = true) :
    without goes lines = [] :=
  List.filter_eq_nil_iff.2 fun l hl => by rw [h l hl, Bool.not_true]; exact Bool.false_ne_true

theorem without_of_isCode {lines : List Line} (h : ∀ l ∈ lines, l.IsCode) :
    without isDocumentation lines = lines :=
  without_eq_self fun l hl => (h l hl).not_isDocumentation

/-- Empty lines between groups stay where they are. -/
theorem without_spaced (hnothing : goes [] = false) (groups : List (List Line)) :
    without goes (spaced groups) = spaced (groups.map (without goes)) := by
  fun_induction spaced groups with
  | case1 => rfl
  | case2 => rfl
  | case3 lines rest hrest ih =>
    obtain ⟨next, others, rfl⟩ := List.exists_cons_of_ne_nil hrest
    have hempty : without goes [Line.empty] = [Line.empty] :=
      without_eq_self (List.forall_mem_singleton.2 hnothing)
    rw [without_append, ← List.singleton_append, without_append, hempty, ih]
    rfl

/-- Behind the first of some groups stand empty lines and the lines of the others. -/
theorem exists_spaced_cons (lines : List Line) (groups : List (List Line)) :
    ∃ rest, (∀ lines', spaced (lines' :: groups) = lines' ++ rest) ∧
      ∀ l ∈ rest, l = empty ∨ ∃ group ∈ groups, l ∈ group := by
  induction groups generalizing lines with
  | nil => exact ⟨[], fun lines' => (List.append_nil lines').symm, List.forall_mem_nil _⟩
  | cons next others ih =>
    obtain ⟨rest, heq, hrest⟩ := ih next
    refine ⟨empty :: (next ++ rest), fun lines' => by rw [spaced, heq]; exact nofun, ?_⟩
    refine List.forall_mem_cons.2
      ⟨.inl rfl, List.forall_mem_append.2 ⟨fun l hl => ?_, fun l hl => ?_⟩⟩
    · exact .inr ⟨next, List.mem_cons_self, hl⟩
    · refine (hrest l hl).imp_right fun ⟨group, hgroup, hl⟩ => ?_
      exact ⟨group, List.mem_cons_of_mem _ hgroup, hl⟩

theorem forall_mem_spaced {P : Line → Prop} (hempty : P empty) {groups : List (List Line)}
    (h : ∀ lines ∈ groups, ∀ l ∈ lines, P l) : ∀ l ∈ spaced groups, P l := by
  cases groups with
  | nil => exact List.forall_mem_nil _
  | cons first others =>
    obtain ⟨rest, heq, hrest⟩ := exists_spaced_cons first others
    rw [heq, List.forall_mem_append]
    refine ⟨h first List.mem_cons_self, fun l hl => ?_⟩
    rcases hrest l hl with rfl | ⟨group, hgroup, hl⟩
    · exact hempty
    · exact h group (List.mem_cons_of_mem _ hgroup) l hl

/-- No line of a group is left out. -/
theorem mem_spaced {l : Line} {lines : List Line} {groups : List (List Line)}
    (hlines : lines ∈ groups) (hl : l ∈ lines) : l ∈ spaced groups := by
  fun_induction spaced groups with
  | case1 => cases hlines
  | case2 only =>
    obtain rfl := List.mem_singleton.1 hlines
    exact hl
  | case3 first rest hrest ih =>
    rcases List.mem_cons.1 hlines with rfl | hlines
    · exact List.mem_append_left _ hl
    · exact List.mem_append_right _ (List.mem_cons_of_mem _ (ih hlines))

end Line

/-! ## Members -/

structure Doc.Tidy (d : Doc) : Prop where
  params : ∀ q ∈ d.params, IsOneLine q.1 ∧ IsOneLine q.2

structure AttributeUse.Tidy (a : AttributeUse) : Prop where
  name : IsOneLine a.name
  arguments : AllTidy a.arguments

structure Constraint.Tidy (c : Constraint) : Prop where
  parameter : IsOneLine c.parameter
  bounds : ∀ bound ∈ c.bounds, IsOneLine bound

structure Field.Tidy (f : Field) : Prop where
  modifiers : f.modifiers ≠ []
  type : IsOneLine f.type
  name : IsOneLine f.name

structure Constructor.Tidy (c : Constructor) : Prop where
  doc : ∀ d ∈ c.doc, d.Tidy
  modifiers : c.modifiers ≠ []
  name : IsOneLine c.name
  parameters : ∀ f ∈ c.parameters, f.Tidy
  baseArguments : ∀ arguments ∈ c.baseArguments, AllTidy arguments
  body : StatementsTidy c.body

def Getter.Tidy : Getter → Prop
  | .expression e => e.Tidy
  | .automatic => True

structure Property.Tidy (p : Property) : Prop where
  doc : ∀ d ∈ p.doc, d.Tidy
  attributes : ∀ a ∈ p.attributes, a.Tidy
  modifiers : p.modifiers ≠ []
  type : IsOneLine p.type
  name : IsOneLine p.name
  getter : p.getter.Tidy

structure Method.Tidy (m : Method) : Prop where
  doc : ∀ d ∈ m.doc, d.Tidy
  attributes : ∀ a ∈ m.attributes, a.Tidy
  modifiers : m.modifiers ≠ []
  returnType : IsOneLine m.returnType
  name : IsOneLine m.name
  typeParameters : ∀ name ∈ m.typeParameters, IsOneLine name
  parameters : ∀ f ∈ m.parameters, f.Tidy
  constraints : ∀ c ∈ m.constraints, c.Tidy
  body : m.body.Tidy

namespace Member

def Tidy : Member → Prop
  | .field f => f.Tidy
  | .constructor c => c.Tidy
  | .property p => p.Tidy
  | .method m => m.Tidy

def doc : Member → Option Doc
  | .field _ => none
  | .constructor c => c.doc
  | .property p => p.doc
  | .method m => m.doc

def undocumented : Member → Member
  | .field f => .field f
  | .constructor c => .constructor { c with doc := none }
  | .property p => .property { p with doc := none }
  | .method m => .method { m with doc := none }

end Member

theorem isDoc_line {text : String} (h : IsOneLine text) (level : Nat) :
    Line.IsDoc ⟨level, "/// " ++ text⟩ := by
  refine ⟨isOneLine_append.2 ⟨by decide, h⟩, ?_⟩
  rw [String.toList_append]
  exact ⟨' ' :: text.toList, rfl⟩

theorem Doc.isDoc_layout {d : Doc} (h : d.Tidy) (level : Nat) : ∀ l ∈ d.layout level, l.IsDoc := by
  have hopen : Line.IsDoc ⟨level, "/// <summary>"⟩ :=
    isDoc_line (show IsOneLine "<summary>" by decide) level
  have hclose : Line.IsDoc ⟨level, "/// </summary>"⟩ :=
    isDoc_line (show IsOneLine "</summary>" by decide) level
  rw [Doc.layout, List.forall_mem_append, List.forall_mem_cons, List.forall_mem_cons]
  refine ⟨⟨hopen, ?_⟩, hclose, ?_⟩
  · exact List.forall_mem_map.2 fun line hline => isDoc_line (isOneLine_of_mem_lines hline) level
  · refine List.forall_mem_map.2 fun q hq => ?_
    obtain ⟨hname, htext⟩ := h.params q hq
    have hline : IsOneLine ("<param name=\"" ++ q.1 ++ "\">" ++ q.2 ++ "</param>") := by
      simp only [isOneLine_append]
      exact ⟨⟨⟨⟨by decide, hname⟩, by decide⟩, htext⟩, by decide⟩
    have hfront : "/// " ++ "<param name=\"" = "/// <param name=\"" := by decide
    have hdoc := isDoc_line hline level
    simp only [← String.append_assoc, hfront] at hdoc
    exact hdoc

theorem isDoc_docLines {doc : Option Doc} (h : ∀ d ∈ doc, d.Tidy) (level : Nat) :
    ∀ l ∈ docLines level doc, l.IsDoc := by
  cases doc with
  | none => exact List.forall_mem_nil _
  | some d => exact Doc.isDoc_layout (h d rfl) level

theorem AttributeUse.isCode_layout {a : AttributeUse} (h : a.Tidy) (level : Nat) :
    ∀ l ∈ (a.layout level).toLines level, l.IsCode := by
  rw [AttributeUse.layout]
  split
  · refine (Fragment.IsCode.ofText ?_).toLines (opens_append (opens_append (by decide) _) _) level
    exact isOneLine_append.2 ⟨isOneLine_append.2 ⟨by decide, h.name⟩, by decide⟩
  · refine (isCode_listed ?_ (isCode_layoutAll level h.arguments) (by decide)).toLines
      (Fragment.opens_head_append (opens_append (opens_append (by decide) _) _) _) level
    exact isOneLine_append.2 ⟨isOneLine_append.2 ⟨by decide, h.name⟩, by decide⟩

theorem isCode_attributeLines {attributes : List AttributeUse} (h : ∀ a ∈ attributes, a.Tidy)
    (level : Nat) : ∀ l ∈ attributeLines level attributes, l.IsCode := by
  intro l hl
  obtain ⟨a, ha, hl⟩ := List.mem_flatMap.1 hl
  exact AttributeUse.isCode_layout (h a ha) level l hl

theorem Constraint.isOneLine_toText {c : Constraint} (h : c.Tidy) : IsOneLine c.toText :=
  isOneLine_iff.2 (Constraint.consists_toText ofMarks_ne_lineFeed (isOneLine_iff.1 h.parameter)
    fun bound hbound => isOneLine_iff.1 (h.bounds bound hbound))

theorem forall_mem_inBraces {P : Line → Prop} {level : Nat} {lines : List Line}
    (hcode : ∀ l : Line, l.IsCode → P l) (h : ∀ l ∈ lines, P l) :
    ∀ l ∈ inBraces level lines, P l := by
  rw [inBraces, List.forall_mem_cons, List.forall_mem_append, List.forall_mem_singleton]
  exact ⟨hcode _ (isCode_brace level).1, h, hcode _ (isCode_brace level).2⟩

theorem without_inBraces (level : Nat) (lines : List Line) :
    without isDocumentation (inBraces level lines) =
      inBraces level (without isDocumentation lines) := by
  have hopen := without_of_isCode (List.forall_mem_singleton.2 (isCode_brace level).1)
  have hclose := without_of_isCode (List.forall_mem_singleton.2 (isCode_brace level).2)
  rw [inBraces, ← List.singleton_append, without_append, without_append, hopen, hclose]
  rfl

/-- A head, then an expression that ends the line. -/
theorem isCode_headed {head : String} (hhead : IsOneLine head) (hopens : opens head) (level : Nat)
    {e : Expr} (he : e.Tidy) :
    ∀ l ∈ (Fragment.ofText (head ++ " => ") ++
      (e.layout level ++ Fragment.ofText ";")).toLines level, l.IsCode := by
  have hline : IsOneLine (head ++ " => ") := isOneLine_append.2 ⟨hhead, by decide⟩
  exact ((Fragment.IsCode.ofText hline).append
    ((Expr.isCode_layout level he).append (.ofText (by decide)))).toLines
      (Fragment.opens_head_append (opens_append hopens _) _) level

theorem Field.isCode_layout {f : Field} (h : f.Tidy) (level : Nat) :
    ∀ l ∈ f.layout level, l.IsCode := by
  refine List.forall_mem_singleton.2 ⟨?_, ?_⟩
  · simp only [isOneLine_append]
    exact ⟨⟨⟨⟨isOneLine_modifiersText _, h.type⟩, by decide⟩, h.name⟩, by decide⟩
  · simp only [String.append_assoc]
    exact opens_modifiersText h.modifiers _

theorem Constructor.isCode_layout {c : Constructor} (h : c.Tidy) (level : Nat) :
    ∀ l ∈ Constructor.layout level { c with doc := none }, l.IsCode := by
  have hhead : IsOneLine (modifiersText c.modifiers ++ c.name ++ "(" ++ formalsText c.parameters ++
      ")") := by
    simp only [isOneLine_append]
    exact ⟨⟨⟨⟨isOneLine_modifiersText _, h.name⟩, by decide⟩, isOneLine_formalsText h.parameters⟩,
      by decide⟩
  have hopens : opens (modifiersText c.modifiers ++ c.name ++ "(" ++ formalsText c.parameters ++
      ")") := by
    simp only [String.append_assoc]
    exact opens_modifiersText h.modifiers _
  have hbody : ∀ l ∈ inBraces level (layoutStatements (level + 1) c.body), l.IsCode :=
    forall_mem_inBraces (fun _ hl => hl) (isCode_layoutStatements (level + 1) h.body)
  have hbase := h.baseArguments
  rw [Constructor.layout]
  generalize modifiersText c.modifiers ++ c.name ++ "(" ++ formalsText c.parameters ++ ")" = head
    at hhead hopens ⊢
  refine List.forall_mem_append.2 ⟨List.forall_mem_append.2 ⟨List.forall_mem_nil _, ?_⟩, hbody⟩
  cases hnamed : c.baseArguments with
  | none => exact (Fragment.IsCode.ofText hhead).toLines hopens level
  | some arguments =>
    have hline : IsOneLine (head ++ " : base(") := isOneLine_append.2 ⟨hhead, by decide⟩
    exact (isCode_listed hline (isCode_layoutAll level (hbase arguments hnamed))
      (by decide)).toLines (Fragment.opens_head_append (opens_append hopens _) _) level

theorem Property.isCode_layout {p : Property} (h : p.Tidy) (level : Nat) :
    ∀ l ∈ Property.layout level { p with doc := none }, l.IsCode := by
  have hhead : IsOneLine (modifiersText p.modifiers ++ p.type ++ " " ++ p.name) := by
    simp only [isOneLine_append]
    exact ⟨⟨⟨isOneLine_modifiersText _, h.type⟩, by decide⟩, h.name⟩
  have hopens : opens (modifiersText p.modifiers ++ p.type ++ " " ++ p.name) := by
    simp only [String.append_assoc]
    exact opens_modifiersText h.modifiers _
  have hgetter := h.getter
  rw [Property.layout]
  generalize modifiersText p.modifiers ++ p.type ++ " " ++ p.name = head at hhead hopens ⊢
  refine List.forall_mem_append.2
    ⟨List.forall_mem_append.2 ⟨List.forall_mem_nil _, isCode_attributeLines h.attributes level⟩, ?_⟩
  cases hp : p.getter with
  | expression e =>
    rw [hp] at hgetter
    exact isCode_headed hhead hopens level hgetter
  | automatic =>
    have hline : IsOneLine (head ++ " \x7b get; \x7d") := isOneLine_append.2 ⟨hhead, by decide⟩
    exact (Fragment.IsCode.ofText hline).toLines (opens_append hopens _) level

theorem Method.isCode_layout {m : Method} (h : m.Tidy) (level : Nat) :
    ∀ l ∈ Method.layout level { m with doc := none }, l.IsCode := by
  have hconstraints : IsOneLine (String.join (m.constraints.map fun c => " " ++ c.toText)) := by
    refine isOneLine_join.2 (List.forall_mem_map.2 fun c hc => ?_)
    exact isOneLine_append.2 ⟨by decide, Constraint.isOneLine_toText (h.constraints c hc)⟩
  have hhead : IsOneLine (modifiersText m.modifiers ++ m.returnType ++ " " ++ m.name ++
      typeParametersText m.typeParameters ++ "(" ++ formalsText m.parameters ++ ")" ++
      String.join (m.constraints.map fun c => " " ++ c.toText)) := by
    simp only [isOneLine_append]
    exact ⟨⟨⟨⟨⟨⟨⟨⟨isOneLine_modifiersText _, h.returnType⟩, by decide⟩, h.name⟩,
      isOneLine_typeParametersText h.typeParameters⟩, by decide⟩,
      isOneLine_formalsText h.parameters⟩, by decide⟩, hconstraints⟩
  have hopens : opens (modifiersText m.modifiers ++ m.returnType ++ " " ++ m.name ++
      typeParametersText m.typeParameters ++ "(" ++ formalsText m.parameters ++ ")" ++
      String.join (m.constraints.map fun c => " " ++ c.toText)) := by
    simp only [String.append_assoc]
    exact opens_modifiersText h.modifiers _
  have hbody := h.body
  rw [Method.layout]
  generalize modifiersText m.modifiers ++ m.returnType ++ " " ++ m.name ++
      typeParametersText m.typeParameters ++ "(" ++ formalsText m.parameters ++ ")" ++
      String.join (m.constraints.map fun c => " " ++ c.toText) = head at hhead hopens ⊢
  refine List.forall_mem_append.2
    ⟨List.forall_mem_append.2 ⟨List.forall_mem_nil _, isCode_attributeLines h.attributes level⟩, ?_⟩
  cases hm : m.body with
  | expression e =>
    rw [hm] at hbody
    exact isCode_headed hhead hopens level hbody
  | block statements =>
    rw [hm] at hbody
    have hstatements := isCode_layoutStatements (level + 1) hbody
    exact List.forall_mem_cons.2
      ⟨⟨hhead, hopens⟩, forall_mem_inBraces (fun _ hl => hl) hstatements⟩

namespace Member

variable {m : Member}

theorem isCode_layout (h : m.Tidy) (level : Nat) :
    ∀ l ∈ m.undocumented.layout level, l.IsCode := by
  cases m with
  | field f => exact Field.isCode_layout h level
  | constructor c => exact Constructor.isCode_layout h level
  | property p => exact Property.isCode_layout h level
  | method m => exact Method.isCode_layout h level

/-- The documentation of a member stands in front of it. -/
theorem layout_eq (m : Member) (level : Nat) :
    m.layout level = docLines level m.doc ++ m.undocumented.layout level := by
  cases m with
  | field f => rfl
  | constructor c => exact List.append_assoc ..
  | property p => exact List.append_assoc ..
  | method m => exact List.append_assoc ..

theorem isDoc_docLines (h : m.Tidy) (level : Nat) : ∀ l ∈ docLines level m.doc, l.IsDoc := by
  cases m with
  | field f => exact List.forall_mem_nil _
  | constructor c => exact Code.isDoc_docLines (Constructor.Tidy.doc h) level
  | property p => exact Code.isDoc_docLines (Property.Tidy.doc h) level
  | method m => exact Code.isDoc_docLines (Method.Tidy.doc h) level

theorem without_layout (h : m.Tidy) (level : Nat) :
    without isDocumentation (m.layout level) = m.undocumented.layout level := by
  rw [layout_eq, without_append,
    without_eq_nil fun l hl => (m.isDoc_docLines h level l hl).isDocumentation,
    without_of_isCode (isCode_layout h level), List.nil_append]

end Member

/-! ## Classes -/

structure ClassBlock.Tidy (c : ClassBlock) : Prop where
  doc : ∀ d ∈ c.doc, d.Tidy
  attributes : ∀ a ∈ c.attributes, a.Tidy
  modifiers : c.modifiers ≠ []
  name : IsOneLine c.name
  typeParameters : ∀ name ∈ c.typeParameters, IsOneLine name
  base : ∀ base ∈ c.base, IsOneLine base
  constraints : ∀ k ∈ c.constraints, k.Tidy
  members : ∀ m ∈ c.members, m.Tidy

namespace ClassBlock

def undocumented (c : ClassBlock) : ClassBlock :=
  { c with doc := none, members := c.members.map (·.undocumented) }

/-- The lines of a class between its documentation and its members. -/
def frontLines (level : Nat) (c : ClassBlock) : List Line :=
  attributeLines level c.attributes ++
    ⟨level, modifiersText c.modifiers ++ "class " ++ c.name ++
      typeParametersText c.typeParameters ++
      (match c.base with | none => "" | some base => " : " ++ base)⟩ ::
    c.constraints.map fun k => ⟨level + 1, k.toText⟩

theorem layout_eq (c : ClassBlock) (level : Nat) :
    c.layout level = docLines level c.doc ++ (c.frontLines level ++
      inBraces level (spaced (c.members.map (·.layout (level + 1))))) := by
  rw [← List.append_assoc, frontLines, ← List.append_assoc]
  rfl

variable {c : ClassBlock}

theorem isCode_frontLines (h : c.Tidy) (level : Nat) : ∀ l ∈ c.frontLines level, l.IsCode := by
  refine List.forall_mem_append.2 ⟨isCode_attributeLines h.attributes level,
    List.forall_mem_cons.2 ⟨⟨?_, ?_⟩, List.forall_mem_map.2 fun k hk => ?_⟩⟩
  · simp only [isOneLine_append]
    refine ⟨⟨⟨⟨isOneLine_modifiersText _, by decide⟩, h.name⟩,
      isOneLine_typeParametersText h.typeParameters⟩, ?_⟩
    cases hbase : c.base with
    | none => decide
    | some base => exact isOneLine_append.2 ⟨by decide, h.base base hbase⟩
  · simp only [String.append_assoc]
    exact opens_modifiersText h.modifiers _
  · refine ⟨Constraint.isOneLine_toText (h.constraints k hk), ?_⟩
    simp only [Constraint.toText, String.append_assoc]
    exact opens_append (by decide) _

theorem without_layout (h : c.Tidy) (level : Nat) :
    without isDocumentation (c.layout level) = c.undocumented.layout level := by
  have hmembers : (c.members.map (·.layout (level + 1))).map (without isDocumentation) =
      c.undocumented.members.map (·.layout (level + 1)) := by
    rw [undocumented, List.map_map, List.map_map]
    exact List.map_congr_left fun m hm => Member.without_layout (h.members m hm) (level + 1)
  rw [layout_eq, layout_eq, without_append, without_append,
    without_eq_nil fun l hl => (isDoc_docLines h.doc level l hl).isDocumentation,
    without_of_isCode (isCode_frontLines h level), without_inBraces, without_spaced rfl, hmembers]
  rfl

/-- Every line of a class is a line of code or empty, or documents. -/
theorem isPlain_or_isDoc (h : c.Tidy) (level : Nat) :
    ∀ l ∈ c.layout level, l.IsPlain ∨ l.IsDoc := by
  have hmember : ∀ m ∈ c.members, ∀ l ∈ m.layout (level + 1), l.IsPlain ∨ l.IsDoc := by
    intro m hm
    rw [Member.layout_eq, List.forall_mem_append]
    exact ⟨fun l hl => .inr (m.isDoc_docLines (h.members m hm) _ l hl),
      fun l hl => .inl (.inr (Member.isCode_layout (h.members m hm) _ l hl))⟩
  rw [layout_eq, List.forall_mem_append, List.forall_mem_append]
  refine ⟨fun l hl => .inr (isDoc_docLines h.doc level l hl),
    fun l hl => .inl (.inr (isCode_frontLines h level l hl)), ?_⟩
  exact forall_mem_inBraces (fun _ hl => .inl (.inr hl))
    (forall_mem_spaced (.inl (.inl rfl)) (List.forall_mem_map.2 hmember))

end ClassBlock

/-! ## Units -/

structure SourceUnit.Tidy (u : SourceUnit) : Prop where
  comments : ∀ text ∈ u.comments, IsOneLine text
  commented : u.comments ≠ []
  names : ∀ n ∈ u.namespaces, IsOneLine n.name
  classes : ∀ n ∈ u.namespaces, ∀ c ∈ n.classes, c.Tidy
  globals : ∀ c ∈ u.globals, c.Tidy

namespace NamespaceBlock

def undocumented (n : NamespaceBlock) : NamespaceBlock :=
  { n with classes := n.classes.map (·.undocumented) }

variable {n : NamespaceBlock}

theorem isCode_head (hname : IsOneLine n.name) : Line.IsCode ⟨0, "namespace " ++ n.name⟩ :=
  ⟨isOneLine_append.2 ⟨by decide, hname⟩, opens_append (by decide) _⟩

theorem without_layout (hname : IsOneLine n.name) (hclasses : ∀ c ∈ n.classes, c.Tidy) :
    without isDocumentation n.layout = n.undocumented.layout := by
  have hgroups : (n.classes.map (·.layout 1)).map (without isDocumentation) =
      n.undocumented.classes.map (·.layout 1) := by
    rw [undocumented, List.map_map, List.map_map]
    exact List.map_congr_left fun c hc => ClassBlock.without_layout (hclasses c hc) 1
  have hhead := without_of_isCode (List.forall_mem_singleton.2 (isCode_head hname))
  rw [layout, ← List.singleton_append, without_append, hhead, without_inBraces, without_spaced rfl,
    hgroups]
  rfl

theorem isPlain_or_isDoc (hname : IsOneLine n.name) (hclasses : ∀ c ∈ n.classes, c.Tidy) :
    ∀ l ∈ n.layout, l.IsPlain ∨ l.IsDoc := by
  refine List.forall_mem_cons.2 ⟨.inl (.inr (isCode_head hname)), ?_⟩
  exact forall_mem_inBraces (fun _ hl => .inl (.inr hl)) (forall_mem_spaced (.inl (.inl rfl))
    (List.forall_mem_map.2 fun c hc => ClassBlock.isPlain_or_isDoc (hclasses c hc) 1))

end NamespaceBlock

namespace SourceUnit

def undocumented (u : SourceUnit) : SourceUnit :=
  { u with
    namespaces := u.namespaces.map (·.undocumented)
    globals := u.globals.map (·.undocumented) }

/-- The unit without the directive at its head. -/
def undirected (u : SourceUnit) : SourceUnit := { u with nullable := false }

/-- The lines of the blocks of a unit, with those of the classes of no namespace. -/
def groups (u : SourceUnit) : List (List Line) :=
  u.namespaces.map (·.layout) ++ u.globals.map (·.layout 0)

def commentLines (u : SourceUnit) : List Line := u.comments.map fun text => ⟨0, "// " ++ text⟩

def directiveLine : Line := ⟨0, "#nullable enable"⟩

variable {u : SourceUnit}

theorem chars_comment (text : String) :
    Line.chars ⟨0, "// " ++ text⟩ = '/' :: '/' :: ' ' :: text.toList := by
  rw [chars, String.toList_append, String.toList_append]
  rfl

theorem comment_stays (u : SourceUnit) : ∀ l ∈ u.commentLines,
    isDocumentation l.chars = false ∧ isNullableDirective l.chars = false := by
  refine List.forall_mem_map.2 fun text _ => ?_
  rw [chars_comment]
  exact ⟨rfl, rfl⟩

theorem preamble_eq (u : SourceUnit) :
    u.preamble = u.commentLines ++ if u.nullable then [directiveLine] else [] := rfl

theorem layout_eq (h : u.comments ≠ []) : u.layout = spaced (u.preamble :: u.groups) := by
  have hpreamble : u.preamble.isEmpty = false := by
    rw [List.isEmpty_eq_false_iff, preamble_eq, commentLines]
    exact List.append_ne_nil_of_left_ne_nil (fun hnone => h (List.map_eq_nil_iff.1 hnone)) _
  rw [layout, hpreamble, groups]
  rfl

theorem isPlain_or_isDoc_groups (h : u.Tidy) :
    ∀ lines ∈ u.groups, ∀ l ∈ lines, l.IsPlain ∨ l.IsDoc :=
  List.forall_mem_append.2
    ⟨List.forall_mem_map.2 fun n hn => n.isPlain_or_isDoc (h.names n hn) (h.classes n hn),
      List.forall_mem_map.2 fun c hc => ClassBlock.isPlain_or_isDoc (h.globals c hc) 0⟩

/-- What stands below the head of a unit does not depend on the head. -/
theorem exists_layout (h : u.Tidy) : ∃ rest, u.layout = u.preamble ++ rest ∧
    u.undirected.layout = u.commentLines ++ rest ∧ ∀ l ∈ rest, l.IsPlain ∨ l.IsDoc := by
  obtain ⟨rest, heq, hrest⟩ := exists_spaced_cons u.preamble u.groups
  refine ⟨rest, ?_, ?_, fun l hl => ?_⟩
  · rw [layout_eq h.commented, heq]
  · have hundirected : u.undirected.preamble = u.commentLines := List.append_nil _
    rw [layout_eq (u := u.undirected) h.commented, hundirected]
    exact heq u.commentLines
  · rcases hrest l hl with rfl | ⟨lines, hlines, hl⟩
    · exact .inl (.inl rfl)
    · exact isPlain_or_isDoc_groups h lines hlines l hl

theorem oneLine_layout (h : u.Tidy) : ∀ l ∈ u.layout, IsOneLine l.text := by
  obtain ⟨rest, heq, -, hrest⟩ := exists_layout h
  rw [heq, preamble_eq, List.forall_mem_append, List.forall_mem_append]
  refine ⟨⟨?_, ?_⟩, fun l hl => (hrest l hl).elim (·.oneLine) (·.oneLine)⟩
  · exact List.forall_mem_map.2 fun text htext =>
      isOneLine_append.2 ⟨by decide, h.comments text htext⟩
  · split
    · exact List.forall_mem_singleton.2 (by decide)
    · exact List.forall_mem_nil _

/-- The text of a unit without documentation is the text of the unit without the lines of it. -/
theorem render_undocumented (h : u.Tidy) :
    u.undocumented.render = withoutLines isDocumentation u.render := by
  have hpreamble : without isDocumentation u.preamble = u.preamble := by
    refine without_eq_self ?_
    rw [preamble_eq, List.forall_mem_append]
    refine ⟨fun l hl => (comment_stays u l hl).1, ?_⟩
    split
    · exact List.forall_mem_singleton.2 (by decide)
    · exact List.forall_mem_nil _
  have hnamespaces : (u.namespaces.map (·.layout)).map (without isDocumentation) =
      u.undocumented.namespaces.map (·.layout) := by
    rw [undocumented, List.map_map, List.map_map]
    exact List.map_congr_left fun n hn => n.without_layout (h.names n hn) (h.classes n hn)
  have hglobals : (u.globals.map (·.layout 0)).map (without isDocumentation) =
      u.undocumented.globals.map (·.layout 0) := by
    rw [undocumented, List.map_map, List.map_map]
    exact List.map_congr_left fun c hc => ClassBlock.without_layout (h.globals c hc) 0
  have hgroups : u.groups.map (without isDocumentation) = u.undocumented.groups := by
    rw [groups, List.map_append, hnamespaces, hglobals]
    rfl
  have hlayout : u.undocumented.layout = without isDocumentation u.layout := by
    rw [layout_eq h.commented, layout_eq (u := u.undocumented) h.commented, without_spaced rfl,
      List.map_cons, hpreamble, hgroups]
    rfl
  rw [render, hlayout, textOf_without rfl (oneLine_layout h), render]

/-- The text of a unit without the directive is the text of the unit without the line of it. -/
theorem render_undirected (h : u.Tidy) :
    u.undirected.render = withoutLines isNullableDirective u.render := by
  obtain ⟨rest, heq, hundirected, hrest⟩ := exists_layout h
  have hdirective :
      without isNullableDirective (if u.nullable then [directiveLine] else []) = [] := by
    split <;> decide
  have hlayout : u.undirected.layout = without isNullableDirective u.layout := by
    rw [heq, hundirected, preamble_eq, without_append, without_append, hdirective, List.append_nil,
      without_eq_self fun l hl => (comment_stays u l hl).2,
      without_eq_self fun l hl => not_isNullableDirective (hrest l hl)]
  rw [render, hlayout, textOf_without rfl (oneLine_layout h), render]

/-- A unit has its directive on one line, and on no other. -/
theorem count_directive (h : u.Tidy) (hnullable : u.nullable) :
    (u.render.toList.splitOn '\n').countP isNullableDirective = 1 := by
  obtain ⟨rest, heq, -, hrest⟩ := exists_layout h
  have hcount : ∀ {lines : List Line}, (∀ l ∈ lines, isNullableDirective l.chars = false) →
      (lines.map chars).countP isNullableDirective = 0 := by
    intro lines hlines
    rw [List.countP_eq_zero, List.forall_mem_map]
    exact fun l hl => Bool.eq_false_iff.1 (hlines l hl)
  have hcomments := hcount fun l hl => (comment_stays u l hl).2
  have hbelow := hcount fun l hl => not_isNullableDirective (hrest l hl)
  rw [render, splitOn_textOf (oneLine_layout h), heq, preamble_eq, if_pos hnullable,
    List.map_append, List.map_append, List.countP_append, List.countP_append,
    List.countP_append, hcomments, hbelow]
  decide

end SourceUnit

end EventWrap.Code
