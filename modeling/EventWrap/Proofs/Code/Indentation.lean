import EventWrap.Proofs.Code.Undocumented
import EventWrap.Proofs.Code.Blocks

/-!
# Indentation of units

The lines of declarations stand at the level that these are laid out at, documentation included,
and what they hold in braces one level deeper. The constraints of a class are marked, as they stand
one level deeper though no brace is open for them. So a unit is nested from no open brace to none,
and its text shows it.
-/

namespace EventWrap.Code

open Text Line Fragment

/-! ## Texts as written -/

def AttributeUse.texts (a : AttributeUse) : List String := a.name :: textsOfAll a.arguments

def Constraint.texts (k : Constraint) : List String := k.parameter :: k.bounds

def Getter.texts : Getter → List String
  | .expression e => e.texts
  | .automatic => []

def Field.texts (f : Field) : List String := [f.type, f.name]

def Constructor.texts (c : Constructor) : List String :=
  c.name :: (c.parameters.flatMap (·.texts) ++
    (c.baseArguments.elim [] textsOfAll ++ textsOfStatements c.body))

def Property.texts (p : Property) : List String :=
  p.attributes.flatMap (·.texts) ++ p.type :: p.name :: p.getter.texts

def Method.texts (m : Method) : List String :=
  m.attributes.flatMap (·.texts) ++ m.returnType :: m.name :: (m.typeParameters ++
    (m.parameters.flatMap (·.texts) ++ (m.constraints.flatMap (·.texts) ++ m.body.texts)))

def Member.texts : Member → List String
  | .field f => f.texts
  | .constructor c => c.texts
  | .property p => p.texts
  | .method m => m.texts

/-- The texts of a class as they are written, those of documentation left out. -/
def ClassBlock.texts (c : ClassBlock) : List String :=
  c.attributes.flatMap (·.texts) ++ c.name :: (c.typeParameters ++ (c.base.toList ++
    (c.constraints.flatMap (·.texts) ++ c.members.flatMap (·.texts))))

/-- All documentation of a class and its members. -/
def ClassBlock.docs (c : ClassBlock) : List Doc :=
  c.doc.toList ++ c.members.flatMap (·.doc.toList)

def SourceUnit.texts (u : SourceUnit) : List String :=
  u.comments ++ (u.namespaces.map (·.name) ++ u.classes.flatMap (·.texts))

/-- All texts of a unit are simple; those of documentation have no line end in them, with the
exception of summaries. -/
structure SourceUnit.IsSimple (u : SourceUnit) : Prop where
  texts : ∀ text ∈ u.texts, Code.IsSimple text
  docs : ∀ c ∈ u.classes, ∀ d ∈ c.docs, d.Tidy

/-! ## Members -/

theorem Constraint.isSimple_toText {k : Constraint} (h : ∀ text ∈ k.texts, IsSimple text) :
    IsSimple k.toText := by
  obtain ⟨hparameter, hbounds⟩ := List.forall_mem_cons.1 (consists_of_simple h)
  refine ⟨?_, isPiece_iff.2 (consists_toText ofMarks_unbraced hparameter hbounds)⟩
  rw [toText, String.append_assoc, String.append_assoc]
  exact begins_append (by decide) _

/-- A text stays simple behind modifiers. -/
theorem IsSimple.modified {text : String} (h : IsSimple text) (modifiers : List Modifier) :
    IsSimple (modifiersText modifiers ++ text) := by
  refine ⟨?_, isPiece_append.2
    ⟨isPiece_iff.2 (consists_modifiersText ofMarks_unbraced modifiers), h.isPiece⟩⟩
  cases modifiers with
  | nil => exact String.empty_append ▸ h.begins
  | cons m rest =>
    rw [modifiersText, List.map_cons, String.join_cons, String.append_assoc, String.append_assoc]
    exact begins_append (by cases m <;> decide) _

theorem nested_docLines {doc : Option Doc} (h : ∀ d ∈ doc, d.Tidy) (level : Nat) :
    Nested level (unmarked (docLines level doc)) level := by
  have hlevel : ∀ l ∈ docLines level doc, l.level = level := by
    cases doc with
    | none => exact List.forall_mem_nil _
    | some d =>
      rw [docLines, Doc.layout, List.forall_mem_append, List.forall_mem_cons, List.forall_mem_cons,
        List.forall_mem_map, List.forall_mem_map]
      exact ⟨⟨rfl, fun _ _ => rfl⟩, rfl, fun _ _ => rfl⟩
  apply Nested.of_forall
  rw [unmarked, List.forall_mem_map]
  intro l hl
  have hstands := Stands.doc (isDoc_docLines h level l hl)
  rwa [hlevel l hl] at hstands

theorem AttributeUse.starts_layout {a : AttributeUse} (h : ∀ text ∈ a.texts, IsSimple text)
    (level : Nat) : (a.layout level).Starts level := by
  obtain ⟨hname, harguments⟩ := List.forall_mem_cons.1 h
  have hfront : IsSimple ("[" ++ a.name) := IsSimple.append (by decide) hname.isPiece
  rw [AttributeUse.layout]
  split
  · exact .ofText (hfront.append (by decide))
  · exact .listed (hfront.append (by decide)) (starts_layoutAll level harguments) (by decide)

theorem nested_attributeLines {attributes : List AttributeUse}
    (h : ∀ text ∈ attributes.flatMap (·.texts), IsSimple text) (level : Nat) :
    Nested level (unmarked (attributeLines level attributes)) level := by
  induction attributes with
  | nil => exact .nil level
  | cons a rest ih =>
    obtain ⟨ha, hrest⟩ := List.forall_mem_append.1 h
    rw [attributeLines, List.flatMap_cons, unmarked_append]
    exact (a.starts_layout ha level).toLines.append (ih hrest)

/-- An automatic getter closes its braces on the line of its head. -/
theorem IsSimple.isSteady_automatic {head : String} (h : IsSimple head) :
    IsSteady (head ++ " \x7b get; \x7d") where
  oneLine := isOneLine_append.2 ⟨h.isPiece.1, by decide⟩
  begins := begins_append h.begins _
  unclosed := by
    obtain ⟨c, rest, hchars, -⟩ := headIs_iff.1 h.begins
    have hunclosed := h.isSteady.unclosed
    rw [String.toList_append, hchars]
    rwa [hchars] at hunclosed
  balanced depth := by
    have hgetter : " \x7b get; \x7d".toList.foldlM brace depth = some depth := rfl
    rw [String.toList_append, List.foldlM_append, h.isPiece.foldlM_brace]
    exact hgetter

theorem Field.nested_layout {f : Field} (h : ∀ text ∈ f.texts, IsSimple text) (level : Nat) :
    Nested level (unmarked (f.layout level)) level := by
  obtain ⟨htype, hname⟩ := List.forall_mem_cons.1 h
  have hname := (List.forall_mem_singleton.1 hname).isPiece
  have hline : IsSimple (modifiersText f.modifiers ++ f.type ++ " " ++ f.name ++ ";") :=
    (((htype.modified _).append (by decide)).append hname).append (by decide)
  exact .cons (.simple hline level) (.nil level)

theorem Constructor.nested_layout {c : Constructor} (h : ∀ text ∈ c.texts, IsSimple text)
    (hdoc : ∀ d ∈ c.doc, d.Tidy) (level : Nat) :
    Nested level (unmarked (c.layout level)) level := by
  obtain ⟨hname, hrest⟩ := List.forall_mem_cons.1 h
  obtain ⟨hparameters, hrest⟩ := List.forall_mem_append.1 hrest
  obtain ⟨hbase, hbody⟩ := List.forall_mem_append.1 hrest
  have hhead : IsSimple (modifiersText c.modifiers ++ c.name ++ "(" ++
      formalsText c.parameters ++ ")") :=
    (((hname.modified _).append (by decide)).append (isPiece_formalsText hparameters)).append
      (by decide)
  have hbraces := nested_inBraces (nested_layoutStatements (level + 1) hbody)
  rw [Constructor.layout, unmarked_append, unmarked_append]
  refine ((nested_docLines hdoc level).append ?_).append hbraces
  cases hnamed : c.baseArguments with
  | none => exact (Starts.ofText hhead).toLines
  | some arguments =>
    rw [hnamed] at hbase
    have hfront := hhead.append (by decide : IsPiece " : base(")
    exact (Starts.listed hfront (starts_layoutAll level hbase) (by decide)).toLines

theorem Property.nested_layout {p : Property} (h : ∀ text ∈ p.texts, IsSimple text)
    (hdoc : ∀ d ∈ p.doc, d.Tidy) (level : Nat) :
    Nested level (unmarked (p.layout level)) level := by
  obtain ⟨hattributes, hrest⟩ := List.forall_mem_append.1 h
  obtain ⟨htype, hrest⟩ := List.forall_mem_cons.1 hrest
  obtain ⟨hname, hgetter⟩ := List.forall_mem_cons.1 hrest
  have hhead : IsSimple (modifiersText p.modifiers ++ p.type ++ " " ++ p.name) :=
    ((htype.modified _).append (by decide)).append hname.isPiece
  rw [Property.layout, unmarked_append, unmarked_append]
  refine ((nested_docLines hdoc level).append (nested_attributeLines hattributes level)).append ?_
  cases hp : p.getter with
  | expression e =>
    rw [hp] at hgetter
    exact (Starts.headed hhead (Expr.starts_layout level hgetter)).toLines
  | automatic => exact .cons (.steady hhead.isSteady_automatic level false) (.nil level)

theorem Method.nested_layout {m : Method} (h : ∀ text ∈ m.texts, IsSimple text)
    (hdoc : ∀ d ∈ m.doc, d.Tidy) (level : Nat) :
    Nested level (unmarked (m.layout level)) level := by
  obtain ⟨hattributes, hrest⟩ := List.forall_mem_append.1 h
  obtain ⟨htype, hrest⟩ := List.forall_mem_cons.1 hrest
  obtain ⟨hname, hrest⟩ := List.forall_mem_cons.1 hrest
  obtain ⟨htypeParameters, hrest⟩ := List.forall_mem_append.1 hrest
  obtain ⟨hparameters, hrest⟩ := List.forall_mem_append.1 hrest
  obtain ⟨hconstraints, hbody⟩ := List.forall_mem_append.1 hrest
  -- the constraints of a method stand on the line of its head
  have hclauses : IsPiece (String.join (m.constraints.map fun k => " " ++ k.toText)) := by
    rw [isPiece_iff, consists_join, List.forall_mem_map]
    intro k hk
    have hclause := k.isSimple_toText (List.forall_mem_flatMap.1 hconstraints k hk)
    exact isPiece_iff.1 (isPiece_append.2 ⟨by decide, hclause.isPiece⟩)
  have hhead : IsSimple (modifiersText m.modifiers ++ m.returnType ++ " " ++ m.name ++
      typeParametersText m.typeParameters ++ "(" ++ formalsText m.parameters ++ ")" ++
      String.join (m.constraints.map fun k => " " ++ k.toText)) :=
    (((((((htype.modified _).append (by decide)).append hname.isPiece).append
      (isPiece_typeParametersText htypeParameters)).append (by decide)).append
      (isPiece_formalsText hparameters)).append (by decide)).append hclauses
  rw [Method.layout, unmarked_append, unmarked_append]
  refine ((nested_docLines hdoc level).append (nested_attributeLines hattributes level)).append ?_
  cases hm : m.body with
  | expression e =>
    rw [hm] at hbody
    exact (Starts.headed hhead (Expr.starts_layout level hbody)).toLines
  | block statements =>
    rw [hm] at hbody
    exact (Starts.block hhead (nested_layoutStatements (level + 1) hbody)).toLines

/-- A member stands at the level that it is laid out at. -/
theorem Member.nested_layout {m : Member} (h : ∀ text ∈ m.texts, IsSimple text)
    (hdoc : ∀ d ∈ m.doc, d.Tidy) (level : Nat) :
    Nested level (unmarked (m.layout level)) level := by
  cases m with
  | field f => exact f.nested_layout h level
  | constructor c => exact c.nested_layout h hdoc level
  | property p => exact p.nested_layout h hdoc level
  | method m => exact m.nested_layout h hdoc level

/-! ## Classes -/

theorem unmarked_spaced (groups : List (List Line)) :
    unmarked (spaced groups) = apart (groups.map unmarked) := by
  fun_induction spaced groups with
  | case1 => rfl
  | case2 lines => rfl
  | case3 lines rest hrest ih =>
    obtain ⟨next, others, rfl⟩ := List.exists_cons_of_ne_nil hrest
    rw [unmarked_append, unmarked_cons, ih]
    rfl

namespace ClassBlock

/-- The text that names a class and its base. -/
def header (c : ClassBlock) : String :=
  modifiersText c.modifiers ++ "class " ++ c.name ++ typeParametersText c.typeParameters ++
    (match c.base with | none => "" | some base => " : " ++ base)

/-- The lines of a class, where its constraints are marked. -/
def marked (level : Nat) (c : ClassBlock) : List MarkedLine :=
  unmarked (docLines level c.doc) ++ unmarked (attributeLines level c.attributes) ++
    (⟨level, c.header⟩, false) :: (c.constraints.map fun k => (⟨level + 1, k.toText⟩, true)) ++
    unmarked (inBraces level (spaced (c.members.map (·.layout (level + 1)))))

theorem map_fst_marked (level : Nat) (c : ClassBlock) :
    (c.marked level).map (·.1) = c.layout level := by
  have hclauses : (c.constraints.map fun k => ((⟨level + 1, k.toText⟩, true) : MarkedLine)).map
      (·.1) = c.constraints.map fun k => ⟨level + 1, k.toText⟩ := List.map_map
  rw [marked, List.map_append, List.map_append, List.map_append, List.map_cons, map_fst_unmarked,
    map_fst_unmarked, map_fst_unmarked, hclauses]
  rfl

theorem clauses_marked (level : Nat) (c : ClassBlock) :
    clauses (c.marked level) = c.constraints.map (·.toText) := by
  have hclauses : clauses (c.constraints.map fun k => (⟨level + 1, k.toText⟩, true)) =
      c.constraints.map (·.toText) := by
    induction c.constraints with
    | nil => rfl
    | cons k rest ih =>
      rw [List.map_cons, List.map_cons, ← ih]
      rfl
  rw [marked, clauses_append, clauses_append, clauses_append, clauses_unmarked, clauses_unmarked,
    clauses_unmarked, List.append_nil, List.nil_append, List.nil_append]
  exact hclauses

/-- A class stands at the level that it is laid out at, with its constraints below its head. -/
theorem nested_marked {c : ClassBlock} (h : ∀ text ∈ c.texts, IsSimple text)
    (hdocs : ∀ d ∈ c.docs, d.Tidy) (level : Nat) : Nested level (c.marked level) level := by
  obtain ⟨hattributes, hrest⟩ := List.forall_mem_append.1 h
  obtain ⟨hname, hrest⟩ := List.forall_mem_cons.1 hrest
  obtain ⟨htypeParameters, hrest⟩ := List.forall_mem_append.1 hrest
  obtain ⟨hbase, hrest⟩ := List.forall_mem_append.1 hrest
  obtain ⟨hconstraints, hmembers⟩ := List.forall_mem_append.1 hrest
  obtain ⟨hdoc, hmemberDocs⟩ := List.forall_mem_append.1 hdocs
  have hderived : IsPiece (match c.base with | none => "" | some base => " : " ++ base) := by
    cases hnamed : c.base with
    | none => decide
    | some base =>
      rw [hnamed] at hbase
      exact isPiece_append.2 ⟨by decide, (List.forall_mem_singleton.1 hbase).isPiece⟩
  have hheader : IsSimple c.header :=
    (((IsSimple.modified (by decide) _).append hname.isPiece).append
      (isPiece_typeParametersText htypeParameters)).append hderived
  have hclauses : Nested level
      (c.constraints.map fun k => (⟨level + 1, k.toText⟩, true)) level := by
    apply Nested.of_forall
    rw [List.forall_mem_map]
    intro k hk
    have hclause := k.isSimple_toText (List.forall_mem_flatMap.1 hconstraints k hk)
    exact .steady hclause.isSteady level true
  have hinner : Nested (level + 1)
      (unmarked (spaced (c.members.map (·.layout (level + 1))))) (level + 1) := by
    rw [unmarked_spaced, List.map_map]
    apply Nested.apart
    rw [List.forall_mem_map]
    intro m hm
    apply Member.nested_layout (List.forall_mem_flatMap.1 hmembers m hm)
    intro d hd
    exact List.forall_mem_flatMap.1 hmemberDocs m hm d (Option.mem_toList.2 hd)
  have hfront := (nested_docLines (fun d hd => hdoc d (Option.mem_toList.2 hd)) level).append
    (nested_attributeLines hattributes level)
  exact (hfront.append (.cons (.simple hheader level) hclauses)).append (nested_inBraces hinner)

end ClassBlock

/-! ## Units -/

namespace NamespaceBlock

/-- The lines of a namespace, where the constraints of its classes are marked. -/
def marked (n : NamespaceBlock) : List MarkedLine :=
  (⟨0, "namespace " ++ n.name⟩, false) :: (⟨0, "\x7b"⟩, false) ::
    (apart (n.classes.map (·.marked 1)) ++ [(⟨0, "\x7d"⟩, false)])

theorem map_fst_marked (n : NamespaceBlock) : n.marked.map (·.1) = n.layout := by
  have hclasses : (n.classes.map (·.marked 1)).map (fun lines => lines.map (·.1)) =
      n.classes.map (·.layout 1) := by
    rw [List.map_map]
    exact List.map_congr_left fun c _ => c.map_fst_marked 1
  rw [marked, List.map_cons, List.map_cons, List.map_append, map_fst_apart, hclasses]
  rfl

theorem clauses_marked (n : NamespaceBlock) :
    clauses n.marked = n.classes.flatMap fun c => c.constraints.map (·.toText) := by
  have hclasses : clauses (apart (n.classes.map (·.marked 1))) =
      n.classes.flatMap fun c => c.constraints.map (·.toText) := by
    rw [clauses_apart, List.flatMap_map]
    exact congrArg (n.classes.flatMap ·) (funext (·.clauses_marked 1))
  calc clauses n.marked
    _ = clauses (apart (n.classes.map (·.marked 1)) ++
        unmarked [⟨0, "\x7d"⟩]) := rfl
    _ = _ := by rw [clauses_append, clauses_unmarked, List.append_nil, hclasses]

theorem nested_marked {n : NamespaceBlock} (hname : IsSimple n.name)
    (h : ∀ c ∈ n.classes, ∀ text ∈ c.texts, IsSimple text)
    (hdocs : ∀ c ∈ n.classes, ∀ d ∈ c.docs, d.Tidy) : Nested 0 n.marked 0 := by
  have hclasses : Nested 1 (apart (n.classes.map (·.marked 1))) 1 := by
    apply Nested.apart
    rw [List.forall_mem_map]
    intro c hc
    exact c.nested_marked (h c hc) (hdocs c hc) 1
  exact .cons (.simple (IsSimple.append (by decide) hname.isPiece) 0) hclasses.inBraces

end NamespaceBlock

namespace SourceUnit

/-- The lines of a unit, where the constraints of its classes are marked. -/
def marked (u : SourceUnit) : List MarkedLine :=
  apart ((if u.preamble.isEmpty then [] else [unmarked u.preamble]) ++
    (u.namespaces.map (·.marked) ++ u.globals.map (·.marked 0)))

theorem map_fst_marked (u : SourceUnit) : u.marked.map (·.1) = u.layout := by
  have hpreamble : (if u.preamble.isEmpty then [] else [unmarked u.preamble]).map
      (fun lines => lines.map (·.1)) = if u.preamble.isEmpty then [] else [u.preamble] := by
    split
    · rfl
    · rw [List.map_singleton, map_fst_unmarked]
  have hnamespaces : (u.namespaces.map (·.marked)).map (fun lines => lines.map (·.1)) =
      u.namespaces.map (·.layout) := by
    rw [List.map_map]
    exact List.map_congr_left fun n _ => n.map_fst_marked
  have hglobals : (u.globals.map (·.marked 0)).map (fun lines => lines.map (·.1)) =
      u.globals.map (·.layout 0) := by
    rw [List.map_map]
    exact List.map_congr_left fun c _ => c.map_fst_marked 0
  rw [marked, map_fst_apart, List.map_append, List.map_append, hpreamble, hnamespaces,
    hglobals, layout, List.append_assoc]

/-- The marks of a unit stand at the constraints of its classes. -/
theorem clauses_marked (u : SourceUnit) :
    clauses u.marked = u.classes.flatMap fun c => c.constraints.map (·.toText) := by
  have hpreamble : (if u.preamble.isEmpty then [] else [unmarked u.preamble]).flatMap clauses =
      [] := by
    split
    · rfl
    · rw [List.flatMap_singleton, clauses_unmarked]
  have hnamespaces : (u.namespaces.map (·.marked)).flatMap clauses =
      (u.namespaces.flatMap (·.classes)).flatMap fun c => c.constraints.map (·.toText) := by
    rw [List.flatMap_map, List.flatMap_assoc]
    exact congrArg (u.namespaces.flatMap ·) (funext (·.clauses_marked))
  have hglobals : (u.globals.map (·.marked 0)).flatMap clauses =
      u.globals.flatMap fun c => c.constraints.map (·.toText) := by
    rw [List.flatMap_map]
    exact congrArg (u.globals.flatMap ·) (funext (·.clauses_marked 0))
  rw [marked, clauses_apart, List.flatMap_append, List.flatMap_append, hpreamble,
    hnamespaces, hglobals, classes, List.flatMap_append]
  rfl

theorem nested_marked {u : SourceUnit} (h : u.IsSimple) : Nested 0 u.marked 0 := by
  obtain ⟨hcomments, hrest⟩ := List.forall_mem_append.1 h.texts
  obtain ⟨hnames, hclasses⟩ := List.forall_mem_append.1 hrest
  have hclasses := List.forall_mem_flatMap.1 hclasses
  have hpreamble : Nested 0 (unmarked u.preamble) 0 := by
    apply Nested.of_forall
    rw [unmarked, preamble, List.forall_mem_map, List.forall_mem_append, List.forall_mem_map]
    refine ⟨fun text htext => ?_, ?_⟩
    · exact .simple (IsSimple.append (by decide) (hcomments text htext).isPiece) 0
    · split
      · exact List.forall_mem_singleton.2 (.simple (by decide) 0)
      · exact List.forall_mem_nil _
  apply Nested.apart
  rw [List.forall_mem_append, List.forall_mem_append, List.forall_mem_map, List.forall_mem_map]
  refine ⟨?_, fun n hn => ?_, fun c hc => ?_⟩
  · split
    · exact List.forall_mem_nil _
    · exact List.forall_mem_singleton.2 hpreamble
  · have hmem : ∀ c ∈ n.classes, c ∈ u.classes := fun c hc =>
      List.mem_append_left _ (List.mem_flatMap.2 ⟨n, hn, hc⟩)
    exact n.nested_marked (hnames _ (List.mem_map_of_mem hn)) (fun c hc => hclasses c (hmem c hc))
      fun c hc => h.docs c (hmem c hc)
  · have hmem : c ∈ u.classes := List.mem_append_right _ hc
    exact c.nested_marked (hclasses c hmem) (h.docs c hmem) 0

/-- The lines of the text of a unit, without their ends. -/
def lines (u : SourceUnit) : List (List Char) := u.render.toList.splitOn '\n'

theorem lines_eq {u : SourceUnit} (h : u.IsSimple) : u.lines = written u.marked := by
  rw [lines, render, ← map_fst_marked, (nested_marked h).splitOn_textOf]

/-- The lines of a unit at which its classes state their constraints. -/
def clauseMarks (u : SourceUnit) : List Bool := u.marked.map (·.2)

/-- In the text of a unit every brace is closed and none too many, and each line is indented by four
blanks for each brace that is open in front of it, and by four more where it states a constraint
of a class. -/
theorem render_follows_braces {u : SourceUnit} (h : u.IsSimple) :
    depthAfter u.lines = some 0 ∧
    (∀ i line, u.lines[i]? = some line → line ≠ [] →
      ∃ depth, depthAfter (u.lines.take i) = some depth ∧ indentationOf line =
        4 * (depth - (closes line).toNat + (u.clauseMarks.getD i false).toNat)) ∧
    ((u.lines.zip u.clauseMarks).filter (·.2)).map (·.1.dropWhile (· == ' ')) =
      (u.classes.flatMap (·.constraints)).map (·.toText.toList) := by
  have hnested := nested_marked h
  rw [lines_eq h]
  refine ⟨hnested.closed, fun i line => hnested.indented, ?_⟩
  rw [clauseMarks, hnested.filter_marked, clauses_marked, List.map_flatMap, List.map_flatMap]
  exact congrArg (u.classes.flatMap ·) (funext fun c => List.map_map)

/-- A local function in a lambda in a property, a lambda in an attribute, and braces in comments. -/
def nestedBox : SourceUnit where
  comments := ["generated"]
  nullable := true
  namespaces := [{
    name := "Sample"
    classes := [{
      doc := some { summary := "Holds \x7bT\x7d.\nTwice.", params := [("T", "any \x7b there is")] }
      attributes := [{
        name := "Shape"
        arguments := [.lambda [] (.block [.result (.string "round")])] }]
      modifiers := [.publicAccess]
      name := "Box"
      typeParameters := ["T"]
      base := some "Base"
      constraints := [{ parameter := "T", bounds := ["class", "new()"] }]
      members := [
        .property {
          modifiers := [.publicAccess]
          type := "Feed"
          name := "Opened"
          getter := .expression (.call (.name "Create") [] [.lambda ["obs"] (.block [
            .localFunction "int" "next" [{ type := "int", name := "y" }]
              (.block [.result (.name "y")]),
            .result (.name "next")])]) },
        .property { type := "int", name := "Count", getter := .automatic }] }] }]
  globals := [{ name := "Plain" }]

theorem nestedBox_follows_braces :
    nestedBox.IsSimple ∧ depthAfter nestedBox.lines = some 0 ∧
    nestedBox.lines[21]? = some "                return y;".toList ∧
    depthAfter (nestedBox.lines.take 21) = some 4 ∧
    ((nestedBox.lines.zip nestedBox.clauseMarks).filter (·.2)).map (·.1.dropWhile (· == ' ')) =
      ["where T : class, new()".toList] := by
  have hsimple : nestedBox.IsSimple := by
    refine ⟨by decide, fun c hc d hd => ⟨?_⟩⟩
    have hparams : ∀ c ∈ nestedBox.classes, ∀ d ∈ c.docs, ∀ q ∈ d.params,
        IsOneLine q.1 ∧ IsOneLine q.2 := by decide
    exact hparams c hc d hd
  have hline : nestedBox.lines[21]? = some "                return y;".toList := by
    rw [lines_eq hsimple]
    decide
  obtain ⟨hclosed, hindented, hclauses⟩ := render_follows_braces hsimple
  obtain ⟨depth, hdepth, hblanks⟩ := hindented 21 _ hline (by decide)
  have hfour : 16 = 4 * (depth - 0 + 0) := hblanks
  obtain rfl : depth = 4 := by omega
  exact ⟨hsimple, hclosed, hline, hdepth, hclauses⟩

end SourceUnit

end EventWrap.Code
