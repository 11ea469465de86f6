import EventWrap.Proofs.Code.Braces

/-!
# Blocks in expressions

An expression that starts on a line at a level stays on it, or ends on a line with a closing brace
at the same level, with its blocks in between. What goes on behind it starts at this level again,
however deep the blocks are nested, and so do the statements in them one level deeper.
-/

namespace EventWrap.Code

open Text Line

/-! ## Texts as written -/

def Formal.texts (f : Formal) : List String := [f.type, f.name]

mutual

/-- The texts of an expression as they are written. -/
def Expr.texts : Expr → List String
  | .name text => [text]
  | .string value => [stringLiteral value]
  | .boolean _ => []
  | .member target name => target.texts ++ [name]
  | .call target types arguments => target.texts ++ (types ++ textsOfAll arguments)
  | .create type arguments => type :: textsOfAll arguments
  | .lambda parameters body => parameters ++ body.texts
  | .tuple items => textsOfAll items
  | .assign target _ value => target.texts ++ value.texts
  | .raise exception => exception.texts

def textsOfAll : List Expr → List String
  | [] => []
  | e :: rest => e.texts ++ textsOfAll rest

def Body.texts : Body → List String
  | .expression e => e.texts
  | .block statements => textsOfStatements statements

def Statement.texts : Statement → List String
  | .expression e => e.texts
  | .result e => e.texts
  | .localFunction returnType name parameters body =>
    returnType :: name :: (parameters.flatMap (·.texts) ++ body.texts)

def textsOfStatements : List Statement → List String
  | [] => []
  | s :: rest => s.texts ++ textsOfStatements rest

end

/-- A literal is simple whatever its value is, as long as this has no braces in it. -/
theorem isSimple_stringLiteral {value : String} :
    IsSimple (stringLiteral value) ↔ '\x7b' ∉ value.toList ∧ '\x7d' ∉ value.toList := by
  have hescaped : ∀ {brace : Char}, brace ∈ ['\x7b', '\x7d'] →
      (brace ∈ (stringLiteral value).toList ↔ brace ∈ value.toList) := by
    intro brace hbrace
    have hescape : ∀ c, brace ∈ escapeInLiteral c ↔ brace = c := by
      intro c
      simp only [List.mem_cons, List.not_mem_nil, or_false] at hbrace
      unfold escapeInLiteral
      grind
    have hquote : brace ≠ '"' := by
      rintro rfl
      revert hbrace
      decide
    simp [stringLiteral, hescape, hquote]
  have hbegins : begins (stringLiteral value) :=
    headIs_iff.2 ⟨'"', _, String.toList_ofList, by decide⟩
  rw [isSimple_iff, and_iff_right hbegins]
  exact (and_iff_right (isOneLine_stringLiteral value)).trans
    (and_congr (not_congr (hescaped (by decide))) (not_congr (hescaped (by decide))))

/-- Simple texts as they are asked for by the lists of a line. -/
theorem consists_of_simple {texts : List String} (h : ∀ text ∈ texts, IsSimple text) :
    ∀ text ∈ texts, Consists (fun c => c ≠ '\n' ∧ c ≠ '\x7b' ∧ c ≠ '\x7d') text :=
  fun text htext => isPiece_iff.1 (h text htext).isPiece

theorem isPiece_typeParametersText {names : List String} (h : ∀ name ∈ names, IsSimple name) :
    IsPiece (typeParametersText names) :=
  isPiece_iff.2 (consists_typeParametersText ofMarks_unbraced (consists_of_simple h))

theorem isPiece_formalsText {formals : List Formal}
    (h : ∀ text ∈ formals.flatMap (·.texts), IsSimple text) : IsPiece (formalsText formals) := by
  refine isPiece_iff.2 (consists_formalsText ofMarks_unbraced fun f hf => ?_)
  have hf := consists_of_simple (List.forall_mem_flatMap.1 h f hf)
  exact ⟨hf _ (by simp [Formal.texts]), hf _ (by simp [Formal.texts])⟩

theorem isSimple_lambdaHead {names : List String} (h : ∀ name ∈ names, IsSimple name) :
    IsSimple (lambdaHead names) := by
  refine ⟨?_, isPiece_iff.2 (consists_lambdaHead ofMarks_unbraced (consists_of_simple h))⟩
  unfold lambdaHead
  split
  · exact (h _ List.mem_cons_self).begins
  · rw [String.append_assoc]
    exact begins_append (by decide) _

/-! ## Fragments -/

namespace Fragment

/-- A fragment goes on with a line at a level: it ends on this line, or with lines in braces that
stand at the level. -/
inductive Continues (level : Nat) : Fragment → Prop
  | line {head : String} (isPiece : IsPiece head) : Continues level ⟨head, []⟩
  | block {head text : String} {lines : List Line} (isPiece : IsPiece head)
      (nested : Nested level (unmarked lines) (level + 1)) (closing : IsPiece text) :
      Continues level ⟨head, lines ++ [⟨level, "\x7d" ++ text⟩]⟩

/-- A fragment can stand at the start of a line at a level. -/
structure Starts (level : Nat) (f : Fragment) : Prop where
  continues : f.Continues level
  begins : begins f.head

variable {level : Nat} {f g : Fragment}

theorem append_of_rest (head : String) (lines : List Line) (last : Line) (g : Fragment) :
    (⟨head, lines ++ [last]⟩ : Fragment) ++ g =
      ⟨head, lines ++ { last with text := last.text ++ g.head } :: g.rest⟩ := by
  change append _ g = _
  have hlast : extendLast (lines ++ [last]) g.head =
      lines ++ [{ last with text := last.text ++ g.head }] := by
    rw [extendLast, List.getLast?_concat, List.dropLast_concat]
  unfold append
  split
  · next h => exact absurd h (List.append_ne_nil_of_right_ne_nil _ (List.cons_ne_nil _ _))
  · rw [hlast, List.append_assoc]
    rfl

theorem Continues.ofText {text : String} (h : IsPiece text) : (ofText text).Continues level :=
  .line h

/-- The second fragment goes on where the first one ends: at the same level. -/
theorem Continues.append (hf : f.Continues level) (hg : g.Continues level) :
    (f ++ g).Continues level := by
  cases hf with
  | line hhead =>
    cases hg with
    | line hhead' => exact .line (isPiece_append.2 ⟨hhead, hhead'⟩)
    | block hhead' hnested hclosing =>
      exact .block (isPiece_append.2 ⟨hhead, hhead'⟩) hnested hclosing
  | @block head text lines hhead hnested hclosing =>
    rw [append_of_rest]
    cases hg with
    | @line head' hhead' =>
      rw [String.append_assoc]
      exact .block hhead hnested (isPiece_append.2 ⟨hclosing, hhead'⟩)
    | @block head' text' lines' hhead' hnested' hclosing' =>
      have hmiddle : Nested level
          (unmarked (lines ++ ⟨level, "\x7d" ++ (text ++ head')⟩ :: lines')) (level + 1) := by
        rw [unmarked_append, unmarked_cons]
        exact hnested.append
          (.cons (.closing (isPiece_append.2 ⟨hclosing, hhead'⟩) level) hnested')
      rw [String.append_assoc, ← List.cons_append, ← List.append_assoc]
      exact .block hhead hmiddle hclosing'

theorem Continues.commaSeparated {fragments : List Fragment}
    (h : ∀ f ∈ fragments, f.Starts level) : (commaSeparated fragments).Continues level := by
  induction fragments with
  | nil => exact .line (by decide)
  | cons f rest ih =>
    obtain ⟨hf, hrest⟩ := List.forall_mem_cons.1 h
    cases rest with
    | nil => exact hf.continues
    | cons => exact hf.continues.append ((Continues.ofText (by decide)).append (ih hrest))

theorem Starts.ofText {text : String} (h : IsSimple text) : (ofText text).Starts level :=
  ⟨.line h.isPiece, h.begins⟩

theorem Starts.append (hf : f.Starts level) (hg : g.Continues level) : (f ++ g).Starts level := by
  refine ⟨hf.continues.append hg, ?_⟩
  change Code.begins (Fragment.append f g).head
  rw [Fragment.append]
  split
  · exact begins_append hf.begins _
  · exact hf.begins

/-- Fragments between two texts, with commas between them. -/
theorem Continues.listed {front back : String} {fragments : List Fragment} (hfront : IsPiece front)
    (h : ∀ f ∈ fragments, f.Starts level) (hback : IsPiece back) :
    (Fragment.ofText front ++
      (Fragment.commaSeparated fragments ++ Fragment.ofText back)).Continues level :=
  (Continues.ofText hfront).append ((Continues.commaSeparated h).append (.ofText hback))

theorem Starts.listed {front back : String} {fragments : List Fragment} (hfront : IsSimple front)
    (h : ∀ f ∈ fragments, f.Starts level) (hback : IsPiece back) :
    (Fragment.ofText front ++
      (Fragment.commaSeparated fragments ++ Fragment.ofText back)).Starts level :=
  (Starts.ofText hfront).append ((Continues.commaSeparated h).append (.ofText hback))

/-- A head, then an expression that ends the line. -/
theorem Starts.headed {head : String} (hhead : IsSimple head) (hf : f.Starts level) :
    (Fragment.ofText (head ++ " => ") ++ (f ++ Fragment.ofText ";")).Starts level :=
  (Starts.ofText (hhead.append (by decide))).append (hf.continues.append (.ofText (by decide)))

/-- A head with lines in braces below it. -/
theorem Starts.block {head : String} {lines : List Line} (hhead : IsSimple head)
    (hlines : Nested (level + 1) (unmarked lines) (level + 1)) :
    Starts level ⟨head, inBraces level lines⟩ := by
  have hopened : Nested level (unmarked (⟨level, "\x7b"⟩ :: lines)) (level + 1) :=
    .cons (.opening level) hlines
  have hclosed : Continues level
      ⟨head, (⟨level, "\x7b"⟩ :: lines) ++ [⟨level, "\x7d" ++ ""⟩]⟩ :=
    .block hhead.isPiece hopened (by decide)
  exact ⟨hclosed, hhead.begins⟩

theorem Starts.toLines (h : f.Starts level) : Nested level (unmarked (f.toLines level)) level := by
  obtain ⟨hcontinues, hbegins⟩ := h
  cases hcontinues with
  | line hhead => exact .cons (.simple ⟨hbegins, hhead⟩ level) (.nil level)
  | block hhead hnested hclosing =>
    rw [toLines, unmarked_cons, unmarked_append]
    refine .cons (.simple ⟨hbegins, hhead⟩ level) (hnested.append ?_)
    exact .cons (.closing hclosing level) (.nil level)

end Fragment

open Fragment

/-! ## Expressions and statements -/

mutual

/-- An expression stays at the level of the line that it starts on. -/
theorem Expr.starts_layout (level : Nat) :
    ∀ {e : Expr}, (∀ text ∈ e.texts, IsSimple text) → (e.layout level).Starts level
  | .name text, h => .ofText (h text List.mem_cons_self)
  | .string value, h => .ofText (h (stringLiteral value) List.mem_cons_self)
  | .boolean value, _ => .ofText (by cases value <;> decide)
  | .member target name, h => by
    obtain ⟨htarget, hname⟩ := List.forall_mem_append.1 h
    have hname := (List.forall_mem_singleton.1 hname).isPiece
    exact (Expr.starts_layout level htarget).append
      (.ofText (isPiece_append.2 ⟨by decide, hname⟩))
  | .call target types arguments, h => by
    obtain ⟨htarget, hrest⟩ := List.forall_mem_append.1 h
    obtain ⟨htypes, harguments⟩ := List.forall_mem_append.1 hrest
    have hfront := isPiece_append.2 ⟨isPiece_typeParametersText htypes, (by decide : IsPiece "(")⟩
    exact (Expr.starts_layout level htarget).append
      (.listed hfront (starts_layoutAll level harguments) (by decide))
  | .create type arguments, h => by
    obtain ⟨htype, harguments⟩ := List.forall_mem_cons.1 h
    have hfront : IsSimple ("new " ++ type ++ "(") :=
      (IsSimple.append (by decide) htype.isPiece).append (by decide)
    exact .listed hfront (starts_layoutAll level harguments) (by decide)
  | .lambda parameters body, h => by
    obtain ⟨hparameters, hbody⟩ := List.forall_mem_append.1 h
    have hhead := (isSimple_lambdaHead hparameters).append (by decide : IsPiece " =>")
    exact Body.starts_layout level hbody hhead (by decide)
  | .tuple items, h => by
    have hitems : ∀ text ∈ textsOfAll items, IsSimple text := h
    exact .listed (by decide) (starts_layoutAll level hitems) (by decide)
  | .assign target op value, h => by
    obtain ⟨htarget, hvalue⟩ := List.forall_mem_append.1 h
    have hop : IsPiece (" " ++ op.token ++ " ") := by cases op <;> decide
    exact (Expr.starts_layout level htarget).append
      ((Continues.ofText hop).append (Expr.starts_layout level hvalue).continues)
  | .raise exception, h => (Starts.ofText (by decide)).append
      (Expr.starts_layout level (e := exception) h).continues

theorem starts_layoutAll (level : Nat) : ∀ {es : List Expr},
    (∀ text ∈ textsOfAll es, IsSimple text) → ∀ f ∈ layoutAll level es, f.Starts level
  | [], _ => List.forall_mem_nil _
  | e :: rest, h => by
    obtain ⟨he, hrest⟩ := List.forall_mem_append.1 h
    exact List.forall_mem_cons.2 ⟨Expr.starts_layout level he, starts_layoutAll level hrest⟩

theorem Body.starts_layout (level : Nat) {head gap : String} : ∀ {body : Body},
    (∀ text ∈ body.texts, IsSimple text) → IsSimple head → IsPiece gap →
      (body.layout level head gap).Starts level
  | .expression e, h, hhead, hgap =>
    (Starts.ofText (hhead.append hgap)).append (Expr.starts_layout level (e := e) h).continues
  | .block statements, h, hhead, _ => by
    have hstatements : ∀ text ∈ textsOfStatements statements, IsSimple text := h
    exact .block hhead (nested_layoutStatements (level + 1) hstatements)

theorem Statement.starts_layout (level : Nat) : ∀ {s : Statement},
    (∀ text ∈ s.texts, IsSimple text) → (s.layout level).Starts level
  | .expression e, h => (Expr.starts_layout level (e := e) h).append (.ofText (by decide))
  | .result e, h => (Starts.ofText (by decide)).append
      ((Expr.starts_layout level (e := e) h).continues.append (.ofText (by decide)))
  | .localFunction returnType name parameters body, h => by
    obtain ⟨htype, hrest⟩ := List.forall_mem_cons.1 h
    obtain ⟨hname, hrest⟩ := List.forall_mem_cons.1 hrest
    obtain ⟨hparameters, hbody⟩ := List.forall_mem_append.1 hrest
    have hhead : IsSimple (returnType ++ " " ++ name ++ "(" ++ formalsText parameters ++ ")") :=
      ((((htype.append (by decide)).append hname.isPiece).append (by decide)).append
        (isPiece_formalsText hparameters)).append (by decide)
    cases body with
    | expression e => exact .headed hhead (Expr.starts_layout level hbody)
    | block statements => exact .block hhead (nested_layoutStatements (level + 1) hbody)

theorem nested_layoutStatements (level : Nat) : ∀ {statements : List Statement},
    (∀ text ∈ textsOfStatements statements, IsSimple text) →
      Nested level (unmarked (layoutStatements level statements)) level
  | [], _ => .nil level
  | s :: rest, h => by
    obtain ⟨hs, hrest⟩ := List.forall_mem_append.1 h
    rw [layoutStatements, unmarked_append]
    exact (Statement.starts_layout level hs).toLines.append (nested_layoutStatements level hrest)

end

end EventWrap.Code
