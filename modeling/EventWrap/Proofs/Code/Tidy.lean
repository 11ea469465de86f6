import EventWrap.Proofs.Code.Pieces

/-!
# Tidy code

Every line of code begins with a character that is neither blank nor a slash nor a number sign, so
that it is neither documentation nor a directive. Texts on one line, and statements that begin in
this way, are enough for that: a tree that consists of them is laid out in lines of code.
-/

namespace EventWrap.Code

open Text

/-! ## Lines -/

/-- A text begins as code does: not with a blank, a comment or a directive. -/
def opens (text : String) : Bool :=
  match text.toList with
  | [] => false
  | c :: _ => !isBlank c && c != '/' && c != '#'

theorem opens_eq (text : String) :
    opens text = headIs (fun c => !isBlank c && c != '/' && c != '#') text := rfl

theorem opens_append {a : String} (h : opens a) (b : String) : opens (a ++ b) :=
  headIs_append h b

theorem opens_modifiersText {modifiers : List Modifier} (h : modifiers ≠ []) (text : String) :
    opens (modifiersText modifiers ++ text) := by
  obtain ⟨m, rest, rfl⟩ := List.exists_cons_of_ne_nil h
  rw [modifiersText, List.map_cons, String.join_cons, String.append_assoc, String.append_assoc]
  exact opens_append (by cases m <;> decide) _

theorem isOneLine_modifiersText (modifiers : List Modifier) :
    IsOneLine (modifiersText modifiers) :=
  isOneLine_iff.2 (consists_modifiersText ofMarks_ne_lineFeed modifiers)

namespace Line

structure IsCode (l : Line) : Prop where
  oneLine : IsOneLine l.text
  opens : opens l.text

structure IsDoc (l : Line) : Prop where
  oneLine : IsOneLine l.text
  slashes : ['/', '/', '/'] <+: l.text.toList

/-- A line as written, without its end. -/
def chars (l : Line) : List Char := (indentation l.level ++ l.text).toList

/-- Some lines without those that are to go. -/
def without (goes : List Char → Bool) (lines : List Line) : List Line :=
  lines.filter fun l => !goes l.chars

theorem textOf_eq (lines : List Line) :
    textOf lines = String.ofList ((lines.map chars).flatMap fun line => line ++ ['\n']) := by
  refine String.toList_injective ?_
  rw [textOf, String.toList_join, String.toList_ofList, List.flatMap_map, List.flatMap_map]
  refine congrArg (lines.flatMap ·) (funext fun l => ?_)
  rw [toText, String.toList_append]
  rfl

theorem not_mem_chars {l : Line} (h : IsOneLine l.text) : '\n' ∉ l.chars := by
  rw [chars, String.toList_append, indentation, String.toList_ofList, List.mem_append,
    List.mem_replicate]
  exact fun hmem => hmem.elim (fun hfeed => absurd hfeed.2 (by decide)) h

theorem splitOn_textOf {lines : List Line} (h : ∀ l ∈ lines, IsOneLine l.text) :
    (textOf lines).toList.splitOn '\n' = lines.map chars ++ [[]] := by
  rw [textOf_eq, String.toList_ofList,
    splitOn_flatMap_lines (List.forall_mem_map.2 fun l hl => not_mem_chars (h l hl))]

theorem textOf_without {goes : List Char → Bool} (hnothing : goes [] = false) {lines : List Line}
    (h : ∀ l ∈ lines, IsOneLine l.text) :
    textOf (without goes lines) = withoutLines goes (textOf lines) := by
  rw [textOf_eq, textOf_eq, withoutLines_ofList hnothing
    (List.forall_mem_map.2 fun l hl => not_mem_chars (h l hl)), List.filter_map]
  rfl

theorem dropWhile_chars (l : Line) :
    l.chars.dropWhile isBlank = l.text.toList.dropWhile isBlank := by
  rw [chars, String.toList_append, indentation, String.toList_ofList,
    List.dropWhile_append_of_pos fun c hc => (List.mem_replicate.1 hc).2 ▸ rfl]

theorem IsCode.exists_chars {l : Line} (h : l.IsCode) : ∃ c rest,
    l.chars.dropWhile isBlank = c :: rest ∧ c ≠ '/' ∧ c ≠ '#' := by
  have hopens := h.opens
  rw [opens_eq, headIs_iff] at hopens
  obtain ⟨c, rest, htext, hc⟩ := hopens
  simp only [Bool.and_eq_true, Bool.not_eq_true', bne_iff_ne, ne_eq] at hc
  obtain ⟨⟨hblank, hslash⟩, hsign⟩ := hc
  rw [dropWhile_chars, htext]
  exact ⟨c, rest, List.dropWhile_cons_of_neg (by simp [hblank]), hslash, hsign⟩

theorem IsDoc.exists_chars {l : Line} (h : l.IsDoc) :
    ∃ rest, l.chars.dropWhile isBlank = '/' :: '/' :: '/' :: rest := by
  obtain ⟨rest, hrest⟩ := h.slashes
  refine ⟨rest, ?_⟩
  rw [dropWhile_chars, ← hrest]
  exact List.dropWhile_cons_of_neg (by decide)

theorem IsCode.not_isDocumentation {l : Line} (h : l.IsCode) : isDocumentation l.chars = false := by
  obtain ⟨c, rest, hchars, hslash, -⟩ := h.exists_chars
  rw [isDocumentation, hchars]
  simp [List.isPrefixOf, Ne.symm hslash]

theorem IsDoc.isDocumentation {l : Line} (h : l.IsDoc) : isDocumentation l.chars = true := by
  obtain ⟨rest, hchars⟩ := h.exists_chars
  rw [Text.isDocumentation, hchars]
  rfl

theorem not_isNullableDirective_of_dropWhile {l : Line} {c : Char} {rest : List Char}
    (h : l.chars.dropWhile isBlank = c :: rest) (hc : c ≠ '#') :
    isNullableDirective l.chars = false := by
  rw [isNullableDirective, beq_eq_false_iff_ne]
  intro heq
  rw [heq] at h
  exact hc (List.cons.inj h).1.symm

theorem IsCode.not_isNullableDirective {l : Line} (h : l.IsCode) :
    isNullableDirective l.chars = false := by
  obtain ⟨c, rest, hchars, -, hsign⟩ := h.exists_chars
  exact not_isNullableDirective_of_dropWhile hchars hsign

theorem IsDoc.not_isNullableDirective {l : Line} (h : l.IsDoc) :
    isNullableDirective l.chars = false := by
  obtain ⟨rest, hchars⟩ := h.exists_chars
  exact not_isNullableDirective_of_dropWhile hchars (by decide)

end Line

/-! ## Fragments -/

namespace Fragment

/-- What a fragment adds to its first line is on one line, and the others are lines of code. -/
structure IsCode (f : Fragment) : Prop where
  head : IsOneLine f.head
  rest : ∀ l ∈ f.rest, l.IsCode

theorem IsCode.ofText {text : String} (h : IsOneLine text) : (ofText text).IsCode :=
  ⟨h, List.forall_mem_nil _⟩

theorem isCode_extendLast {lines : List Line} {text : String} (h : ∀ l ∈ lines, l.IsCode)
    (htext : IsOneLine text) : ∀ l ∈ extendLast lines text, l.IsCode := by
  rw [extendLast]
  split
  · exact List.forall_mem_nil _
  · next last hlast =>
    rw [List.forall_mem_append, List.forall_mem_singleton]
    obtain ⟨hline, hopens⟩ := h last (List.mem_of_getLast? hlast)
    exact ⟨fun l hl => h l ((List.dropLast_sublist lines).subset hl),
      isOneLine_append.2 ⟨hline, htext⟩, opens_append hopens text⟩

theorem IsCode.append {f g : Fragment} (hf : f.IsCode) (hg : g.IsCode) : (f ++ g).IsCode := by
  change (Fragment.append f g).IsCode
  rw [Fragment.append]
  split
  · exact ⟨isOneLine_append.2 ⟨hf.head, hg.head⟩, hg.rest⟩
  · exact ⟨hf.head, List.forall_mem_append.2 ⟨isCode_extendLast hf.rest hg.head, hg.rest⟩⟩

theorem opens_head_append {f : Fragment} (h : opens f.head) (g : Fragment) :
    opens (f ++ g).head := by
  change opens (Fragment.append f g).head
  rw [Fragment.append]
  split
  · exact opens_append h _
  · exact h

theorem IsCode.commaSeparated {fragments : List Fragment} (h : ∀ f ∈ fragments, f.IsCode) :
    (commaSeparated fragments).IsCode := by
  induction fragments with
  | nil => exact .ofText (by decide)
  | cons f rest ih =>
    obtain ⟨hf, hrest⟩ := List.forall_mem_cons.1 h
    cases rest with
    | nil => exact hf
    | cons => exact hf.append ((IsCode.ofText (by decide)).append (ih hrest))

theorem IsCode.toLines {f : Fragment} (h : f.IsCode) (hopens : opens f.head) (level : Nat) :
    ∀ l ∈ f.toLines level, l.IsCode :=
  List.forall_mem_cons.2 ⟨⟨h.head, hopens⟩, h.rest⟩

end Fragment

/-! ## Expressions and statements -/

structure Formal.Tidy (f : Formal) : Prop where
  type : IsOneLine f.type
  name : IsOneLine f.name

/-- An expression begins as code does. -/
def Expr.opens : Expr → Bool
  | .name text => Code.opens text
  | .string _ | .boolean _ | .create .. | .tuple _ | .raise _ => true
  | .member target _ | .call target _ _ | .assign target _ _ => target.opens
  | .lambda parameters _ => Code.opens (lambdaHead parameters)

mutual

/-- All texts of an expression are on one line, and its statements begin as code does. -/
def Expr.Tidy : Expr → Prop
  | .name text => IsOneLine text
  | .string _ | .boolean _ => True
  | .member target name => target.Tidy ∧ IsOneLine name
  | .call target types arguments =>
    target.Tidy ∧ (∀ type ∈ types, IsOneLine type) ∧ AllTidy arguments
  | .create type arguments => IsOneLine type ∧ AllTidy arguments
  | .lambda parameters body => (∀ name ∈ parameters, IsOneLine name) ∧ body.Tidy
  | .tuple items => AllTidy items
  | .assign target _ value => target.Tidy ∧ value.Tidy
  | .raise exception => exception.Tidy

def AllTidy : List Expr → Prop
  | [] => True
  | e :: rest => e.Tidy ∧ AllTidy rest

def Body.Tidy : Body → Prop
  | .expression e => e.Tidy
  | .block statements => StatementsTidy statements

def Statement.Tidy : Statement → Prop
  | .expression e => e.Tidy ∧ e.opens
  | .result e => e.Tidy
  | .localFunction returnType name parameters body =>
    IsOneLine returnType ∧ opens returnType ∧ IsOneLine name ∧ (∀ f ∈ parameters, f.Tidy) ∧
      body.Tidy

def StatementsTidy : List Statement → Prop
  | [] => True
  | s :: rest => s.Tidy ∧ StatementsTidy rest

end

theorem allTidy_iff {es : List Expr} : AllTidy es ↔ ∀ e ∈ es, e.Tidy := by
  induction es with
  | nil => exact ⟨fun _ => List.forall_mem_nil _, fun _ => trivial⟩
  | cons e rest ih => rw [AllTidy, List.forall_mem_cons, ih]

theorem isOneLine_stringLiteral (value : String) : IsOneLine (stringLiteral value) := by
  have hescaped : ∀ c, '\n' ∉ escapeInLiteral c := by
    intro c hmem
    unfold escapeInLiteral at hmem
    grind
  rw [IsOneLine, stringLiteral, String.toList_ofList, List.mem_cons, List.mem_append,
    List.mem_flatMap, List.mem_singleton]
  rintro (hquote | ⟨c, -, hc⟩ | hquote)
  · cases hquote
  · exact hescaped c hc
  · cases hquote

theorem isOneLine_typeParametersText {names : List String} (h : ∀ name ∈ names, IsOneLine name) :
    IsOneLine (typeParametersText names) :=
  isOneLine_iff.2 (consists_typeParametersText ofMarks_ne_lineFeed fun name hname =>
    isOneLine_iff.1 (h name hname))

theorem isOneLine_formalsText {formals : List Formal} (h : ∀ f ∈ formals, f.Tidy) :
    IsOneLine (formalsText formals) :=
  isOneLine_iff.2 (consists_formalsText ofMarks_ne_lineFeed fun f hf =>
    ⟨isOneLine_iff.1 (h f hf).type, isOneLine_iff.1 (h f hf).name⟩)

theorem isOneLine_lambdaHead {names : List String} (h : ∀ name ∈ names, IsOneLine name) :
    IsOneLine (lambdaHead names) :=
  isOneLine_iff.2 (consists_lambdaHead ofMarks_ne_lineFeed fun name hname =>
    isOneLine_iff.1 (h name hname))

theorem opens_head_bodyLayout {head : String} (h : opens head) (level : Nat) (gap : String)
    (body : Body) : opens (body.layout level head gap).head := by
  cases body with
  | expression e => exact Fragment.opens_head_append (opens_append h gap) _
  | block statements => exact h

/-- An expression that begins as code does is laid out so. -/
theorem Expr.opens_head_layout (level : Nat) :
    ∀ {e : Expr}, e.opens → Code.opens (e.layout level).head
  | .name _, h => h
  | .string _, _ => by
    rw [Expr.layout, Fragment.ofText, stringLiteral, Code.opens, String.toList_ofList]
    rfl
  | .boolean true, _ => (by decide : Code.opens "true")
  | .boolean false, _ => (by decide : Code.opens "false")
  | .member target _, h | .call target _ _, h | .assign target _ _, h =>
    Fragment.opens_head_append (opens_head_layout level (e := target) h) _
  | .create .., _ => Fragment.opens_head_append
    (opens_append (opens_append (by decide) _) _) _
  | .lambda parameters body, h => opens_head_bodyLayout (opens_append h _) level _ body
  | .tuple _, _ => Fragment.opens_head_append (by decide) _
  | .raise _, _ => Fragment.opens_head_append (by decide) _

theorem isCode_brace (level : Nat) : Line.IsCode ⟨level, "\x7b"⟩ ∧ Line.IsCode ⟨level, "\x7d"⟩ :=
  ⟨⟨(by decide : IsOneLine "\x7b"), (by decide : opens "\x7b")⟩,
    ⟨(by decide : IsOneLine "\x7d"), (by decide : opens "\x7d")⟩⟩

/-- A head with statements in braces. -/
theorem isCode_block {head : String} {lines : List Line} (hhead : IsOneLine head)
    (hlines : ∀ l ∈ lines, l.IsCode) (level : Nat) :
    Fragment.IsCode ⟨head, ⟨level, "\x7b"⟩ :: (lines ++ [⟨level, "\x7d"⟩])⟩ := by
  refine ⟨hhead, List.forall_mem_cons.2 ⟨(isCode_brace level).1, ?_⟩⟩
  exact List.forall_mem_append.2 ⟨hlines, List.forall_mem_singleton.2 (isCode_brace level).2⟩

/-- Fragments between two texts, with commas between them. -/
theorem isCode_listed {front back : String} {fragments : List Fragment} (hfront : IsOneLine front)
    (hfragments : ∀ f ∈ fragments, f.IsCode) (hback : IsOneLine back) :
    (Fragment.ofText front ++
      (Fragment.commaSeparated fragments ++ Fragment.ofText back)).IsCode :=
  (Fragment.IsCode.ofText hfront).append
    ((Fragment.IsCode.commaSeparated hfragments).append (.ofText hback))

mutual

theorem Expr.isCode_layout (level : Nat) : ∀ {e : Expr}, e.Tidy → (e.layout level).IsCode
  | .name _, h => .ofText h
  | .string value, _ => .ofText (isOneLine_stringLiteral value)
  | .boolean value, _ => .ofText (by cases value <;> decide)
  | .member target name, h =>
    (Expr.isCode_layout level h.1).append (.ofText (isOneLine_append.2 ⟨by decide, h.2⟩))
  | .call target types arguments, h => (Expr.isCode_layout level h.1).append (isCode_listed
    (isOneLine_append.2 ⟨isOneLine_typeParametersText h.2.1, by decide⟩)
    (isCode_layoutAll level h.2.2) (by decide))
  | .create type arguments, h => isCode_listed
    (isOneLine_append.2 ⟨isOneLine_append.2 ⟨by decide, h.1⟩, by decide⟩)
    (isCode_layoutAll level h.2) (by decide)
  | .lambda parameters body, h => Body.isCode_layout level (show body.Tidy from h.2)
    (isOneLine_append.2 ⟨isOneLine_lambdaHead h.1, by decide⟩) (by decide)
  | .tuple items, h => isCode_listed (by decide) (isCode_layoutAll level h) (by decide)
  | .assign target op value, h => by
    have hop : IsOneLine (" " ++ op.token ++ " ") := by cases op <;> decide
    exact (Expr.isCode_layout level h.1).append
      ((Fragment.IsCode.ofText hop).append (Expr.isCode_layout level h.2))
  | .raise exception, h =>
    (Fragment.IsCode.ofText (by decide)).append (Expr.isCode_layout level (e := exception) h)

theorem isCode_layoutAll (level : Nat) : ∀ {es : List Expr}, AllTidy es →
    ∀ f ∈ layoutAll level es, f.IsCode
  | [], _ => List.forall_mem_nil _
  | _ :: _, h => List.forall_mem_cons.2 ⟨Expr.isCode_layout level h.1, isCode_layoutAll level h.2⟩

theorem Body.isCode_layout (level : Nat) {head gap : String} : ∀ {body : Body}, body.Tidy →
    IsOneLine head → IsOneLine gap → (body.layout level head gap).IsCode
  | .expression e, h, hhead, hgap =>
    have hfront : IsOneLine (head ++ gap) := isOneLine_append.2 ⟨hhead, hgap⟩
    (Fragment.IsCode.ofText hfront).append (Expr.isCode_layout level (e := e) h)
  | .block statements, h, hhead, _ =>
    have hstatements : StatementsTidy statements := h
    isCode_block hhead (isCode_layoutStatements (level + 1) hstatements) level

theorem Statement.isCode_toLines (level : Nat) : ∀ {s : Statement}, s.Tidy →
    ∀ l ∈ (s.layout level).toLines level, l.IsCode
  | .expression e, h => ((Expr.isCode_layout level h.1).append (.ofText (by decide))).toLines
    (Fragment.opens_head_append (Expr.opens_head_layout level h.2) _) level
  | .result e, h => ((Fragment.IsCode.ofText (by decide)).append
      ((Expr.isCode_layout level (e := e) h).append (.ofText (by decide)))).toLines
    (Fragment.opens_head_append (by decide) _) level
  | .localFunction returnType name parameters body, h => by
    obtain ⟨htype, hopens, hname, hparameters, hbody⟩ := h
    have hhead : IsOneLine (returnType ++ " " ++ name ++ "(" ++ formalsText parameters ++ ")") := by
      simp only [isOneLine_append]
      exact ⟨⟨⟨⟨⟨htype, by decide⟩, hname⟩, by decide⟩, isOneLine_formalsText hparameters⟩,
        by decide⟩
    have hbegins : opens (returnType ++ " " ++ name ++ "(" ++ formalsText parameters ++ ")") := by
      simp only [String.append_assoc]
      exact opens_append hopens _
    cases body with
    | expression e =>
      rw [Statement.layout]
      generalize returnType ++ " " ++ name ++ "(" ++ formalsText parameters ++ ")" = head
        at hhead hbegins ⊢
      have hline : IsOneLine (head ++ " => ") := isOneLine_append.2 ⟨hhead, by decide⟩
      exact ((Fragment.IsCode.ofText hline).append
        ((Expr.isCode_layout level hbody).append (.ofText (by decide)))).toLines
          (Fragment.opens_head_append (opens_append hbegins _) _) level
    | block statements =>
      rw [Statement.layout]
      generalize returnType ++ " " ++ name ++ "(" ++ formalsText parameters ++ ")" = head
        at hhead hbegins ⊢
      exact (isCode_block hhead (isCode_layoutStatements (level + 1) hbody) level).toLines
        hbegins level

theorem isCode_layoutStatements (level : Nat) : ∀ {statements : List Statement},
    StatementsTidy statements → ∀ l ∈ layoutStatements level statements, l.IsCode
  | [], _ => List.forall_mem_nil _
  | _ :: _, h => List.forall_mem_append.2
    ⟨Statement.isCode_toLines level h.1, isCode_layoutStatements level h.2⟩

end

end EventWrap.Code
