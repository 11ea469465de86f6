import EventWrap.Proofs.Code.Tidy

/-!
# Lines that follow the braces

The depth of a line is the number of braces that are open in front of it, where lines of
documentation do not count. Lines are nested from one depth to another when each stands at its
depth: a line with a closing brace at its head at the depth it goes back to, a line with a mark one
level deeper. The text of nested lines shows this: scanning its braces gives the depths, and every
line starts with four blanks for each level.
-/

namespace EventWrap.Code

open Text Line

/-! ## Scanning -/

/-- The number of open braces after one more character; nothing when none was open to be closed. -/
def brace (depth : Nat) (c : Char) : Option Nat :=
  if c = '\x7b' then some (depth + 1)
  else if c = '\x7d' then (if depth = 0 then none else some (depth - 1))
  else some depth

@[simp] theorem brace_open (depth : Nat) : brace depth '\x7b' = some (depth + 1) := if_pos rfl

@[simp] theorem brace_close (depth : Nat) : brace (depth + 1) '\x7d' = some depth := by
  simp [brace]

/-- The number of open braces after some lines, those of documentation left out. -/
def depthAfter (lines : List (List Char)) : Option Nat :=
  (lines.filter fun line => !isDocumentation line).flatten.foldlM brace 0

/-- The number of blanks that a line starts with. -/
def indentationOf (line : List Char) : Nat := (line.takeWhile (· == ' ')).length

/-- Behind its blanks a line starts with a closing brace. -/
def closes (line : List Char) : Bool := (line.dropWhile (· == ' ')).head? == some '\x7d'

theorem foldlM_brace_of_unbraced {chars : List Char}
    (h : ∀ c ∈ chars, c ≠ '\x7b' ∧ c ≠ '\x7d') (depth : Nat) :
    chars.foldlM brace depth = some depth := by
  induction chars with
  | nil => rfl
  | cons c rest ih =>
    obtain ⟨⟨hopen, hclose⟩, hrest⟩ := List.forall_mem_cons.1 h
    rw [List.foldlM_cons, brace, if_neg hopen, if_neg hclose]
    exact ih hrest

theorem IsPiece.foldlM_brace {text : String} (h : IsPiece text) (depth : Nat) :
    text.toList.foldlM brace depth = some depth :=
  foldlM_brace_of_unbraced (fun c hc => (isPiece_iff.1 h c hc).2) depth

/-! ## Texts on a line -/

/-- The first character of a text is no blank. -/
def begins (text : String) : Bool := headIs (· != ' ') text

theorem begins_append {a : String} (h : begins a) (b : String) : begins (a ++ b) :=
  headIs_append h b

/-- A piece of a line that begins with no blank. -/
structure IsSimple (text : String) : Prop where
  begins : begins text
  isPiece : IsPiece text

theorem isSimple_iff {text : String} : IsSimple text ↔ begins text ∧ IsPiece text :=
  ⟨fun h => ⟨h.begins, h.isPiece⟩, fun h => ⟨h.1, h.2⟩⟩

instance (text : String) : Decidable (IsSimple text) := decidable_of_iff' _ isSimple_iff

theorem IsSimple.append {a b : String} (ha : IsSimple a) (hb : IsPiece b) : IsSimple (a ++ b) :=
  ⟨begins_append ha.begins b, isPiece_append.2 ⟨ha.isPiece, hb⟩⟩

/-- A text on one line that closes every brace that it opens, and none before that. -/
structure IsSteady (text : String) : Prop where
  oneLine : IsOneLine text
  begins : begins text
  unclosed : text.toList.head? ≠ some '\x7d'
  balanced : ∀ depth, text.toList.foldlM brace depth = some depth

theorem IsSimple.isSteady {text : String} (h : IsSimple text) : IsSteady text where
  oneLine := h.isPiece.1
  begins := h.begins
  unclosed hhead := h.isPiece.2.2 (List.mem_of_mem_head? hhead)
  balanced := h.isPiece.foldlM_brace

/-! ## Marked lines -/

/-- A line of a layout, with a mark where it is to stand one level deeper. -/
abbrev MarkedLine := Line × Bool

/-- Lines without marks. -/
def unmarked (lines : List Line) : List MarkedLine := lines.map fun l => (l, false)

/-- Groups of lines with one empty line between any two. -/
def apart : List (List MarkedLine) → List MarkedLine
  | [] => []
  | [lines] => lines
  | lines :: rest => lines ++ (Line.empty, false) :: apart rest

/-- The texts on marked lines. -/
def clauses (lines : List MarkedLine) : List String :=
  lines.filterMap fun l => if l.2 then some l.1.text else none

@[simp] theorem unmarked_cons (l : Line) (lines : List Line) :
    unmarked (l :: lines) = (l, false) :: unmarked lines := rfl

@[simp] theorem unmarked_append (lines lines' : List Line) :
    unmarked (lines ++ lines') = unmarked lines ++ unmarked lines' := List.map_append

theorem map_fst_apart (groups : List (List MarkedLine)) :
    (apart groups).map (·.1) = spaced (groups.map fun lines => lines.map (·.1)) := by
  fun_induction apart groups with
  | case1 => rfl
  | case2 lines => rfl
  | case3 lines rest hrest ih =>
    obtain ⟨next, others, rfl⟩ := List.exists_cons_of_ne_nil hrest
    rw [List.map_append, List.map_cons, ih]
    rfl

theorem map_fst_unmarked (lines : List Line) : (unmarked lines).map (·.1) = lines := by
  rw [unmarked, List.map_map]
  exact List.map_id lines

theorem clauses_append (lines lines' : List MarkedLine) :
    clauses (lines ++ lines') = clauses lines ++ clauses lines' := List.filterMap_append

@[simp] theorem clauses_unmarked (lines : List Line) : clauses (unmarked lines) = [] := by
  simp [clauses, unmarked]

theorem clauses_apart (groups : List (List MarkedLine)) :
    clauses (apart groups) = groups.flatMap clauses := by
  fun_induction apart groups with
  | case1 => rfl
  | case2 lines => exact (List.append_nil _).symm
  | case3 lines rest hrest ih =>
    rw [clauses_append, List.flatMap_cons, ← ih]
    rfl

/-- The lines of the text, with the empty one behind the end of the last. -/
def written (lines : List MarkedLine) : List (List Char) := lines.map (·.1.chars) ++ [[]]

/-! ## Nested lines -/

/-- A line stands at its depth, with the number of open braces in front of it and behind it. -/
inductive Stands : Nat → MarkedLine → Nat → Prop
  | empty (depth : Nat) : Stands depth (Line.empty, false) depth
  | doc {l : Line} (isDoc : l.IsDoc) : Stands l.level (l, false) l.level
  | steady {text : String} (isSteady : IsSteady text) (depth : Nat) (mark : Bool) :
      Stands depth (⟨depth + mark.toNat, text⟩, mark) depth
  | opening (depth : Nat) : Stands depth (⟨depth, "\x7b"⟩, false) (depth + 1)
  | closing {text : String} (isPiece : IsPiece text) (depth : Nat) :
      Stands (depth + 1) (⟨depth, "\x7d" ++ text⟩, false) depth

theorem Stands.simple {text : String} (h : IsSimple text) (depth : Nat) :
    Stands depth (⟨depth, text⟩, false) depth :=
  .steady h.isSteady depth false

/-- All lines stand at their depths, from a number of open braces to another. -/
inductive Nested : Nat → List MarkedLine → Nat → Prop
  | nil (depth : Nat) : Nested depth [] depth
  | cons {depth depth' depth'' : Nat} {l : MarkedLine} {rest : List MarkedLine}
      (first : Stands depth l depth') (others : Nested depth' rest depth'') :
      Nested depth (l :: rest) depth''

namespace Nested

variable {depth depth' depth'' : Nat} {lines lines' : List MarkedLine}

theorem of_forall (h : ∀ l ∈ lines, Stands depth l depth) : Nested depth lines depth := by
  induction lines with
  | nil => exact .nil depth
  | cons l rest ih =>
    obtain ⟨hl, hrest⟩ := List.forall_mem_cons.1 h
    exact .cons hl (ih hrest)

theorem append (h : Nested depth lines depth') (h' : Nested depth' lines' depth'') :
    Nested depth (lines ++ lines') depth'' := by
  induction h with
  | nil => exact h'
  | cons first _ ih => exact .cons first (ih h')

/-- What is nested as a whole is nested in parts. -/
theorem exists_of_append (h : Nested depth (lines ++ lines') depth'') :
    ∃ depth', Nested depth lines depth' ∧ Nested depth' lines' depth'' := by
  induction lines generalizing depth with
  | nil => exact ⟨depth, .nil depth, h⟩
  | cons l rest ih =>
    cases h with
    | cons first others =>
      obtain ⟨middle, hrest, hlines'⟩ := ih others
      exact ⟨middle, .cons first hrest, hlines'⟩

/-- Groups of lines stay nested with an empty line between any two. -/
theorem apart {groups : List (List MarkedLine)} (h : ∀ g ∈ groups, Nested depth g depth) :
    Nested depth (Code.apart groups) depth := by
  fun_induction Code.apart groups with
  | case1 => exact .nil depth
  | case2 lines => exact h lines List.mem_cons_self
  | case3 lines rest hrest ih =>
    obtain ⟨hlines, hothers⟩ := List.forall_mem_cons.1 h
    exact hlines.append (.cons (.empty depth) (ih hothers))

/-- Lines in braces stand one level deeper than the braces. -/
theorem inBraces (h : Nested (depth + 1) lines (depth + 1)) :
    Nested depth ((⟨depth, "\x7b"⟩, false) :: (lines ++ [(⟨depth, "\x7d"⟩, false)])) depth := by
  have hclosing : Nested (depth + 1) [(⟨depth, "\x7d" ++ ""⟩, false)] depth :=
    .cons (.closing (by decide) depth) (.nil depth)
  exact .cons (.opening depth) (h.append hclosing)

end Nested

theorem nested_inBraces {level : Nat} {lines : List Line}
    (h : Nested (level + 1) (unmarked lines) (level + 1)) :
    Nested level (unmarked (inBraces level lines)) level := by
  rw [inBraces, unmarked_cons, unmarked_append]
  exact h.inBraces

/-! ## Texts of nested lines -/

theorem chars_eq (l : Line) : l.chars = List.replicate (4 * l.level) ' ' ++ l.text.toList := by
  rw [chars, String.toList_append, indentation, String.toList_ofList]

theorem foldlM_brace_chars (l : Line) (depth : Nat) :
    l.chars.foldlM brace depth = l.text.toList.foldlM brace depth := by
  have hblanks : ∀ c ∈ List.replicate (4 * l.level) ' ', c ≠ '\x7b' ∧ c ≠ '\x7d' := by
    intro c hc
    rw [List.eq_of_mem_replicate hc]
    decide
  rw [chars_eq, List.foldlM_append, foldlM_brace_of_unbraced hblanks]
  rfl

/-- A text that begins with no blank stands behind exactly the blanks of its level. -/
theorem blanks_of_begins {l : Line} (h : begins l.text) :
    indentationOf l.chars = 4 * l.level ∧ l.chars.dropWhile (· == ' ') = l.text.toList := by
  have hblanks : ∀ c ∈ List.replicate (4 * l.level) ' ', (c == ' ') = true := fun c hc =>
    beq_iff_eq.2 (List.eq_of_mem_replicate hc)
  obtain ⟨c, rest, htext, hc⟩ := headIs_iff.1 h
  have hc : ¬(c == ' ') = true := by simpa using hc
  rw [indentationOf, chars_eq, List.takeWhile_append_of_pos hblanks,
    List.dropWhile_append_of_pos hblanks, htext, List.takeWhile_cons_of_neg (by exact hc),
    List.dropWhile_cons_of_neg (by exact hc), List.append_nil, List.length_replicate]
  exact ⟨rfl, rfl⟩

namespace Stands

variable {depth depth' : Nat} {l : MarkedLine}

theorem oneLine (h : Stands depth l depth') : IsOneLine l.1.text := by
  cases h with
  | empty => decide
  | doc isDoc => exact isDoc.oneLine
  | steady isSteady => exact isSteady.oneLine
  | opening => exact (by decide : IsOneLine "\x7b")
  | closing isPiece => exact isOneLine_append.2 ⟨by decide, isPiece.1⟩

/-- The braces of a line lead from the depth in front of it to the one behind it. -/
theorem scanned (h : Stands depth l depth') :
    (if isDocumentation l.1.chars then [] else l.1.chars).foldlM brace depth = some depth' := by
  cases h with
  | empty => rfl
  | doc isDoc =>
    rw [isDoc.isDocumentation]
    rfl
  | steady isSteady =>
    split
    · rfl
    · rw [foldlM_brace_chars]
      exact isSteady.balanced depth
  | opening =>
    have hcode := (isCode_brace depth).1.not_isDocumentation
    rw [hcode, if_neg Bool.false_ne_true, foldlM_brace_chars]
    have hopen : "\x7b".toList = ['\x7b'] := by decide
    simp only [hopen, List.foldlM_cons, List.foldlM_nil, brace_open]
    rfl
  | @closing text isPiece =>
    have hcode : Line.IsCode ⟨depth', "\x7d" ++ text⟩ :=
      ⟨isOneLine_append.2 ⟨by decide, isPiece.1⟩, opens_append (by decide) text⟩
    have hclose : "\x7d".toList = ['\x7d'] := by decide
    rw [hcode.not_isDocumentation, if_neg Bool.false_ne_true, foldlM_brace_chars]
    simp only [String.toList_append, hclose, List.singleton_append, List.foldlM_cons, brace_close]
    exact isPiece.foldlM_brace depth'

/-- A line starts with four blanks for each brace open in front of it, where one that it closes at
its head does not count, and with four more under a mark. -/
theorem indented (h : Stands depth l depth') (hne : l.1.chars ≠ []) :
    indentationOf l.1.chars = 4 * (depth - (closes l.1.chars).toNat + l.2.toNat) := by
  have hbegins : ∀ {l : Line}, begins l.text →
      indentationOf l.chars = 4 * l.level ∧
        closes l.chars = (l.text.toList.head? == some '\x7d') := by
    intro l hl
    rw [closes, (blanks_of_begins hl).2]
    exact ⟨(blanks_of_begins hl).1, rfl⟩
  cases h with
  | empty => exact absurd rfl hne
  | @doc l isDoc =>
    obtain ⟨rest, hrest⟩ := isDoc.slashes
    have hl : begins l.text := headIs_iff.2 ⟨'/', '/' :: '/' :: rest, hrest.symm, by decide⟩
    rw [(hbegins hl).1, (hbegins hl).2, ← hrest]
    rfl
  | @steady text isSteady _ mark =>
    obtain ⟨hblanks, hcloses⟩ := hbegins (l := ⟨depth + mark.toNat, text⟩) isSteady.begins
    rw [hblanks, hcloses, beq_eq_false_iff_ne.2 isSteady.unclosed]
    rfl
  | opening =>
    obtain ⟨hblanks, hcloses⟩ := hbegins (l := ⟨depth, "\x7b"⟩) (by decide : begins "\x7b")
    have hopen : ("\x7b".toList.head? == some '\x7d') = false := by decide
    rw [hblanks, hcloses, hopen]
    rfl
  | @closing text isPiece =>
    have hl : begins ("\x7d" ++ text) := begins_append (by decide) text
    obtain ⟨hblanks, hcloses⟩ := hbegins (l := ⟨depth', "\x7d" ++ text⟩) hl
    rw [hblanks, hcloses, String.toList_append]
    rfl

theorem begins_of_marked (h : Stands depth l depth') (hmark : l.2 = true) : begins l.1.text := by
  cases h with
  | steady isSteady => exact isSteady.begins
  | empty => cases hmark
  | doc => cases hmark
  | opening => cases hmark
  | closing => cases hmark

end Stands

namespace Nested

variable {depth depth' : Nat} {lines : List MarkedLine}

theorem oneLine (h : Nested depth lines depth') : ∀ l ∈ lines, IsOneLine l.1.text := by
  induction h with
  | nil => exact List.forall_mem_nil _
  | cons first _ ih => exact List.forall_mem_cons.2 ⟨first.oneLine, ih⟩

/-- The braces of nested lines lead from the first depth to the last. -/
theorem scanned (h : Nested depth lines depth') :
    ((lines.map (·.1.chars)).filter fun line => !isDocumentation line).flatten.foldlM brace depth =
      some depth' := by
  induction h with
  | nil => rfl
  | @cons depth middle depth' l rest first _ ih =>
    have hfirst := first.scanned
    rw [List.map_cons, List.filter_cons]
    cases hdoc : isDocumentation l.1.chars with
    | true =>
      rw [hdoc] at hfirst
      obtain rfl : depth = middle := Option.some.inj hfirst
      exact ih
    | false =>
      rw [hdoc, if_neg Bool.false_ne_true] at hfirst
      rw [Bool.not_false, if_pos rfl, List.flatten_cons, List.foldlM_append, hfirst]
      exact ih

theorem splitOn_textOf (h : Nested depth lines depth') :
    (textOf (lines.map (·.1))).toList.splitOn '\n' = written lines := by
  rw [Line.splitOn_textOf (List.forall_mem_map.2 h.oneLine), List.map_map]
  rfl

/-- All braces of nested lines are closed. -/
theorem closed (h : Nested 0 lines 0) : depthAfter (written lines) = some 0 := by
  rw [depthAfter, written, List.filter_append, List.flatten_append, List.foldlM_append, h.scanned]
  rfl

/-- Every nested line is indented as the braces in front of it say. -/
theorem indented (h : Nested 0 lines 0) {i : Nat} {line : List Char}
    (hline : (written lines)[i]? = some line) (hne : line ≠ []) :
    ∃ depth, depthAfter ((written lines).take i) = some depth ∧
      indentationOf line =
        4 * (depth - (closes line).toNat + ((lines.map (·.2)).getD i false).toNat) := by
  have hi : i < lines.length := by
    refine Nat.lt_of_not_le fun hge => hne ?_
    rw [written, List.getElem?_append_right (by simpa using hge)] at hline
    exact List.mem_singleton.1 (List.mem_of_getElem? hline)
  have hmarked : lines = lines.take i ++ lines[i] :: lines.drop (i + 1) := by
    rw [List.getElem_cons_drop, List.take_append_drop]
  obtain ⟨depth, hbefore, hafter⟩ := exists_of_append (hmarked ▸ h)
  cases hafter with
  | cons first _ =>
    have hchars : lines[i].1.chars = line := by
      rw [written, List.getElem?_append_left (by simpa using hi), List.getElem?_map,
        List.getElem?_eq_getElem hi] at hline
      exact Option.some.inj hline
    have hmark : (lines.map (·.2)).getD i false = lines[i].2 := by
      rw [List.getD_eq_getElem?_getD, List.getElem?_map, List.getElem?_eq_getElem hi]
      rfl
    refine ⟨depth, ?_, ?_⟩
    · rw [written, List.take_append_of_le_length (by simpa using Nat.le_of_lt hi), ← List.map_take]
      exact hbefore.scanned
    · rw [hmark, ← hchars]
      exact first.indented (hchars ▸ hne)

/-- The lines with marks read as the texts on them, behind their blanks. -/
theorem filter_marked (h : Nested depth lines depth') :
    (((written lines).zip (lines.map (·.2))).filter (·.2)).map
        (·.1.dropWhile (· == ' ')) = (clauses lines).map (·.toList) := by
  have hzip : (written lines).zip (lines.map (·.2)) = lines.map fun l => (l.1.chars, l.2) := by
    rw [written, ← List.append_nil (lines.map (·.2)), List.zip_append (by simp), List.zip_map']
    exact List.append_nil _
  rw [hzip]
  clear hzip
  induction h with
  | nil => rfl
  | @cons _ _ _ l rest first _ ih =>
    rw [List.map_cons, List.filter_cons, clauses, List.filterMap_cons]
    cases hmark : l.2 with
    | false => exact ih
    | true =>
      exact List.cons_eq_cons.2 ⟨(blanks_of_begins (first.begins_of_marked hmark)).2, ih⟩

end Nested

end EventWrap.Code
