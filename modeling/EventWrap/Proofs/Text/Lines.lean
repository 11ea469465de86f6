import EventWrap.Text.Blank
import EventWrap.Text.Lines

/-!
# Lines taken out of a text

Texts that are joined and read back, texts on one line, and the text that is left when some of its
lines are taken out. A text that is made of lines with their ends loses exactly the lines that are
to go.
-/

namespace EventWrap.Text

/-! ## Joined texts -/

/-- What holds of the separator's characters holds of all where it holds of those of the texts. -/
theorem forall_mem_intercalate {holds : Char → Prop} {separator : String} {texts : List String}
    (hseparator : ∀ c ∈ separator.toList, holds c) :
    (∀ c ∈ (separator.intercalate texts).toList, holds c) ↔
      ∀ text ∈ texts, ∀ c ∈ text.toList, holds c := by
  induction texts with
  | nil => simp
  | cons text rest ih =>
    cases rest with
    | nil => simp
    | cons next others =>
      rw [String.intercalate_cons_cons, String.toList_append, String.toList_append,
        List.forall_mem_append, List.forall_mem_append, ih, and_iff_left hseparator]
      simp only [List.forall_mem_cons]

/-- The parts of a text between the occurrences of a mark. -/
def parts (mark : Char) (text : String) : List String :=
  (text.toList.splitOn mark).map String.ofList

/-- Texts without the mark are read back from the one in which they are joined by it. -/
theorem parts_intercalate {mark : Char} {texts : List String}
    (htexts : ∀ text ∈ texts, mark ∉ text.toList) (hne : texts ≠ []) :
    parts mark ((String.singleton mark).intercalate texts) = texts := by
  have hchars : ∀ chars ∈ texts.map String.toList, mark ∉ chars := List.forall_mem_map.2 htexts
  calc parts mark ((String.singleton mark).intercalate texts)
    _ = (([mark].intercalate (texts.map String.toList)).splitOn mark).map String.ofList := by
      rw [parts, String.toList_intercalate, String.toList_singleton]
    _ = (texts.map String.toList).map String.ofList := by
      rw [List.splitOn_intercalate mark hchars (mt List.map_eq_nil_iff.1 hne)]
    _ = texts := by simp

/-! ## Texts on one line -/

def IsOneLine (text : String) : Prop := '\n' ∉ text.toList

instance (text : String) : Decidable (IsOneLine text) := inferInstanceAs (Decidable (_ ∉ _))

@[simp] theorem isOneLine_append {a b : String} :
    IsOneLine (a ++ b) ↔ IsOneLine a ∧ IsOneLine b := by
  simp [IsOneLine]

theorem isOneLine_join {texts : List String} :
    IsOneLine (String.join texts) ↔ ∀ text ∈ texts, IsOneLine text := by
  simp [IsOneLine, String.toList_join]

theorem isOneLine_intercalate {separator : String} {texts : List String}
    (hseparator : IsOneLine separator) (htexts : ∀ text ∈ texts, IsOneLine text) :
    IsOneLine (separator.intercalate texts) := by
  have hchars : ∀ text ∈ texts, ∀ c ∈ text.toList, c ≠ '\n' := fun text htext =>
    List.forall_mem_ne'.2 (htexts text htext)
  rw [IsOneLine, ← List.forall_mem_ne']
  exact (forall_mem_intercalate (List.forall_mem_ne'.2 hseparator)).2 hchars

theorem isDigit_of_mem_toString {n : Nat} {c : Char} (h : c ∈ (toString n).toList) :
    c.isDigit = true := by
  rw [Nat.toString_eq_repr, Nat.toList_repr] at h
  exact Nat.isDigit_of_mem_toDigits (by decide) (by decide) h

theorem isOneLine_toString (n : Nat) : IsOneLine (toString n) := by
  intro hfeed
  cases isDigit_of_mem_toString hfeed

theorem not_mem_of_mem_splitLines {chars line : List Char} (h : line ∈ splitLines chars) :
    '\n' ∉ line := by
  fun_induction splitLines chars generalizing line with
  | case1 => cases h
  | case2 rest ih =>
    rcases List.mem_cons.1 h with rfl | h
    · exact List.not_mem_nil
    · exact ih h
  | case3 rest ih =>
    rcases List.mem_cons.1 h with rfl | h
    · exact List.not_mem_nil
    · exact ih h
  | case4 c rest hfeed hreturn hnone ih =>
    rw [List.mem_singleton.1 h, List.mem_singleton]
    exact fun heq => hfeed heq.symm
  | case5 c rest hfeed hreturn first others hlines ih =>
    rcases List.mem_cons.1 h with rfl | h
    · refine List.not_mem_cons_of_ne_of_not_mem (fun heq => hfeed heq.symm) (ih ?_)
      exact hlines ▸ List.mem_cons_self
    · exact ih (hlines ▸ List.mem_cons_of_mem _ h)

theorem isOneLine_of_mem_lines {text line : String} (h : line ∈ lines text) : IsOneLine line := by
  obtain ⟨chars, hchars, rfl⟩ := List.mem_map.1 h
  rw [IsOneLine, String.toList_ofList]
  exact not_mem_of_mem_splitLines hchars

/-! ## Taking lines out -/

/-- A text without those lines that are to go. -/
def withoutLines (goes : List Char → Bool) (text : String) : String :=
  String.ofList (['\n'].intercalate ((text.toList.splitOn '\n').filter fun line => !goes line))

theorem splitOn_flatMap_lines {lines : List (List Char)} (h : ∀ line ∈ lines, '\n' ∉ line) :
    (lines.flatMap fun line => line ++ ['\n']).splitOn '\n' = lines ++ [[]] := by
  induction lines with
  | nil => rfl
  | cons line rest ih =>
    obtain ⟨hline, hrest⟩ := List.forall_mem_cons.1 h
    rw [List.flatMap_cons, List.append_assoc, List.singleton_append, List.splitOn_append_cons_self,
      List.splitOn_eq_singleton hline, ih hrest]
    rfl

theorem intercalate_concat_nil (lines : List (List Char)) :
    ['\n'].intercalate (lines ++ [[]]) = lines.flatMap fun line => line ++ ['\n'] := by
  induction lines with
  | nil => rfl
  | cons line rest ih =>
    rw [List.cons_append, List.intercalate_cons_of_ne_nil (by simp), ih, List.flatMap_cons]

/-- Of a text made of lines with their ends, the lines that stay are left. -/
theorem withoutLines_ofList {goes : List Char → Bool} (hnothing : goes [] = false)
    {lines : List (List Char)} (h : ∀ line ∈ lines, '\n' ∉ line) :
    withoutLines goes (String.ofList (lines.flatMap fun line => line ++ ['\n'])) =
      String.ofList ((lines.filter fun line => !goes line).flatMap fun line => line ++ ['\n']) := by
  rw [withoutLines, String.toList_ofList, splitOn_flatMap_lines h, List.filter_append,
    List.filter_cons_of_pos (by simp [hnothing]), List.filter_nil, intercalate_concat_nil]

/-- The first characters of a line that are not blank are three slashes. -/
def isDocumentation (line : List Char) : Bool :=
  ['/', '/', '/'].isPrefixOf (line.dropWhile isBlank)

/-- A line switches on the checks for null. -/
def isNullableDirective (line : List Char) : Bool := line == "#nullable enable".toList

end EventWrap.Text
