import EventWrap.Code.TypeText
import EventWrap.Proofs.Code.Identifier
import EventWrap.Proofs.Text.Lines

/-!
# Words of written types

The text of a type is made of names and keywords with separators between them. The words of a text
that is put together are those of its parts, wherever a separator stands between the parts. A text
has its keywords marked when no word of it is reserved, except for the keywords of built-in types.
-/

namespace EventWrap.Code

/-! ## Words -/

/-- The characters between the words of a type. -/
def separators : List Char := [':', '.', '<', '>', ',', ' ', '[', ']', '?']

def wordsIn (chars : List Char) : List (List Char) :=
  (chars.splitOnP (separators.contains ·)).filter (· ≠ [])

/-- The words of a type, from left to right. -/
def words (text : String) : List String := (wordsIn text.toList).map String.ofList

/-- What may stand between two words. -/
def IsPunctuation (text : String) : Prop := text ≠ "" ∧ ∀ c ∈ text.toList, c ∈ separators

instance (text : String) : Decidable (IsPunctuation text) :=
  have : Decidable (∀ c ∈ text.toList, c ∈ separators) := List.decidableBAll _ _
  inferInstanceAs (Decidable (_ ∧ _))

/-- A name with no separator in it. -/
def IsUnbroken (name : String) : Prop := ∀ c ∈ name.toList, c ∉ separators

instance (name : String) : Decidable (IsUnbroken name) := List.decidableBAll (· ∉ separators) _

theorem isUnbroken_append {a b : String} : IsUnbroken (a ++ b) ↔ IsUnbroken a ∧ IsUnbroken b := by
  rw [IsUnbroken, String.toList_append, List.forall_mem_append]
  rfl

theorem isUnbroken_join {texts : List String} :
    IsUnbroken (String.join texts) ↔ ∀ text ∈ texts, IsUnbroken text := by
  rw [IsUnbroken, String.toList_join, List.forall_mem_flatMap]
  rfl

theorem isUnbroken_toString (n : Nat) : IsUnbroken (toString n) := by
  intro c hc hseparator
  have hseparators : ∀ separator ∈ separators, separator.isDigit = false := by simp [separators]
  have hdigit := Text.isDigit_of_mem_toString hc
  rw [hseparators c hseparator] at hdigit
  cases hdigit

theorem isUnbroken_escape {name : String} (h : IsUnbroken name) : IsUnbroken (escape name) := by
  rw [escape]
  split
  · exact isUnbroken_append.2 ⟨by decide, h⟩
  · exact h

/-- A separator ends the word before it, and the next word starts after it. -/
theorem wordsIn_append_cons {separator : Char} (hseparator : separator ∈ separators)
    (a b : List Char) : wordsIn (a ++ separator :: b) = wordsIn a ++ wordsIn b := by
  simp only [wordsIn]
  rw [List.splitOnP_append_cons a b (by simpa using hseparator), List.filter_append]

theorem wordsIn_separators_append {gap : List Char}
    (hseparators : ∀ separator ∈ gap, separator ∈ separators) (b : List Char) :
    wordsIn (gap ++ b) = wordsIn b := by
  induction gap with
  | nil => rfl
  | cons separator gap ih =>
    obtain ⟨hseparator, hseparators⟩ := List.forall_mem_cons.1 hseparators
    calc wordsIn (separator :: gap ++ b)
      _ = wordsIn [] ++ wordsIn (gap ++ b) := wordsIn_append_cons hseparator [] (gap ++ b)
      _ = wordsIn b := ih hseparators

theorem words_append_punctuation {gap : String} (h : IsPunctuation gap) (a b : String) :
    words (a ++ gap ++ b) = words a ++ words b := by
  obtain ⟨hne, hseparators⟩ := h
  obtain ⟨separator, rest, htext⟩ : ∃ separator rest, gap.toList = separator :: rest :=
    List.exists_cons_of_ne_nil (by simpa using hne)
  rw [htext, List.forall_mem_cons] at hseparators
  have hwords : wordsIn (a ++ gap ++ b).toList = wordsIn a.toList ++ wordsIn b.toList := by
    rw [String.toList_append, String.toList_append, htext, List.append_assoc, List.cons_append,
      wordsIn_append_cons hseparators.1, wordsIn_separators_append hseparators.2]
  rw [words, hwords, List.map_append]
  rfl

theorem words_intercalate {gap : String} (h : IsPunctuation gap) (texts : List String) :
    words (gap.intercalate texts) = texts.flatMap words := by
  induction texts with
  | nil => rfl
  | cons text rest ih =>
    cases rest with
    | nil => simp
    | cons next others =>
      rw [String.intercalate_cons_cons, words_append_punctuation h, ih]
      rfl

/-- A name with no separator in it is a word, unless it is empty. -/
theorem words_of_isUnbroken {name : String} (h : IsUnbroken name) :
    words name = if name = "" then [] else [name] := by
  have hsplit : name.toList.splitOnP (separators.contains ·) = [name.toList] := by
    apply List.splitOnP_eq_singleton
    intro c hc
    simpa using h c hc
  rw [words, wordsIn, hsplit]
  by_cases hempty : name = ""
  · rw [hempty]
    rfl
  · simp [hempty]

/-! ## Reserved words -/

/-- A reserved word other than the keyword of a built-in type is no name as it is. -/
def needsMark (word : String) : Bool := isReserved word && (BuiltIn.ofKeyword? word).isNone

/-- No word of a text is reserved, except for the keywords of built-in types. -/
def KeywordsMarked (text : String) : Prop := ∀ word ∈ words text, needsMark word = false

instance (text : String) : Decidable (KeywordsMarked text) :=
  inferInstanceAs (Decidable (∀ _ ∈ _, _))

theorem keywordsMarked_empty : KeywordsMarked "" := by decide

theorem needsMark_of_not_isReserved {word : String} (h : isReserved word = false) :
    needsMark word = false := by
  rw [needsMark, h, Bool.false_and]

theorem needsMark_keyword (b : BuiltIn) : needsMark b.keyword = false := by
  rw [needsMark, BuiltIn.ofKeyword?_keyword, Option.isNone_some, Bool.and_false]

theorem keywordsMarked_iff_of_isUnbroken {name : String} (h : IsUnbroken name) :
    KeywordsMarked name ↔ needsMark name = false := by
  rw [KeywordsMarked, words_of_isUnbroken h]
  by_cases hempty : name = ""
  · rw [hempty]
    decide
  · simp [hempty]

theorem keywordsMarked_keyword (b : BuiltIn) : KeywordsMarked b.keyword := by
  apply (keywordsMarked_iff_of_isUnbroken ?_).2 (needsMark_keyword b)
  cases b <;> decide

theorem keywordsMarked_escape {name : String} (h : IsUnbroken name) :
    KeywordsMarked (escape name) :=
  (keywordsMarked_iff_of_isUnbroken (isUnbroken_escape h)).2
    (needsMark_of_not_isReserved (isReserved_escape name))

theorem keywordsMarked_append {gap : String} (h : IsPunctuation gap) {a b : String} :
    KeywordsMarked (a ++ gap ++ b) ↔ KeywordsMarked a ∧ KeywordsMarked b := by
  rw [KeywordsMarked, words_append_punctuation h, List.forall_mem_append]
  rfl

theorem keywordsMarked_append_punctuation {gap : String} (h : IsPunctuation gap) {a : String} :
    KeywordsMarked (a ++ gap) ↔ KeywordsMarked a := by
  calc KeywordsMarked (a ++ gap)
    _ ↔ KeywordsMarked (a ++ gap ++ "") := by rw [String.append_empty]
    _ ↔ KeywordsMarked a ∧ KeywordsMarked "" := keywordsMarked_append h
    _ ↔ KeywordsMarked a := and_iff_left keywordsMarked_empty

theorem keywordsMarked_intercalate {gap : String} (h : IsPunctuation gap)
    {texts : List String} :
    KeywordsMarked (gap.intercalate texts) ↔ ∀ text ∈ texts, KeywordsMarked text := by
  rw [KeywordsMarked, words_intercalate h, List.forall_mem_flatMap]
  rfl

/-! ## Parts of a type -/

theorem keywordsMarked_global {name : String} :
    KeywordsMarked ("global::" ++ name) ↔ KeywordsMarked name := by
  have hglobal : KeywordsMarked "global" := by decide
  calc KeywordsMarked ("global::" ++ name)
    _ ↔ KeywordsMarked ("global" ++ "::" ++ name) := Iff.rfl
    _ ↔ KeywordsMarked "global" ∧ KeywordsMarked name := keywordsMarked_append (by decide)
    _ ↔ KeywordsMarked name := and_iff_right hglobal

theorem keywordsMarked_qualify {namespaceName name : String} :
    KeywordsMarked (qualify namespaceName name) ↔
      KeywordsMarked namespaceName ∧ KeywordsMarked name := by
  rw [qualify]
  by_cases hempty : namespaceName = ""
  · simp [hempty, keywordsMarked_empty]
  · rw [if_neg (by simpa using hempty)]
    exact keywordsMarked_append (by decide)

theorem keywordsMarked_append_argumentsText {name : String} {texts : List String} :
    KeywordsMarked (name ++ Program.argumentsText texts) ↔
      KeywordsMarked name ∧ ∀ text ∈ texts, KeywordsMarked text := by
  rw [Program.argumentsText]
  by_cases hempty : texts = []
  · simp [hempty]
  · rw [if_neg (by simpa using hempty)]
    calc KeywordsMarked (name ++ ("<" ++ ", ".intercalate texts ++ ">"))
      _ ↔ KeywordsMarked (name ++ "<" ++ ", ".intercalate texts ++ ">") := by
        rw [String.append_assoc, String.append_assoc, String.append_assoc]
      _ ↔ KeywordsMarked (name ++ "<" ++ ", ".intercalate texts) :=
        keywordsMarked_append_punctuation (by decide)
      _ ↔ KeywordsMarked name ∧ KeywordsMarked (", ".intercalate texts) :=
        keywordsMarked_append (by decide)
      _ ↔ _ := by rw [keywordsMarked_intercalate (by decide)]

theorem isPunctuation_rankText (rank : UInt32) : IsPunctuation (Program.rankText rank) := by
  constructor
  · intro hempty
    have hlist := congrArg String.toList hempty
    simp [Program.rankText] at hlist
  · simp only [Program.rankText, String.toList_append, List.forall_mem_append]
    have hopens : IsPunctuation "[" := by decide
    have hcloses : IsPunctuation "]" := by decide
    refine ⟨⟨hopens.2, ?_⟩, hcloses.2⟩
    intro c hc
    rw [String.toList_ofList] at hc
    rw [List.eq_of_mem_replicate hc]
    decide

end EventWrap.Code
