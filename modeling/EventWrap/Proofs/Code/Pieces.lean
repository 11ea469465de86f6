import EventWrap.Code.Layout
import EventWrap.Proofs.Text.Lines

/-!
# Pieces of lines

A line of code is put together of the texts in a tree and of keywords and marks between them. What
holds of every character but a line end and the braces holds of keywords and marks, and so of a
whole list of type parameters, of formal parameters or of bounds once it holds of the texts in it.
-/

namespace EventWrap.Code

open Text

variable {holds : Char → Prop}

/-- All characters of a text have a property. -/
def Consists (holds : Char → Prop) (text : String) : Prop := ∀ c ∈ text.toList, holds c

theorem consists_append {a b : String} :
    Consists holds (a ++ b) ↔ Consists holds a ∧ Consists holds b := by
  rw [Consists, String.toList_append, List.forall_mem_append]
  rfl

theorem consists_join {texts : List String} :
    Consists holds (String.join texts) ↔ ∀ text ∈ texts, Consists holds text := by
  rw [Consists, String.toList_join, List.forall_mem_flatMap]
  rfl

theorem consists_intercalate {separator : String} {texts : List String}
    (hseparator : Consists holds separator) (h : ∀ text ∈ texts, Consists holds text) :
    Consists holds (separator.intercalate texts) :=
  (forall_mem_intercalate hseparator).2 h

theorem isOneLine_iff {text : String} : IsOneLine text ↔ Consists (· ≠ '\n') text :=
  List.forall_mem_ne'.symm

/-! ## First characters -/

/-- A text has a first character, and this has a property. -/
def headIs (p : Char → Bool) (text : String) : Bool :=
  match text.toList with
  | [] => false
  | c :: _ => p c

theorem headIs_iff {p : Char → Bool} {text : String} :
    headIs p text ↔ ∃ c rest, text.toList = c :: rest ∧ p c := by
  unfold headIs
  cases text.toList <;> simp

theorem headIs_append {p : Char → Bool} {a : String} (h : headIs p a) (b : String) :
    headIs p (a ++ b) := by
  obtain ⟨c, rest, ha, hc⟩ := headIs_iff.1 h
  refine headIs_iff.2 ⟨c, rest ++ b.toList, ?_, hc⟩
  rw [String.toList_append, ha, List.cons_append]

/-! ## Texts without braces -/

/-- A text on one line without braces. -/
def IsPiece (text : String) : Prop :=
  '\n' ∉ text.toList ∧ '\x7b' ∉ text.toList ∧ '\x7d' ∉ text.toList

instance (text : String) : Decidable (IsPiece text) :=
  inferInstanceAs (Decidable (_ ∉ _ ∧ _ ∉ _ ∧ _ ∉ _))

theorem isPiece_iff {text : String} :
    IsPiece text ↔ Consists (fun c => c ≠ '\n' ∧ c ≠ '\x7b' ∧ c ≠ '\x7d') text := by
  constructor
  · rintro ⟨hline, hopen, hclose⟩ c hc
    exact ⟨ne_of_mem_of_not_mem hc hline, ne_of_mem_of_not_mem hc hopen,
      ne_of_mem_of_not_mem hc hclose⟩
  · intro h
    exact ⟨fun hc => (h _ hc).1 rfl, fun hc => (h _ hc).2.1 rfl, fun hc => (h _ hc).2.2 rfl⟩

theorem isPiece_append {a b : String} : IsPiece (a ++ b) ↔ IsPiece a ∧ IsPiece b := by
  rw [isPiece_iff, consists_append, isPiece_iff, isPiece_iff]

/-- A property of all characters but line ends and braces. -/
def OfMarks (holds : Char → Prop) : Prop :=
  ∀ c, c ≠ '\n' ∧ c ≠ '\x7b' ∧ c ≠ '\x7d' → holds c

theorem OfMarks.consists (hmarks : OfMarks holds) {text : String} (h : IsPiece text) :
    Consists holds text := fun c hc => hmarks c (isPiece_iff.1 h c hc)

theorem ofMarks_ne_lineFeed : OfMarks (· ≠ '\n') := fun _ hc => hc.1

theorem ofMarks_unbraced : OfMarks (fun c => c ≠ '\n' ∧ c ≠ '\x7b' ∧ c ≠ '\x7d') := fun _ hc => hc

/-! ## Lists in a line -/

section

variable (hmarks : OfMarks holds)

include hmarks

theorem consists_modifiersText (modifiers : List Modifier) :
    Consists holds (modifiersText modifiers) := by
  rw [modifiersText, consists_join, List.forall_mem_map]
  intro m _
  exact hmarks.consists (by cases m <;> decide)

theorem consists_typeParametersText {names : List String}
    (h : ∀ name ∈ names, Consists holds name) :
    Consists holds (typeParametersText names) := by
  rw [typeParametersText]
  split
  · exact hmarks.consists (by decide)
  · rw [consists_append, consists_append]
    exact ⟨⟨hmarks.consists (by decide), consists_intercalate (hmarks.consists (by decide)) h⟩,
      hmarks.consists (by decide)⟩

theorem consists_formalsText {formals : List Formal}
    (h : ∀ f ∈ formals, Consists holds f.type ∧ Consists holds f.name) :
    Consists holds (formalsText formals) := by
  apply consists_intercalate (hmarks.consists (by decide))
  rw [List.forall_mem_map]
  intro f hf
  have hreceiver : IsPiece (if f.isReceiver then "this " else "") := by
    cases f.isReceiver <;> decide
  rw [Formal.toText, consists_append, consists_append, consists_append]
  exact ⟨⟨⟨hmarks.consists hreceiver, (h f hf).1⟩, hmarks.consists (by decide)⟩, (h f hf).2⟩

theorem consists_lambdaHead {names : List String} (h : ∀ name ∈ names, Consists holds name) :
    Consists holds (lambdaHead names) := by
  unfold lambdaHead
  split
  · exact h _ List.mem_cons_self
  · rw [consists_append, consists_append]
    exact ⟨⟨hmarks.consists (by decide), consists_intercalate (hmarks.consists (by decide)) h⟩,
      hmarks.consists (by decide)⟩

theorem Constraint.consists_toText {k : Constraint} (hparameter : Consists holds k.parameter)
    (hbounds : ∀ bound ∈ k.bounds, Consists holds bound) : Consists holds k.toText := by
  rw [toText, consists_append, consists_append, consists_append]
  exact ⟨⟨⟨hmarks.consists (by decide), hparameter⟩, hmarks.consists (by decide)⟩,
    consists_intercalate (hmarks.consists (by decide)) hbounds⟩

end

end EventWrap.Code
