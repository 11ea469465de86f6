import EventWrap.Code.Literal
import EventWrap.Json.Reader
import Mathlib.Tactic.Common

/-!
# String literals read back

A reader of literals, by the rules of the language they are written in: an escape stands for its
character, or for the UTF-16 unit of its number, and any other character for itself, but a line
terminator has to be escaped. What is written for a text is read back as that text, whatever
follows it, unless the text holds one of the three line terminators that are written as they are.
-/

namespace EventWrap.Code

open Json (Piece hexValue joinPieces)

/-- The characters that end a line, which no literal holds as they are. -/
def lineTerminators : List Char := ['\n', '\r', '\u0085', '\u2028', '\u2029']

/-- The character that a one-letter escape stands for. -/
def simpleEscape : Char → Option Char
  | '\x27' => some '\x27'
  | '"' => some '"'
  | '\\' => some '\\'
  | '0' => some '\x00'
  | 'a' => some '\x07'
  | 'b' => some '\x08'
  | 'f' => some '\x0c'
  | 'n' => some '\n'
  | 'r' => some '\r'
  | 't' => some '\t'
  | 'v' => some '\x0b'
  | _ => none

/-- The pieces of a literal up to its closing quote, and what follows the quote. -/
def readPieces : List Char → Option (List Piece × List Char)
  | [] => none
  | '"' :: rest => some ([], rest)
  | '\\' :: 'u' :: a :: b :: c :: d :: rest => do
    let a ← hexValue a
    let b ← hexValue b
    let c ← hexValue c
    let d ← hexValue d
    let (pieces, after) ← readPieces rest
    return (.unit (((a * 16 + b) * 16 + c) * 16 + d) :: pieces, after)
  | '\\' :: e :: rest => do
    let c ← simpleEscape e
    let (pieces, after) ← readPieces rest
    return (.char c :: pieces, after)
  | c :: rest =>
    if c = '\\' ∨ c ∈ lineTerminators then none
    else do
      let (pieces, after) ← readPieces rest
      return (.char c :: pieces, after)

/-- The text of the literal at the front, and what follows it. -/
def readLiteral : List Char → Option (String × List Char)
  | '"' :: rest => do
    let (pieces, after) ← readPieces rest
    let chars ← joinPieces pieces
    return (String.ofList chars, after)
  | _ => none

theorem readPieces_quote (rest : List Char) : readPieces ('"' :: rest) = some ([], rest) :=
  rfl

/-- An escape is read as the character that it stands for. -/
theorem readPieces_escape {e c : Char} (he : simpleEscape e = some c) (rest : List Char) :
    readPieces ('\\' :: e :: rest) = (readPieces rest).map fun p => (.char c :: p.1, p.2) := by
  have hunit : e ≠ 'u' := by
    rintro rfl
    simp [simpleEscape] at he
  rw [readPieces.eq_4 _ _ fun _ _ _ _ _ h => absurd h hunit, he, Option.map_eq_bind]
  rfl

/-- Any other character is read as itself, unless it ends the line. -/
theorem readPieces_plain {c : Char} (hquote : c ≠ '"') (hbackslash : c ≠ '\\') (rest : List Char) :
    readPieces (c :: rest) =
      if c ∈ lineTerminators then none
      else (readPieces rest).map fun p => (.char c :: p.1, p.2) := by
  rw [readPieces, Option.map_eq_bind]
  · simp only [hbackslash, false_or]
    rfl
  all_goals simp [hquote, hbackslash]

/-! ## Literals of texts -/

/-- The line terminators that are written as they are. -/
def rawTerminators : List Char := ['\u0085', '\u2028', '\u2029']

/-- One of them is in a text. -/
def hasRawTerminator (chars : List Char) : Bool := chars.any (rawTerminators.contains ·)

theorem mem_rawTerminators_iff {c : Char} :
    c ∈ rawTerminators ↔ c ∈ lineTerminators ∧ c ≠ '\n' ∧ c ≠ '\r' := by
  constructor
  · intro h
    simp only [rawTerminators, List.mem_cons, List.not_mem_nil, or_false] at h
    rcases h with rfl | rfl | rfl <;> decide
  · intro ⟨h, hfeed, hreturn⟩
    simpa [lineTerminators, rawTerminators, hfeed, hreturn] using h

/-- What is written for a character is read as the character, whatever follows it, except that a
line terminator other than a line feed or carriage return ends the reading. -/
theorem readPieces_escapeInLiteral (c : Char) (rest : List Char) :
    readPieces (escapeInLiteral c ++ rest) =
      if c ∈ rawTerminators then none
      else (readPieces rest).map fun p => (.char c :: p.1, p.2) := by
  fun_cases escapeInLiteral c with
  | case1 | case2 | case3 | case4 | case5 | case6 => exact readPieces_escape rfl rest
  | case7 _ hquote hbackslash hfeed hreturn =>
    have hraw : c ∈ rawTerminators ↔ c ∈ lineTerminators := by
      rw [mem_rawTerminators_iff, and_iff_left ⟨hfeed, hreturn⟩]
    rw [List.singleton_append, readPieces_plain hquote hbackslash]
    simp only [hraw]

theorem readPieces_flatMap_escapeInLiteral (cs after : List Char) :
    readPieces (cs.flatMap escapeInLiteral ++ '"' :: after) =
      if hasRawTerminator cs then none else some (cs.map Piece.char, after) := by
  induction cs with
  | nil => exact readPieces_quote after
  | cons c cs ih =>
    have hcons : hasRawTerminator (c :: cs) = (rawTerminators.contains c || hasRawTerminator cs) :=
      List.any_cons
    rw [List.flatMap_cons, List.append_assoc, readPieces_escapeInLiteral, ih]
    by_cases hc : c ∈ rawTerminators
    · simp [hcons, hc]
    · by_cases hcs : hasRawTerminator cs
      · simp [hcons, hcs]
      · simp [hcons, hc, hcs]

theorem joinPieces_map_char (cs : List Char) : joinPieces (cs.map Piece.char) = some cs := by
  induction cs with
  | nil => rfl
  | cons c cs ih =>
    rw [List.map_cons, joinPieces, ih]
    rfl

theorem toList_stringLiteral (value : String) :
    (stringLiteral value).toList = '"' :: (value.toList.flatMap escapeInLiteral ++ ['"']) :=
  String.toList_ofList

/-- The literal of a text is one complete literal of this text, with nothing left over of what
follows it, unless the text holds a line terminator other than a line feed or carriage return: then
no literal is read at all. -/
theorem readLiteral_stringLiteral (value : String) (after : List Char) :
    readLiteral ((stringLiteral value).toList ++ after) =
      if hasRawTerminator value.toList then none else some (value, after) := by
  have hread := readPieces_flatMap_escapeInLiteral value.toList after
  rw [toList_stringLiteral, List.cons_append, List.append_assoc, List.singleton_append, readLiteral,
    hread]
  by_cases hraw : hasRawTerminator value.toList
  · simp [hraw]
  · simp [hraw, joinPieces_map_char]

/-- The literal of a text with a line separator is not read, although the text has a literal. -/
theorem lineSeparator_not_read :
    readLiteral (stringLiteral "one\u2028two").toList = none ∧
    readLiteral "\"one\\u2028two\"".toList = some ("one\u2028two", []) := by
  decide

end EventWrap.Code
