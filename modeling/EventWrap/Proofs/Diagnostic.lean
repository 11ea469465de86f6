import EventWrap.Diagnostic
import Mathlib.Data.List.Infix
import Mathlib.Logic.Function.Basic

/-!
# Messages of diagnostics

A format is read as letters and holes, and filled literally when every hole that there is an
argument for is replaced by this argument and all other text is kept. The message of a diagnostic is
made by replacing the placeholders of one argument after the other, so that a placeholder which an
earlier argument has brought along is replaced with those of the format. The message is literal as
long as no argument brings one along.
-/

namespace EventWrap

namespace Diagnostic

/-! ## Placeholders -/

theorem dropWord?_isSome_iff {word text : List Char} :
    (dropWord? word text).isSome ↔ word <+: text := by
  induction word generalizing text with
  | nil => simp [dropWord?]
  | cons w word ih =>
    cases text with
    | nil => simp [dropWord?]
    | cons c rest =>
      rw [dropWord?, List.cons_prefix_cons]
      split
      · next h => rw [ih, and_iff_right h]
      · next h => simp [h]

/-- After its opening brace a placeholder has digits and a closing brace only. -/
theorem notMem_tail_placeholder {c : Char} (hdigit : c.isDigit = false) (hclose : c ≠ '\x7d')
    (i : Nat) : c ∉ (placeholder i).tail := by
  rw [placeholder, List.tail_cons, List.mem_append, List.mem_singleton]
  rintro (h | h)
  · rw [Nat.isDigit_of_mem_toDigits (by decide) (by decide) h] at hdigit
    cases hdigit
  · exact hclose h

theorem notMem_tail_open (i : Nat) : '\x7b' ∉ (placeholder i).tail :=
  notMem_tail_placeholder (by decide) (by decide) i

/-- The number of the placeholder that a text starts with. -/
def leadingHole? (text : List Char) : Option Nat :=
  let i := Nat.ofDigitChars 10 ((text.drop 1).takeWhile Char.isDigit) 0
  if placeholder i <+: text then some i else none

theorem leadingHole?_eq_some_iff {text : List Char} {i : Nat} :
    leadingHole? text = some i ↔ placeholder i <+: text := by
  constructor
  · intro h
    simp only [leadingHole?] at h
    split at h
    · next hprefix =>
      cases h
      exact hprefix
    · cases h
  · intro h
    have hprefix := h
    obtain ⟨rest, rfl⟩ := hprefix
    have hdigits : ∀ c ∈ Nat.toDigits 10 i, c.isDigit = true := fun c hc =>
      Nat.isDigit_of_mem_toDigits (by decide) (by decide) hc
    have hread : ((placeholder i ++ rest).drop 1).takeWhile Char.isDigit = Nat.toDigits 10 i := by
      rw [placeholder, List.cons_append, List.drop_one, List.tail_cons, List.append_assoc,
        List.takeWhile_append_of_pos hdigits]
      exact List.append_nil _
    simp only [leadingHole?, hread, Nat.ofDigitChars_toDigits (by decide : 1 < 10) (by decide)]
    rw [if_pos h]

theorem leadingHole?_placeholder (i : Nat) (rest : List Char) :
    leadingHole? (placeholder i ++ rest) = some i :=
  leadingHole?_eq_some_iff.2 (List.prefix_append _ _)

/-! ## Reading a text -/

/-- A letter of a text, or a placeholder in it. -/
inductive Part where
  | letter (c : Char)
  | hole (i : Nat)
  deriving DecidableEq

/-- A text as letters and holes. `skip` characters of a placeholder are still to be passed over. -/
def partsFrom : Nat → List Char → List Part
  | _, [] => []
  | skip + 1, _ :: rest => partsFrom skip rest
  | 0, c :: rest =>
    match leadingHole? (c :: rest) with
    | some i => .hole i :: partsFrom ((placeholder i).length - 1) rest
    | none => .letter c :: partsFrom 0 rest

def parts (text : List Char) : List Part := partsFrom 0 text

/-- How often a placeholder occurs in a text. -/
def holes (i : Nat) (text : List Char) : Nat := (parts text).count (.hole i)

section Parts

variable {c : Char} {rest text : List Char} {i : Nat}

theorem parts_cons (c : Char) (rest : List Char) :
    parts (c :: rest) =
      match leadingHole? (c :: rest) with
      | some i => .hole i :: partsFrom ((placeholder i).length - 1) rest
      | none => .letter c :: parts rest := rfl

theorem partsFrom_skip (word rest : List Char) :
    partsFrom word.length (word ++ rest) = parts rest := by
  induction word with
  | nil => rfl
  | cons c word ih => exact ih

theorem parts_placeholder (i : Nat) (rest : List Char) :
    parts (placeholder i ++ rest) = .hole i :: parts rest := by
  have hlead := leadingHole?_placeholder i rest
  have hskip := partsFrom_skip (placeholder i).tail rest
  rw [placeholder, List.cons_append] at hlead ⊢
  rw [parts_cons, hlead]
  exact congrArg (Part.hole i :: ·) hskip

theorem parts_letter (h : leadingHole? (c :: rest) = none) :
    parts (c :: rest) = .letter c :: parts rest := by
  rw [parts_cons, h]

theorem leadingHole?_cons_of_ne (h : c ≠ '\x7b') (rest : List Char) :
    leadingHole? (c :: rest) = none := by
  rw [Option.eq_none_iff_forall_ne_some]
  intro i hi
  have hprefix := leadingHole?_eq_some_iff.1 hi
  rw [placeholder, List.cons_prefix_cons] at hprefix
  exact h hprefix.1.symm

/-- A text is empty, starts with a placeholder or starts with a letter. -/
theorem reading_induction {motive : List Char → Prop} (nil : motive [])
    (hole : ∀ i rest, motive rest → motive (placeholder i ++ rest))
    (letter : ∀ c rest, leadingHole? (c :: rest) = none → motive rest → motive (c :: rest))
    (text : List Char) : motive text := by
  induction hn : text.length using Nat.strong_induction_on generalizing text with
  | _ n ih =>
    subst hn
    cases text with
    | nil => exact nil
    | cons c rest =>
      cases hlead : leadingHole? (c :: rest) with
      | none => exact letter c rest hlead (ih _ (Nat.lt_succ_self _) rest rfl)
      | some i =>
        obtain ⟨rest', hrest⟩ := leadingHole?_eq_some_iff.1 hlead
        have hshorter : rest'.length < (c :: rest).length := by
          rw [← hrest, List.length_append, placeholder, List.length_cons]
          omega
        exact hrest ▸ hole i rest' (ih _ hshorter rest' rfl)

/-- Where a character stands that no placeholder goes on with, a text can be read in two parts. -/
theorem parts_append (hc : ∀ i, c ∉ (placeholder i).tail) (text rest : List Char) :
    parts (text ++ c :: rest) = parts text ++ parts (c :: rest) := by
  induction text using reading_induction with
  | nil => rfl
  | hole i text ih => rw [List.append_assoc, parts_placeholder, parts_placeholder, ih]; rfl
  | letter b text hlead ih =>
    have hlead' : leadingHole? (b :: (text ++ c :: rest)) = none := by
      rw [Option.eq_none_iff_forall_ne_some] at hlead ⊢
      intro i hi
      have hlong := leadingHole?_eq_some_iff.1 hi
      have hnot : ¬placeholder i <+: b :: text := fun h => hlead i (leadingHole?_eq_some_iff.2 h)
      have hfront : b :: text <+: b :: (text ++ c :: rest) :=
        List.cons_append ▸ List.prefix_append (b :: text) (c :: rest)
      rcases List.prefix_or_prefix_of_prefix hlong hfront with hshort | ⟨back, hback⟩
      · exact hnot hshort
      · rw [← hback, ← List.cons_append, List.prefix_append_right_inj] at hlong
        cases back with
        | nil =>
          rw [List.append_nil] at hback
          exact hnot (hback ▸ List.prefix_rfl)
        | cons c' back =>
          obtain rfl := (List.cons_prefix_cons.1 hlong).1
          apply hc i
          rw [← hback]
          exact List.mem_append_right _ List.mem_cons_self
    rw [parts_letter hlead, List.cons_append, parts_letter hlead', ih]
    rfl

theorem parts_append_placeholder (text : List Char) (i : Nat) (rest : List Char) :
    parts (text ++ (placeholder i ++ rest)) = parts text ++ .hole i :: parts rest := by
  rw [← parts_placeholder]
  exact parts_append notMem_tail_open text ((placeholder i).tail ++ rest)

theorem holes_append_placeholder (k : Nat) (text rest : List Char) :
    holes k (text ++ (placeholder k ++ rest)) = holes k text + (holes k rest + 1) := by
  rw [holes, parts_append_placeholder, List.count_append, List.count_cons_self]
  rfl

end Parts

/-! ## Filling holes -/

/-- The text of parts whose holes are filled. -/
def fill (filling : Nat → List Char) : List Part → List Char
  | [] => []
  | .letter c :: rest => c :: fill filling rest
  | .hole i :: rest => filling i ++ fill filling rest

section Fill

variable {filling : Nat → List Char} {i k : Nat} {replacement text rest : List Char}

theorem fill_nil (filling : Nat → List Char) : fill filling [] = [] := rfl

theorem fill_letter (filling : Nat → List Char) (c : Char) (ps : List Part) :
    fill filling (.letter c :: ps) = c :: fill filling ps := rfl

theorem fill_hole (filling : Nat → List Char) (i : Nat) (ps : List Part) :
    fill filling (.hole i :: ps) = filling i ++ fill filling ps := rfl

theorem fill_append (filling : Nat → List Char) (front back : List Part) :
    fill filling (front ++ back) = fill filling front ++ fill filling back := by
  induction front with
  | nil => rfl
  | cons part front ih =>
    cases part with
    | letter c => exact congrArg (c :: ·) ih
    | hole i => rw [List.cons_append, fill_hole, fill_hole, ih, List.append_assoc]

theorem fill_congr {filling' : Nat → List Char} {ps : List Part}
    (h : ∀ i, .hole i ∈ ps → filling i = filling' i) : fill filling ps = fill filling' ps := by
  induction ps with
  | nil => rfl
  | cons part rest ih =>
    have hrest := ih fun i hi => h i (List.mem_cons_of_mem part hi)
    cases part with
    | letter c => rw [fill_letter, fill_letter, hrest]
    | hole i => rw [fill_hole, fill_hole, hrest, h i List.mem_cons_self]

/-- A text is made of its parts. -/
theorem fill_placeholder_parts (text : List Char) : fill placeholder (parts text) = text := by
  induction text using reading_induction with
  | nil => rfl
  | hole i rest ih => rw [parts_placeholder, fill_hole, ih]
  | letter c rest hlead ih => rw [parts_letter hlead, fill_letter, ih]

/-! ### One placeholder -/

theorem replaceFrom_cons (word replacement : List Char) (c : Char) (rest : List Char) :
    replaceFrom word replacement 0 (c :: rest) =
      if (dropWord? word (c :: rest)).isSome then
        replacement ++ replaceFrom word replacement (word.length - 1) rest
      else c :: replaceFrom word replacement 0 rest := rfl

theorem replaceFrom_skip (word replacement passed rest : List Char) :
    replaceFrom word replacement passed.length (passed ++ rest) =
      replaceFrom word replacement 0 rest := by
  induction passed with
  | nil => rfl
  | cons c passed ih => exact ih

theorem replaceFrom_self (k : Nat) (replacement rest : List Char) :
    replaceFrom (placeholder k) replacement 0 (placeholder k ++ rest) =
      replacement ++ replaceFrom (placeholder k) replacement 0 rest := by
  have hfound := dropWord?_isSome_iff.2 (List.prefix_append (placeholder k) rest)
  have hcons : placeholder k ++ rest = '\x7b' :: ((placeholder k).tail ++ rest) := rfl
  rw [hcons] at hfound ⊢
  rw [replaceFrom_cons, if_pos hfound,
    ← replaceFrom_skip (placeholder k) replacement (placeholder k).tail rest]
  rfl

theorem replaceFrom_cons_of_ne {c : Char} (h : leadingHole? (c :: rest) ≠ some k) :
    replaceFrom (placeholder k) replacement 0 (c :: rest) =
      c :: replaceFrom (placeholder k) replacement 0 rest := by
  rw [replaceFrom_cons, if_neg]
  rwa [dropWord?_isSome_iff, ← leadingHole?_eq_some_iff]

theorem replaceFrom_append_of_notMem {passed : List Char} (h : '\x7b' ∉ passed) :
    replaceFrom (placeholder k) replacement 0 (passed ++ rest) =
      passed ++ replaceFrom (placeholder k) replacement 0 rest := by
  induction passed with
  | nil => rfl
  | cons c passed ih =>
    obtain ⟨hc, hpassed⟩ := not_or.1 (List.mem_cons.not.1 h)
    have hlead : leadingHole? (c :: (passed ++ rest)) ≠ some k := by
      rw [leadingHole?_cons_of_ne (Ne.symm hc)]
      exact nofun
    rw [List.cons_append, replaceFrom_cons_of_ne hlead, ih hpassed, List.cons_append]

theorem replaceFrom_of_ne (hik : i ≠ k) (replacement rest : List Char) :
    replaceFrom (placeholder k) replacement 0 (placeholder i ++ rest) =
      placeholder i ++ replaceFrom (placeholder k) replacement 0 rest := by
  have hlead := leadingHole?_placeholder i rest
  have hcons : placeholder i = '\x7b' :: (placeholder i).tail := rfl
  rw [hcons, List.cons_append] at hlead ⊢
  rw [replaceFrom_cons_of_ne (by simpa [hlead] using hik),
    replaceFrom_append_of_notMem (notMem_tail_open i), List.cons_append]

/-- Replacing a placeholder fills its holes and keeps all other parts. -/
theorem replaceFrom_placeholder (k : Nat) (replacement text : List Char) :
    replaceFrom (placeholder k) replacement 0 text =
      fill (Function.update placeholder k replacement) (parts text) := by
  induction text using reading_induction with
  | nil => rfl
  | hole i rest ih =>
    rw [parts_placeholder, fill_hole, ← ih]
    by_cases hik : i = k
    · subst hik
      rw [Function.update_self, replaceFrom_self]
    · rw [Function.update_of_ne hik, replaceFrom_of_ne hik]
  | letter c rest hlead ih =>
    rw [parts_letter hlead, fill_letter, replaceFrom_cons_of_ne (by simp [hlead]), ih]

end Fill

/-! ## Replaced words -/

/-- In the second text `n` occurrences of a word have been replaced, which gives the first. -/
inductive Replaced (word replacement : List Char) : Nat → List Char → List Char → Prop
  | nil : Replaced word replacement 0 [] []
  | keep {n : Nat} {made text : List Char} (c : Char)
    (rest : Replaced word replacement n made text) :
    Replaced word replacement n (c :: made) (c :: text)
  | replace {n : Nat} {made text : List Char} (rest : Replaced word replacement n made text) :
    Replaced word replacement (n + 1) (replacement ++ made) (word ++ text)

namespace Replaced

variable {word replacement made made' text text' : List Char} {n n' : Nat}

theorem refl (text : List Char) : Replaced word replacement 0 text text := by
  induction text with
  | nil => exact .nil
  | cons c text ih => exact .keep c ih

theorem append (h : Replaced word replacement n made text)
    (h' : Replaced word replacement n' made' text') :
    Replaced word replacement (n + n') (made ++ made') (text ++ text') := by
  induction h with
  | nil => rwa [Nat.zero_add]
  | keep c _ ih => exact .keep c ih
  | replace _ ih =>
    rw [List.append_assoc, List.append_assoc, Nat.add_right_comm]
    exact .replace ih

theorem length_add (h : Replaced word replacement n made text) :
    made.length + n * word.length = text.length + n * replacement.length := by
  induction h with
  | nil => simp
  | keep c _ ih => simp only [List.length_cons]; omega
  | replace _ ih => simp only [List.length_append, Nat.add_mul]; omega

theorem replacement_eq (h : Replaced word replacement n made text) (hn : n ≠ 0)
    (hlength : replacement.length = word.length) (heq : made = text) : replacement = word := by
  induction h with
  | nil => exact absurd rfl hn
  | keep c _ ih => exact ih hn (List.cons.inj heq).2
  | replace _ _ => exact (List.append_inj heq hlength).1

theorem eq_of_or (h : Replaced word replacement n made text) (hor : replacement = word ∨ n = 0) :
    made = text := by
  induction h with
  | nil => rfl
  | keep c _ ih => rw [ih hor]
  | replace _ ih =>
    rcases hor with rfl | hzero
    · rw [ih (.inl rfl)]
    · cases hzero

/-- Nothing is changed exactly if nothing is replaced, or by itself. -/
theorem eq_iff (h : Replaced word replacement n made text) :
    made = text ↔ replacement = word ∨ n = 0 := by
  constructor
  · intro heq
    rw [or_iff_not_imp_right]
    intro hn
    have hlengths := h.length_add
    rw [heq, Nat.add_left_cancel_iff] at hlengths
    have hlength := Nat.eq_of_mul_eq_mul_left (Nat.pos_of_ne_zero hn) hlengths
    exact h.replacement_eq hn hlength.symm heq
  · exact h.eq_of_or

end Replaced

/-! ## Literal messages -/

/-- What a hole is filled with: its argument, or its own text where there is none. -/
def supplied (arguments : List String) (i : Nat) : List Char :=
  (arguments[i]?.map String.toList).getD (placeholder i)

theorem supplied_length (arguments : List String) :
    supplied arguments arguments.length = placeholder arguments.length := by
  rw [supplied, List.getElem?_eq_none (Nat.le_refl _)]
  rfl

theorem supplied_concat (arguments : List String) (last : String) :
    supplied (arguments ++ [last]) =
      Function.update (supplied arguments) arguments.length last.toList := by
  funext i
  rcases Nat.lt_trichotomy i arguments.length with hlt | rfl | hgt
  · rw [Function.update_of_ne (Nat.ne_of_lt hlt), supplied, supplied,
      List.getElem?_append_left hlt]
  · simp [supplied]
  · rw [Function.update_of_ne (Nat.ne_of_gt hgt), supplied, supplied,
      List.getElem?_eq_none (List.length_append ▸ hgt), List.getElem?_eq_none (Nat.le_of_lt hgt)]

/-- A text with all placeholders replaced at once, each by its argument as it stands. -/
def literally (text : List Char) (arguments : List String) : List Char :=
  fill (supplied arguments) (parts text)

theorem literally_nil (text : List Char) : literally text [] = text := fill_placeholder_parts text

section Steps

variable {filling : Nat → List Char} {k : Nat} {replacement text : List Char}

/-- A placeholder is replaced wherever it occurs in a text. -/
theorem replaced_parts (k : Nat) (replacement text : List Char) :
    Replaced (placeholder k) replacement (holes k text)
      (fill (Function.update placeholder k replacement) (parts text)) text := by
  induction text using reading_induction with
  | nil => exact .nil
  | hole i rest ih =>
    rw [holes, parts_placeholder, fill_hole]
    by_cases hik : i = k
    · subst hik
      rw [Function.update_self, List.count_cons_self]
      exact .replace ih
    · rw [Function.update_of_ne hik, List.count_cons_of_ne (by simpa using hik)]
      have hkeep := (Replaced.refl (placeholder i)).append ih
      rwa [Nat.zero_add] at hkeep
  | letter c rest hlead ih =>
    rw [holes, parts_letter hlead, fill_letter, List.count_cons_of_ne (by simp)]
    exact .keep c ih

/-- Replacing a placeholder in what parts are filled with, rather than in the parts, replaces also
what was filled in. `text` has been passed already. -/
theorem exists_replaced (hk : filling k = placeholder k) (replacement : List Char)
    (ps : List Part) (text : List Char) :
    ∃ n, n + ps.count (.hole k) = holes k (text ++ fill filling ps) ∧
      Replaced (placeholder k) replacement n
        (fill (Function.update placeholder k replacement) (parts (text ++ fill filling ps)))
        (text ++ fill (Function.update filling k replacement) ps) := by
  induction ps generalizing text with
  | nil =>
    refine ⟨holes k text, ?_, ?_⟩
    · rw [fill_nil, List.append_nil]
      rfl
    · rw [fill_nil, fill_nil, List.append_nil]
      exact replaced_parts k replacement text
  | cons part rest ih =>
    cases part with
    | letter c =>
      obtain ⟨n, hn, hreplaced⟩ := ih (text ++ [c])
      rw [List.append_assoc, List.append_assoc] at hreplaced
      rw [List.append_assoc] at hn
      refine ⟨n, ?_, hreplaced⟩
      rw [List.count_cons_of_ne (by simp)]
      exact hn
    | hole i =>
      by_cases hik : i = k
      · subst hik
        obtain ⟨n, hn, hreplaced⟩ := ih []
        rw [List.nil_append] at hn hreplaced
        rw [fill_hole, fill_hole, hk, Function.update_self, parts_append_placeholder,
          fill_append, fill_hole, Function.update_self]
        refine ⟨holes i text + n, ?_, ?_⟩
        · rw [holes_append_placeholder, List.count_cons_self]
          omega
        · have hfilled := (Replaced.refl replacement).append hreplaced
          rw [Nat.zero_add] at hfilled
          exact (replaced_parts i replacement text).append hfilled
      · obtain ⟨n, hn, hreplaced⟩ := ih (text ++ filling i)
        rw [List.append_assoc, List.append_assoc] at hreplaced
        rw [List.append_assoc] at hn
        refine ⟨n, ?_, ?_⟩
        · rw [List.count_cons_of_ne (by simpa using hik)]
          exact hn
        · rw [fill_hole, fill_hole, Function.update_of_ne hik]
          exact hreplaced

/-- After a literal message, one more argument is filled in literally exactly if its placeholder
occurs in the message only where it does in the format, or is what it is replaced by. -/
theorem replaceFrom_literally_iff (text : List Char) (arguments : List String) (last : String) :
    replaceFrom (placeholder arguments.length) last.toList 0 (literally text arguments) =
        literally text (arguments ++ [last]) ↔
      last.toList = placeholder arguments.length ∨
        holes arguments.length (literally text arguments) = holes arguments.length text := by
  obtain ⟨n, hn, hreplaced⟩ := exists_replaced (supplied_length arguments) last.toList
    (parts text) []
  rw [List.nil_append] at hn
  rw [List.nil_append, List.nil_append, ← supplied_concat] at hreplaced
  rw [replaceFrom_placeholder, literally, literally, hreplaced.eq_iff, ← hn]
  exact or_congr_right (Nat.add_eq_right).symm

theorem fillFrom_singleton (text : List Char) (argument : String) :
    fillFrom 0 text [argument] = literally text [argument] := by
  have hfirst := (replaceFrom_literally_iff text [] argument).2
  rw [literally_nil] at hfirst
  exact hfirst (.inr rfl)

theorem fillFrom_concat (index : Nat) (text : List Char) (arguments : List String)
    (last : String) : fillFrom index text (arguments ++ [last]) =
      replaceFrom (placeholder (index + arguments.length)) last.toList 0
        (fillFrom index text arguments) := by
  induction arguments generalizing index text with
  | nil => rfl
  | cons argument rest ih =>
    rw [List.cons_append, fillFrom, fillFrom, ih, List.length_cons, Nat.add_right_comm,
      Nat.add_assoc]

end Steps

/-- The first arguments of a list are filled in literally, however many of them, exactly if none of
them brings along the placeholder of a later one, unless that one is its own placeholder. -/
theorem fillFrom_take_iff (text : List Char) (arguments : List String) :
    (∀ n ≤ arguments.length,
      fillFrom 0 text (arguments.take n) = literally text (arguments.take n)) ↔
    ∀ n argument, arguments[n]? = some argument → argument.toList = placeholder n ∨
      holes n (literally text (arguments.take n)) = holes n text := by
  have hstep : ∀ n argument, arguments[n]? = some argument →
      fillFrom 0 text (arguments.take n) = literally text (arguments.take n) →
      (fillFrom 0 text (arguments.take (n + 1)) = literally text (arguments.take (n + 1)) ↔
        argument.toList = placeholder n ∨
          holes n (literally text (arguments.take n)) = holes n text) := by
    intro n argument hargument hliteral
    have hlength : (arguments.take n).length = n :=
      List.length_take_of_le (Nat.le_of_lt (List.getElem?_eq_some_iff.1 hargument).1)
    have hiff := replaceFrom_literally_iff text (arguments.take n) argument
    rw [hlength] at hiff
    rw [List.take_add_one, hargument, Option.toList_some, fillFrom_concat, hliteral, Nat.zero_add,
      hlength]
    exact hiff
  constructor
  · intro h n argument hargument
    have hn : n < arguments.length := (List.getElem?_eq_some_iff.1 hargument).1
    exact (hstep n argument hargument (h n (Nat.le_of_lt hn))).1 (h (n + 1) hn)
  · intro h n hn
    induction n with
    | zero => exact (literally_nil text).symm
    | succ n ih =>
      have hargument : arguments[n]? = some arguments[n] := List.getElem?_eq_getElem hn
      exact (hstep n _ hargument (ih (Nat.le_of_lt hn))).2 (h n _ hargument)

/-! ## The kinds of a pass -/

section Subjects

variable {k : Nat} {text front back : List Char}

theorem holes_eq_zero_iff : holes k text = 0 ↔ ¬placeholder k <:+: text := by
  constructor
  · rintro hzero ⟨before, after, rfl⟩
    rw [List.append_assoc, holes_append_placeholder] at hzero
    omega
  · intro h
    rw [holes, List.count_eq_zero]
    intro hmem
    obtain ⟨before, after, hparts⟩ := List.append_of_mem hmem
    have htext := fill_placeholder_parts text
    rw [hparts, fill_append, fill_hole, ← List.append_assoc] at htext
    exact h ⟨_, _, htext⟩

/-- A text without the first placeholder is kept where there is one argument. -/
theorem literally_eq_self (h : holes 0 text = 0) (subject : String) :
    literally text [subject] = text := by
  rw [holes, List.count_eq_zero] at h
  have hkept : ∀ i, .hole i ∈ parts text → supplied [subject] i = placeholder i := by
    rintro (_ | i) hi
    · exact absurd hi h
    · rfl
  exact (fill_congr hkept).trans (fill_placeholder_parts text)

theorem holes_append_of_notMem (h : '\x7b' ∉ front) (k : Nat) (text : List Char) :
    holes k (front ++ text) = holes k text := by
  induction front with
  | nil => rfl
  | cons c front ih =>
    obtain ⟨hc, hfront⟩ := not_or.1 (List.mem_cons.not.1 h)
    have hlead := leadingHole?_cons_of_ne (Ne.symm hc) (front ++ text)
    rw [← ih hfront, List.cons_append, holes, parts_letter hlead]
    exact List.count_cons_of_ne (by simp)

theorem holes_append_quote (k : Nat) (text back : List Char) :
    holes k (text ++ '\'' :: back) = holes k text + holes k ('\'' :: back) := by
  have hquote := notMem_tail_placeholder (c := '\'') (by decide) (by decide)
  rw [holes, parts_append hquote, List.count_append]
  rfl

/-- A format that gives its first argument in quotes, once and before all others. -/
def Quotes (format : List Char) : Prop := ∃ front back,
  format = front ++ (placeholder 0 ++ '\'' :: back) ∧ '\x7b' ∉ front ∧
    holes 0 ('\'' :: back) = 0

/-- The quotes keep a subject apart from the format, so that it disturbs the second argument only by
a placeholder of its own. -/
theorem Quotes.holes_one_literally_iff {format : List Char} (h : Quotes format)
    (subject : String) :
    holes 1 (literally format [subject]) = holes 1 format ↔
      ¬placeholder 1 <:+: subject.toList := by
  obtain ⟨front, back, rfl, hfront, hback⟩ := h
  have hfront0 : holes 0 front = 0 := by
    have hfree := holes_append_of_notMem hfront 0 []
    rwa [List.append_nil] at hfree
  have hfilled : literally (front ++ (placeholder 0 ++ '\'' :: back)) [subject] =
      front ++ (subject.toList ++ '\'' :: back) := by
    rw [literally, parts_append_placeholder, fill_append, fill_hole]
    exact congrArg₂ (fun a b => a ++ (subject.toList ++ b)) (literally_eq_self hfront0 subject)
      (literally_eq_self hback subject)
  have hformat : holes 1 (placeholder 0 ++ '\'' :: back) = holes 1 ('\'' :: back) := by
    rw [holes, parts_placeholder]
    exact List.count_cons_of_ne (by decide)
  rw [hfilled, holes_append_of_notMem hfront, holes_append_of_notMem hfront, hformat,
    holes_append_quote, ← holes_eq_zero_iff]
  omega

end Subjects

end Diagnostic

namespace DiagnosticKind

open Diagnostic

/-- The kinds that a pass reports, all of them with a subject and a detail. -/
def ofPass : List DiagnosticKind := [eventsNotFound, generationFailed, outputConflict]

theorem quotes_ofPass : ∀ kind ∈ ofPass, Quotes kind.messageFormat.toList := by
  simp only [ofPass, List.forall_mem_cons, List.not_mem_nil, false_implies, implies_true, and_true]
  exact ⟨⟨"Type '".toList, " does not have any public \x7b1\x7d events to wrap".toList,
      by decide⟩,
    ⟨"Failed to generate event observables for '".toList, ": \x7b1\x7d".toList,
      by decide⟩,
    ⟨"Generated output for '".toList, " was not added: \x7b1\x7d".toList, by decide⟩⟩

/-- The message of some arguments as it is read off the format. -/
def literalMessage (kind : DiagnosticKind) (arguments : List String) : String :=
  String.ofList (literally kind.messageFormat.toList arguments)

end DiagnosticKind

namespace Diagnostic

theorem message_eq_literalMessage_iff (kind : DiagnosticKind) (location : Location)
    (arguments : List String) :
    (ofKind kind location arguments).message = kind.literalMessage arguments ↔
      fillFrom 0 kind.messageFormat.toList arguments =
        literally kind.messageFormat.toList arguments :=
  String.ofList_inj

/-- However many of its arguments a message has been given, it is literal, exactly if each of them
is its own placeholder or finds this placeholder as often as it occurs in the format. With the kinds
of a pass a message is literal exactly if the subject does not contain the placeholder of the
detail, or the detail is this placeholder; what the detail contains does not matter. -/
theorem message_literal_iff (location : Location) :
    (∀ (kind : DiagnosticKind) (arguments : List String),
      (∀ n ≤ arguments.length, (ofKind kind location (arguments.take n)).message =
        kind.literalMessage (arguments.take n)) ↔
      ∀ n argument, arguments[n]? = some argument → argument.toList = placeholder n ∨
        holes n (kind.literalMessage (arguments.take n)).toList =
          holes n kind.messageFormat.toList) ∧
    ∀ kind ∈ DiagnosticKind.ofPass, ∀ subject detail,
      (ofKind kind location [subject, detail]).message =
          kind.literalMessage [subject, detail] ↔
        detail.toList = placeholder 1 ∨ ¬placeholder 1 <:+: subject.toList := by
  constructor
  · intro kind arguments
    simp only [message_eq_literalMessage_iff]
    simp only [DiagnosticKind.literalMessage, String.toList_ofList]
    exact fillFrom_take_iff _ arguments
  · intro kind hkind subject detail
    have hquotes := DiagnosticKind.quotes_ofPass kind hkind
    have hsubject : fillFrom 0 kind.messageFormat.toList [subject] =
        literally kind.messageFormat.toList [subject] := fillFrom_singleton _ subject
    have hdetail := replaceFrom_literally_iff kind.messageFormat.toList [subject] detail
    rw [← hsubject] at hdetail
    rw [message_eq_literalMessage_iff, ← hquotes.holes_one_literally_iff, ← hsubject]
    exact hdetail

/-- A detail may look like a placeholder. -/
theorem conflict_of_clock_literal :
    (ofKind .outputConflict {} ["Sample.Clock", "\x7b0\x7d was taken"]).message =
      "Generated output for 'Sample.Clock' was not added: \x7b0\x7d was taken" := by
  have hfree : ¬placeholder 1 <:+: "Sample.Clock".toList := by decide
  rw [((message_literal_iff {}).2 .outputConflict (by simp [DiagnosticKind.ofPass])
    "Sample.Clock" "\x7b0\x7d was taken").2 (.inr hfree)]
  decide

/-- A subject that looks like the placeholder of the detail is lost. -/
theorem conflict_of_hole_not_literal :
    (ofKind .outputConflict {} ["Sample.\x7b1\x7d", "hint name was already added"]).message =
        "Generated output for 'Sample.hint name was already added' was not added: " ++
          "hint name was already added" ∧
      DiagnosticKind.outputConflict.literalMessage
          ["Sample.\x7b1\x7d", "hint name was already added"] =
        "Generated output for 'Sample.\x7b1\x7d' was not added: hint name was already added" := by
  decide

end Diagnostic

end EventWrap
