import EventWrap.Proofs.Json.Leaves

/-!
# Written values

A value that holds texts and integers, of any size, is read back from any text that lays it out
with blanks between its tokens. The one-line layout and the indented one are of this form.
-/

namespace EventWrap.Json

/-! ## Integral and plain values -/

mutual

/-- Whether all strings denote text and all numbers are integers. -/
def integral : Json → Bool
  | .null => true
  | .bool _ => true
  | .num (.int _) => true
  | .num (.real ..) => false
  | .str t => t.isSome
  | .arr items => integralItems items
  | .obj fields => integralFields fields

def integralItems : List Json → Bool
  | [] => true
  | item :: rest => item.integral && integralItems rest

def integralFields : List (Option String × Json) → Bool
  | [] => true
  | (key, value) :: rest => key.isSome && value.integral && integralFields rest

end

mutual

/-- Whether all strings denote text and all numbers are integers that fit 64 bits. -/
def plain : Json → Bool
  | .null => true
  | .bool _ => true
  | .num (.int n) => n.natAbs < UInt64.size
  | .num (.real ..) => false
  | .str t => t.isSome
  | .arr items => plainItems items
  | .obj fields => plainFields fields

def plainItems : List Json → Bool
  | [] => true
  | item :: rest => item.plain && plainItems rest

def plainFields : List (Option String × Json) → Bool
  | [] => true
  | (key, value) :: rest => key.isSome && value.plain && plainFields rest

end

mutual

theorem integral_of_plain : (j : Json) → j.plain = true → j.integral = true
  | .null, _ => by rw [integral]
  | .bool _, _ => by rw [integral]
  | .num (.int _), _ => by rw [integral]
  | .str (some _), _ => by
    rw [integral]
    rfl
  | .arr items, h => by
    rw [plain] at h
    rw [integral]
    exact integralItems_of_plain items h
  | .obj fields, h => by
    rw [plain] at h
    rw [integral]
    exact integralFields_of_plain fields h

theorem integralItems_of_plain : (items : List Json) → plainItems items = true →
    integralItems items = true
  | [], _ => by rw [integralItems]
  | item :: rest, h => by
    rw [plainItems, Bool.and_eq_true] at h
    rw [integralItems, integral_of_plain item h.1, integralItems_of_plain rest h.2, Bool.and_true]

theorem integralFields_of_plain : (fields : List (Option String × Json)) →
    plainFields fields = true → integralFields fields = true
  | [], _ => by rw [integralFields]
  | (key, value) :: rest, h => by
    rw [plainFields, Bool.and_eq_true, Bool.and_eq_true] at h
    rw [integralFields, h.1.1, integral_of_plain value h.1.2, integralFields_of_plain rest h.2,
      Bool.and_true, Bool.and_true]

end

/-! ## Layouts -/

/-- What stands between tokens: before an entry or a closing bracket at a level, and after a colon.
All of it is blank. -/
structure Layout where
  gap : Nat → List Char
  space : List Char
  blank_gap : ∀ level, ∀ c ∈ gap level, isBlank c = true
  blank_space : ∀ c ∈ space, isBlank c = true

namespace Layout

mutual

/-- A value whose first line stands at `level`. -/
def write (l : Layout) (level : Nat) : Json → List Char
  | .arr (item :: items) =>
    '[' :: (l.gap (level + 1) ++ (write l (level + 1) item ++ writeItems l level items))
  | .obj ((key, value) :: fields) =>
    '\x7b' :: (l.gap (level + 1) ++ (writeString (key.getD "") ++
      ':' :: (l.space ++ (write l (level + 1) value ++ writeFields l level fields))))
  | j => writeCompact j

def writeItems (l : Layout) (level : Nat) : List Json → List Char
  | [] => l.gap level ++ [']']
  | item :: items =>
    ',' :: (l.gap (level + 1) ++ (write l (level + 1) item ++ writeItems l level items))

def writeFields (l : Layout) (level : Nat) : List (Option String × Json) → List Char
  | [] => l.gap level ++ ['\x7d']
  | (key, value) :: fields =>
    ',' :: (l.gap (level + 1) ++ (writeString (key.getD "") ++
      ':' :: (l.space ++ (write l (level + 1) value ++ writeFields l level fields))))

end

/-- Everything on one line, without blanks. -/
def oneLine : Layout where
  gap _ := []
  space := []
  blank_gap := nofun
  blank_space := nofun

/-- One entry a line. -/
def indented : Layout where
  gap := newLine
  space := [' ']
  blank_gap level c hc := by
    rcases List.mem_cons.1 hc with rfl | hc
    · rfl
    · rw [List.eq_of_mem_replicate hc]
      rfl
  blank_space c hc := by
    rw [List.mem_singleton.1 hc]
    rfl

mutual

theorem write_oneLine : (j : Json) → (level : Nat) → oneLine.write level j = j.writeCompact
  | .arr (item :: items), level => by
    rw [write, writeCompact, write_oneLine item, writeItems_oneLine items]
    rfl
  | .obj ((key, value) :: fields), level => by
    rw [write, writeCompact, write_oneLine value, writeFields_oneLine fields]
    rfl
  | .null, _ | .bool _, _ | .num _, _ | .str _, _ | .arr [], _ | .obj [], _ => by
    rw [write] <;> simp

theorem writeItems_oneLine : (items : List Json) → (level : Nat) →
    oneLine.writeItems level items = compactItems items
  | [], level => rfl
  | item :: items, level => by
    rw [writeItems, compactItems, write_oneLine item, writeItems_oneLine items]
    rfl

theorem writeFields_oneLine : (fields : List (Option String × Json)) → (level : Nat) →
    oneLine.writeFields level fields = compactFields fields
  | [], level => rfl
  | (key, value) :: fields, level => by
    rw [writeFields, compactFields, write_oneLine value, writeFields_oneLine fields]
    rfl

end

mutual

theorem write_indented : (j : Json) → (level : Nat) → indented.write level j = j.writePretty level
  | .arr (item :: items), level => by
    rw [write, writePretty, write_indented item, writeItems_indented items]
    rfl
  | .obj ((key, value) :: fields), level => by
    rw [write, writePretty, write_indented value, writeFields_indented fields]
    rfl
  | .null, _ | .bool _, _ | .num _, _ | .str _, _ | .arr [], _ | .obj [], _ => by
    rw [write, writePretty] <;> simp

theorem writeItems_indented : (items : List Json) → (level : Nat) →
    indented.writeItems level items = prettyItems level items
  | [], level => rfl
  | item :: items, level => by
    rw [writeItems, prettyItems, write_indented item, writeItems_indented items]
    rfl

theorem writeFields_indented : (fields : List (Option String × Json)) → (level : Nat) →
    indented.writeFields level fields = prettyFields level fields
  | [], level => rfl
  | (key, value) :: fields, level => by
    rw [writeFields, prettyFields, write_indented value, writeFields_indented fields]
    rfl

end

end Layout

/-! ## Reading -/

section Blanks

variable {gap : List Char} (hgap : ∀ c ∈ gap, isBlank c = true)

include hgap

theorem skipBlanks_append (chars : List Char) : skipBlanks (gap ++ chars) = skipBlanks chars := by
  induction gap with
  | nil => rfl
  | cons c gap ih =>
    rw [List.cons_append, skipBlanks, if_pos (hgap c List.mem_cons_self),
      ih fun d hd => hgap d (List.mem_cons_of_mem _ hd)]

theorem readValue_append (steps : Nat) (chars : List Char) :
    readValue steps (gap ++ chars) = readValue steps chars := by
  cases steps with
  | zero => rfl
  | succ steps => rw [readValue, readValue, skipBlanks_append hgap]

theorem readField_append (steps : Nat) (chars : List Char) :
    readField steps (gap ++ chars) = readField steps chars := by
  cases steps with
  | zero => rfl
  | succ steps => rw [readField, readField, skipBlanks_append hgap]

theorem EndsNumber.append {chars : List Char} (h : EndsNumber chars) :
    EndsNumber (gap ++ chars) := by
  cases gap with
  | nil => exact h
  | cons c gap =>
    rintro d ⟨rfl⟩
    have hc := hgap c List.mem_cons_self
    simp only [isBlank, Bool.or_eq_true, decide_eq_true_eq] at hc
    rcases hc with ((rfl | rfl) | rfl) | rfl <;> decide

end Blanks

theorem skipBlanks_cons {c : Char} (hc : isBlank c = false) (chars : List Char) :
    skipBlanks (c :: chars) = c :: chars := by
  rw [skipBlanks, hc]
  rfl

theorem endsNumber_cons {c : Char} (hc : c ∈ [',', ']', '\x7d']) (chars : List Char) :
    EndsNumber (c :: chars) := by
  rintro d ⟨rfl⟩
  simp only [List.mem_cons, List.not_mem_nil, or_false] at hc
  rcases hc with rfl | rfl | rfl <;> decide

namespace Layout

variable (l : Layout)

/-- A written value starts neither with a blank nor with a closing bracket. -/
theorem exists_head (level : Nat) (j : Json) :
    ∃ c chars, l.write level j = c :: chars ∧ isBlank c = false ∧ c ≠ ']' := by
  have hint : ∀ n rest, ∃ c chars, writeInt n ++ rest = c :: chars ∧ isBlank c = false ∧
      c ≠ ']' := by
    intro n rest
    obtain ⟨c, chars, htext, hc⟩ := exists_writeInt n
    exact ⟨c, chars ++ rest, by rw [htext]; rfl, hc.isBlank, hc.ne (by decide)⟩
  match j with
  | .null => exact ⟨_, _, rfl, by decide, by decide⟩
  | .bool true => exact ⟨_, _, rfl, by decide, by decide⟩
  | .bool false => exact ⟨_, _, rfl, by decide, by decide⟩
  | .num (.int n) =>
    obtain ⟨c, chars, htext, hc⟩ := hint n []
    exact ⟨c, chars, by rw [← htext, List.append_nil]; rfl, hc⟩
  | .num (.real m e) => exact hint m _
  | .str t => exact ⟨_, _, rfl, by decide, by decide⟩
  | .arr [] => exact ⟨_, _, rfl, by decide, by decide⟩
  | .arr (item :: items) => exact ⟨_, _, rfl, by decide, by decide⟩
  | .obj [] => exact ⟨_, _, rfl, by decide, by decide⟩
  | .obj ((key, value) :: fields) => exact ⟨_, _, rfl, by decide, by decide⟩

theorem endsNumber_writeItems (level : Nat) (items : List Json) (rest : List Char) :
    EndsNumber (l.writeItems level items ++ rest) := by
  cases items with
  | nil =>
    rw [writeItems, List.append_assoc]
    exact (endsNumber_cons (by decide) rest).append (l.blank_gap level)
  | cons item items => exact endsNumber_cons (by decide) _

theorem endsNumber_writeFields (level : Nat) (fields : List (Option String × Json))
    (rest : List Char) : EndsNumber (l.writeFields level fields ++ rest) := by
  cases fields with
  | nil =>
    rw [writeFields, List.append_assoc]
    exact (endsNumber_cons (by decide) rest).append (l.blank_gap level)
  | cons field fields => exact endsNumber_cons (by decide) _

theorem readValue_quote (steps : Nat) (rest : List Char) :
    readValue (steps + 1) ('"' :: rest) =
      (readString rest).map fun p => (.str p.1, p.2) := rfl

theorem readValue_openBracket (steps : Nat) (rest : List Char) :
    readValue (steps + 1) ('[' :: rest) =
      match skipBlanks rest with
      | ']' :: after => some (.arr [], after)
      | rest => (readValue steps rest).bind fun p =>
          (readItems steps p.2).bind fun q => some (.arr (p.1 :: q.1), q.2) := rfl

theorem readValue_openBrace (steps : Nat) (rest : List Char) :
    readValue (steps + 1) ('\x7b' :: rest) =
      match skipBlanks rest with
      | '\x7d' :: after => some (.obj [], after)
      | rest => (readField steps rest).bind fun p =>
          (readFields steps p.2).bind fun q => some (.obj (p.1 :: q.1), q.2) := rfl

theorem readField_quote (steps : Nat) (rest : List Char) :
    readField (steps + 1) ('"' :: rest) =
      (readString rest).bind fun p =>
        match skipBlanks p.2 with
        | ':' :: rest => (readValue steps rest).bind fun q => some ((p.1, q.1), q.2)
        | _ => none := rfl

/-- A value that starts a number is read as one. -/
theorem readValue_number {steps : Nat} {c : Char} (hc : StartsNumber c) (chars : List Char) :
    readValue (steps + 1) (c :: chars) =
      (readNumber (c :: chars)).map fun p => (.num p.1, p.2) := by
  rw [readValue, skipBlanks_cons hc.isBlank]
  simp only [hc.ne (d := 'n') (by decide), hc.ne (d := 't') (by decide),
    hc.ne (d := 'f') (by decide), hc.ne (d := '"') (by decide), hc.ne (d := '[') (by decide),
    hc.ne (d := '\x7b') (by decide), ↓reduceIte]

/-- A key, a colon and a value that is read back are read back as a field. -/
theorem readField_write (key : String) {level steps : Nat} {value : Json} {rest : List Char}
    (hvalue : readValue steps (l.write level value ++ rest) = some (value, rest)) :
    readField (steps + 1) (writeString key ++ ':' :: (l.space ++ (l.write level value ++ rest))) =
      some ((some key, value), rest) := by
  have hstring := readString_written key (':' :: (l.space ++ (l.write level value ++ rest)))
  rw [writeString, List.cons_append, List.append_assoc, List.singleton_append, readField_quote,
    hstring, Option.bind_some, skipBlanks_cons (by decide)]
  simp only [readValue_append l.blank_space, hvalue, Option.bind_some]

/-- What follows an opening bracket and does not close it are items. -/
theorem readValue_bracket {steps level : Nat} {c : Char} {chars : List Char}
    (hblank : isBlank c = false) (hclose : c ≠ ']') :
    readValue (steps + 1) ('[' :: (l.gap level ++ c :: chars)) =
      (readValue steps (c :: chars)).bind fun p =>
        (readItems steps p.2).map fun q => (.arr (p.1 :: q.1), q.2) := by
  rw [readValue_openBracket, skipBlanks_append (l.blank_gap level), skipBlanks_cons hblank]
  split
  · next h => exact absurd (List.cons.inj h).1 hclose
  · simp only [Option.map_eq_bind]
    rfl

/-- What follows an opening brace and does not close it are fields. -/
theorem readValue_brace {steps level : Nat} {chars : List Char} :
    readValue (steps + 1) ('\x7b' :: (l.gap level ++ '"' :: chars)) =
      (readField steps ('"' :: chars)).bind fun p =>
        (readFields steps p.2).map fun q => (.obj (p.1 :: q.1), q.2) := by
  rw [readValue_openBrace, skipBlanks_append (l.blank_gap level), skipBlanks_cons (by decide)]
  simp only [Option.map_eq_bind]
  rfl

mutual

theorem readValue_write : (j : Json) → j.integral = true → (level steps : Nat) →
    (rest : List Char) → EndsNumber rest → (l.write level j).length ≤ steps →
    readValue steps (l.write level j ++ rest) = some (j, rest)
  | .null, _, level, steps + 1, rest, _, _ => rfl
  | .bool true, _, level, steps + 1, rest, _, _ => rfl
  | .bool false, _, level, steps + 1, rest, _, _ => rfl
  | .num (.int n), _, level, steps, rest, hrest, hlength => by
    obtain ⟨c, chars, htext, hc⟩ := exists_writeInt n
    have hwrite : l.write level (.num (.int n)) = c :: chars := htext
    rw [hwrite] at hlength
    obtain ⟨steps, rfl⟩ := Nat.exists_eq_add_of_lt hlength
    rw [hwrite, List.cons_append, readValue_number hc, ← List.cons_append, ← htext,
      readNumber_writeInt hrest]
    rfl
  | .str (some s), _, level, steps + 1, rest, _, _ => by
    have hstring := readString_written s rest
    have hwrite : l.write level (.str (some s)) = writeString s := rfl
    rw [hwrite, writeString, List.cons_append, readValue_quote, List.append_assoc,
      List.singleton_append, hstring]
    rfl
  | .arr [], _, level, steps + 1, rest, _, _ => rfl
  | .arr (item :: items), hintegral, level, steps + 1, rest, _, hlength => by
    rw [integral, integralItems, Bool.and_eq_true] at hintegral
    rw [write, List.length_cons, List.length_append, List.length_append] at hlength
    have hitem := readValue_write item hintegral.1 (level + 1) steps
      (l.writeItems level items ++ rest) (l.endsNumber_writeItems level items rest) (by omega)
    have hitems := readItems_write items hintegral.2 level steps rest (by omega)
    obtain ⟨c, chars, hhead, hblank, hclose⟩ := l.exists_head (level + 1) item
    rw [hhead] at hitem
    rw [write, hhead]
    simp only [List.cons_append, List.append_assoc] at hitem ⊢
    rw [l.readValue_bracket hblank hclose, hitem, Option.bind_some, hitems]
    rfl
  | .obj [], _, level, steps + 1, rest, _, _ => rfl
  | .obj ((some key, value) :: fields), hintegral, level, steps, rest, _, hlength => by
    rw [integral, integralFields, Bool.and_eq_true, Bool.and_eq_true] at hintegral
    simp only [write, Option.getD_some, List.length_cons, List.length_append] at hlength
    obtain ⟨steps, rfl⟩ : ∃ fewer, steps = fewer + 2 := ⟨steps - 2, by omega⟩
    have hvalue := readValue_write value hintegral.1.2 (level + 1) steps
      (l.writeFields level fields ++ rest) (l.endsNumber_writeFields level fields rest) (by omega)
    have hfields := readFields_write fields hintegral.2 level (steps + 1) rest (by omega)
    have hfield := l.readField_write key hvalue
    rw [writeString, List.cons_append] at hfield
    rw [write, Option.getD_some, writeString]
    simp only [List.cons_append, List.append_assoc] at hfield ⊢
    rw [l.readValue_brace, hfield, Option.bind_some, hfields]
    rfl

theorem readItems_write : (items : List Json) → integralItems items = true →
    (level steps : Nat) → (rest : List Char) → (l.writeItems level items).length ≤ steps →
    readItems steps (l.writeItems level items ++ rest) = some (items, rest)
  | [], _, level, steps, rest, hlength => by
    rw [writeItems, List.length_append, List.length_singleton] at hlength
    obtain ⟨steps, rfl⟩ : ∃ fewer, steps = fewer + 1 := ⟨steps - 1, by omega⟩
    rw [writeItems, List.append_assoc, readItems, skipBlanks_append (l.blank_gap level),
      List.singleton_append, skipBlanks_cons (by decide)]
    rfl
  | item :: items, hintegral, level, steps + 1, rest, hlength => by
    rw [integralItems, Bool.and_eq_true] at hintegral
    rw [writeItems, List.length_cons, List.length_append, List.length_append] at hlength
    have hitem := readValue_write item hintegral.1 (level + 1) steps
      (l.writeItems level items ++ rest) (l.endsNumber_writeItems level items rest) (by omega)
    have hitems := readItems_write items hintegral.2 level steps rest (by omega)
    rw [writeItems, List.cons_append, List.append_assoc, List.append_assoc, readItems,
      skipBlanks_cons (by decide)]
    simp only [readValue_append (l.blank_gap (level + 1)), hitem, Option.bind_eq_bind,
      Option.bind_some, hitems]
    rfl

theorem readFields_write : (fields : List (Option String × Json)) →
    integralFields fields = true → (level steps : Nat) → (rest : List Char) →
    (l.writeFields level fields).length ≤ steps →
    readFields steps (l.writeFields level fields ++ rest) = some (fields, rest)
  | [], _, level, steps, rest, hlength => by
    rw [writeFields, List.length_append, List.length_singleton] at hlength
    obtain ⟨steps, rfl⟩ : ∃ fewer, steps = fewer + 1 := ⟨steps - 1, by omega⟩
    rw [writeFields, List.append_assoc, readFields, skipBlanks_append (l.blank_gap level),
      List.singleton_append, skipBlanks_cons (by decide)]
    rfl
  | (some key, value) :: fields, hintegral, level, steps, rest, hlength => by
    rw [integralFields, Bool.and_eq_true, Bool.and_eq_true] at hintegral
    simp only [writeFields, Option.getD_some, List.length_cons, List.length_append] at hlength
    obtain ⟨steps, rfl⟩ : ∃ fewer, steps = fewer + 2 := ⟨steps - 2, by omega⟩
    have hvalue := readValue_write value hintegral.1.2 (level + 1) steps
      (l.writeFields level fields ++ rest) (l.endsNumber_writeFields level fields rest) (by omega)
    have hfields := readFields_write fields hintegral.2 level (steps + 1) rest (by omega)
    have hfield := l.readField_write key hvalue
    rw [writeFields, Option.getD_some, List.cons_append, List.append_assoc, List.append_assoc,
      List.cons_append, List.append_assoc, List.append_assoc, readFields,
      skipBlanks_cons (by decide)]
    simp only [readField_append (l.blank_gap (level + 1)), hfield, Option.bind_eq_bind,
      Option.bind_some, hfields]
    rfl

end

/-- A value is read back from a text that lays it out. -/
theorem read?_write {j : Json} (hj : j.integral = true) : read? (l.write 0 j) = some j := by
  have hrest : EndsNumber [] := nofun
  have hread := l.readValue_write j hj 0 (2 * (l.write 0 j).length + 1) [] hrest (by omega)
  rw [List.append_nil] at hread
  rw [read?, hread]
  rfl

end Layout

theorem parse?_compact_of_integral {j : Json} (hj : j.integral = true) :
    parse? j.compact = some j := by
  rw [parse?, compact, String.toList_ofList, ← Layout.write_oneLine j 0]
  exact Layout.oneLine.read?_write hj

theorem parse?_pretty_of_integral {j : Json} (hj : j.integral = true) :
    parse? j.pretty = some j := by
  rw [parse?, pretty, String.toList_ofList, ← Layout.write_indented j 0]
  exact Layout.indented.read?_write hj

theorem parse?_compact {j : Json} (hj : j.plain = true) : parse? j.compact = some j :=
  parse?_compact_of_integral (integral_of_plain j hj)

theorem parse?_pretty {j : Json} (hj : j.plain = true) : parse? j.pretty = some j :=
  parse?_pretty_of_integral (integral_of_plain j hj)

end EventWrap.Json
