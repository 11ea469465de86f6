import EventWrap.Json.Value

/-!
# Decoding JSON values

A decoder takes the number of levels that may still be nested and a value. Records may be written
as objects, with unknown fields ignored and known ones given once, or as arrays of their fields in
order; an ignored field is not counted, whatever it holds.
-/

namespace EventWrap.Json

abbrev Decoder (α : Type) := Nat → Json → Option α

namespace Decoder

variable {α : Type}

/-! ## Leaves -/

def string : Decoder String
  | _, .str t => t
  | _, _ => none

def boolean : Decoder Bool
  | _, .bool b => some b
  | _, _ => none

def natural (bound : Nat) : Decoder Nat
  | _, .num (.int n) => if 0 ≤ n ∧ n < bound then some n.toNat else none
  | _, _ => none

def word32 : Decoder UInt32 := fun room j => (natural UInt32.size room j).map UInt32.ofNat

def integer64 : Decoder Int64
  | _, .num (.int n) => if Int64.minValue.toInt ≤ n ∧ n ≤ Int64.maxValue.toInt then some (Int64.ofInt n) else none
  | _, _ => none

/-- One of a few words, alone or as the key of an object whose one value is `null`. -/
def word (table : List (String × α)) : Decoder α
  | _, .str (some s) => table.lookup s
  | _ + 1, .obj [(some s, .null)] => table.lookup s
  | _, _ => none

/-! ## Composite values -/

def list (item : Decoder α) : Decoder (List α)
  | room + 1, .arr items => items.mapM (item room)
  | _, _ => none

def optional (decode : Decoder α) : Decoder (Option α)
  | _, .null => some none
  | room, j => (decode room j).map some

/-- A map from text; of several values for one key the last stands. -/
def table (value : Decoder α) : Decoder (List (String × α))
  | room + 1, .obj fields => fields.mapM fun (key, j) => do return (← key, ← value room j)
  | _, _ => none

/-! ## Records -/

/-- A field that must be present. -/
def required (decode : Decoder α) (room : Nat) (field : Option Json) : Option α := do
  decode room (← field)

/-- A field that stands for `absent` when it is not written. -/
def withDefault (absent : α) (decode : Decoder α) (room : Nat) : Option Json → Option α
  | none => some absent
  | some j => decode room j

/-- A field that may be missing or `null`. -/
def maybe (decode : Decoder α) : Nat → Option Json → Option (Option α) :=
  withDefault none (optional decode)

/-- The values of the named fields, or `none` where a known field is given twice or a key is no text. -/
def fieldsOf (names : List String) (fields : List (Option String × Json)) : Option (List (Option Json)) :=
  if fields.all (·.1.isSome) ∧ names.all fun name => decide (fields.countP (fun f => f.1 = some name) ≤ 1) then
    some (names.map fun name => fields.lookup (some name))
  else none

/-- A record with the named fields, given to `body` in this order. -/
def record (names : List String) (body : Nat → List (Option Json) → Option α) : Decoder α
  | room + 1, .obj fields => (fieldsOf names fields).bind (body room)
  | room + 1, .arr items =>
    if items.length ≤ names.length then
      body room (items.map some ++ List.replicate (names.length - items.length) none)
    else none
  | _, _ => none

end Decoder

/-- A value decoded with as many levels as it has. -/
def decode {α : Type} (decoder : Decoder α) (j : Json) : Option α := decoder j.depth j

end EventWrap.Json
