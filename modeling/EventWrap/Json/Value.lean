/-!
# JSON values

A value keeps of a text what a reader may still ask: whether a number was written as an integer,
and whether a string denotes any text at all. `Json.depth` counts the levels of nesting, and
`Json.readable` says that a value can be taken in whole within a number of levels.
-/

namespace EventWrap

/-- A number as written: an integer, or a significand times a power of ten, of which a reader keeps
the leading digits only. Minus zero is `real 0 0`. -/
inductive Json.Number where
  | int (value : Int)
  | real (significand : Int) (exponent : Int)
  deriving DecidableEq, Inhabited

/-- A JSON value. A string is `none` when one of its escapes is half of a surrogate pair. -/
inductive Json where
  | null
  | bool (value : Bool)
  | num (value : Json.Number)
  | str (text : Option String)
  | arr (items : List Json)
  | obj (fields : List (Option String × Json))
  deriving Inhabited

namespace Json

/-! ## Making values -/

def text (s : String) : Json := .str (some s)

def nat (n : Nat) : Json := .num (.int n)

def int (n : Int) : Json := .num (.int n)

def record (fields : List (String × Json)) : Json := .obj (fields.map fun (key, value) => (some key, value))

def ofOption {α : Type} (encode : α → Json) : Option α → Json
  | none => .null
  | some a => encode a

/-! ## Range of numbers -/

namespace Number

/-- Half a unit above the largest double: what is at least this large is no double. -/
def limit : Nat := Nat.pow 2 1024 - Nat.pow 2 970

/-- The nearest number of at most 53 significant bits; of two, the one whose last bit is zero. -/
def rounded (n : Nat) : Nat :=
  let unit := Nat.pow 2 (n.log2 - 52)
  let below := n / unit
  let rest := 2 * (n % unit)
  if rest < unit ∨ (rest = unit ∧ below % 2 = 0) then below * unit else (below + 1) * unit

/-- The leading digits that fit 64 bits, and how many digits follow them. -/
def leading (n : Nat) : Nat × Nat :=
  if h : n < UInt64.size then (n, 0)
  else
    have : 0 < n := Nat.lt_of_lt_of_le (by decide) (Nat.le_of_not_lt h)
    have : n / 10 < n := Nat.div_lt_self this (by decide)
    let (m, skipped) := leading (n / 10)
    (m, skipped + 1)

/-- Whether the product of a significand and a power of ten is a double, both rounded first. -/
def fits (significand : Nat) (exponent : Int) : Bool :=
  significand = 0 || exponent < 0 ||
    (exponent ≤ 308 && rounded significand * rounded (Nat.pow 10 exponent.toNat) < limit)

/-- Whether a number is in the range of doubles. -/
def isFinite : Number → Bool
  | .int n => fits (leading n.natAbs).1 (leading n.natAbs).2
  | .real m e => fits m.natAbs e

end Number

/-! ## Nesting -/

mutual

/-- How many arrays and objects lie around the innermost one, that one included. -/
def depth : Json → Nat
  | .arr items => depthItems items + 1
  | .obj fields => depthFields fields + 1
  | _ => 0

def depthItems : List Json → Nat
  | [] => 0
  | item :: rest => max item.depth (depthItems rest)

def depthFields : List (Option String × Json) → Nat
  | [] => 0
  | (_, value) :: rest => max value.depth (depthFields rest)

end

mutual

/-- Whether every string denotes text, every number is in range, and at most `room` levels are nested. -/
def readable (room : Nat) : Json → Bool
  | .null => true
  | .bool _ => true
  | .num n => n.isFinite
  | .str t => t.isSome
  | .arr items => match room with
    | 0 => false
    | room + 1 => readableItems room items
  | .obj fields => match room with
    | 0 => false
    | room + 1 => readableFields room fields

def readableItems (room : Nat) : List Json → Bool
  | [] => true
  | item :: rest => readable room item && readableItems room rest

def readableFields (room : Nat) : List (Option String × Json) → Bool
  | [] => true
  | (key, value) :: rest => key.isSome && readable room value && readableFields room rest

end

/-! ## Order of fields -/

mutual

/-- The same value with the fields of every object in the order of their keys. -/
def sorted : Json → Json
  | .arr items => .arr (sortedItems items)
  | .obj fields =>
    .obj ((sortedFields fields).mergeSort fun a b => decide (a.1.getD "" ≤ b.1.getD ""))
  | j => j

def sortedItems : List Json → List Json
  | [] => []
  | item :: rest => item.sorted :: sortedItems rest

def sortedFields : List (Option String × Json) → List (Option String × Json)
  | [] => []
  | (key, value) :: rest => (key, value.sorted) :: sortedFields rest

end

end Json

end EventWrap
