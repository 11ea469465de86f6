import EventWrap.Json.Value

/-!
# Reading JSON text

Recursive descent over characters. Every step leaves less of the text, so a bound on the steps
taken from the length of the text is never met. Strings are cut into pieces first and the pieces
joined to text afterwards, since an escape may be half of a surrogate pair.
-/

namespace EventWrap.Json

/-! ## Blanks and digits -/

def isBlank (c : Char) : Bool := c = ' ' || c = '\n' || c = '\t' || c = '\r'

def skipBlanks : List Char → List Char
  | [] => []
  | c :: rest => if isBlank c then skipBlanks rest else c :: rest

/-- The leading decimal digits and what follows them. -/
def spanDigits : List Char → List Char × List Char
  | [] => ([], [])
  | c :: rest =>
    if c.isDigit then ((c :: (spanDigits rest).1), (spanDigits rest).2) else ([], c :: rest)

def ofDigits (digits : List Char) : Nat :=
  digits.foldl (fun n d => 10 * n + (d.toNat - '0'.toNat)) 0

/-! ## Strings -/

/-- A piece of a written string: a character, or a UTF-16 unit given by its number. -/
inductive Piece where
  | char (c : Char)
  | unit (n : Nat)
  deriving DecidableEq

def hexValue (c : Char) : Option Nat :=
  if '0' ≤ c ∧ c ≤ '9' then some (c.toNat - '0'.toNat)
  else if 'a' ≤ c ∧ c ≤ 'f' then some (c.toNat - 'a'.toNat + 10)
  else if 'A' ≤ c ∧ c ≤ 'F' then some (c.toNat - 'A'.toNat + 10)
  else none

/-- The character that a one-letter escape stands for. -/
def simpleEscape : Char → Option Char
  | '"' => some '"'
  | '\\' => some '\\'
  | '/' => some '/'
  | 'b' => some '\x08'
  | 'f' => some '\x0c'
  | 'n' => some '\n'
  | 'r' => some '\r'
  | 't' => some '\t'
  | _ => none

/-- The pieces of a string up to its closing quote, and what follows the quote. -/
def readPieces : List Char → Option (List Piece × List Char)
  | [] => none
  | '"' :: rest => some ([], rest)
  | '\\' :: 'u' :: a :: b :: c :: d :: rest => do
    let a ← hexValue a
    let b ← hexValue b
    let c ← hexValue c
    let d ← hexValue d
    let (pieces, after) ← readPieces rest
    return (.unit (((a * 16 + b) * 16 + c) * 16 + d) :: pieces, after)
  | '\\' :: e :: rest => do
    let c ← simpleEscape e
    let (pieces, after) ← readPieces rest
    return (.char c :: pieces, after)
  | c :: rest =>
    if c = '\\' ∨ c.toNat < 0x20 then none
    else do
      let (pieces, after) ← readPieces rest
      return (.char c :: pieces, after)

/-- The text of the pieces, unless a surrogate stands without its partner. -/
def joinPieces : List Piece → Option (List Char)
  | [] => some []
  | .char c :: rest => (joinPieces rest).map (c :: ·)
  | .unit high :: .unit low :: rest =>
    if high < 0xD800 ∨ 0xE000 ≤ high then
      (joinPieces (.unit low :: rest)).map (Char.ofNat high :: ·)
    else if high < 0xDC00 ∧ 0xDC00 ≤ low ∧ low < 0xE000 then
      (joinPieces rest).map (Char.ofNat (0x10000 + (high - 0xD800) * 0x400 + (low - 0xDC00)) :: ·)
    else none
  | .unit n :: rest =>
    if n < 0xD800 ∨ 0xE000 ≤ n then (joinPieces rest).map (Char.ofNat n :: ·) else none

/-- A string after its opening quote. -/
def readString (chars : List Char) : Option (Option String × List Char) := do
  let (pieces, rest) ← readPieces chars
  return ((joinPieces pieces).map String.ofList, rest)

/-! ## Numbers -/

/-- The fraction after a point: at least one digit. -/
def readFraction : List Char → Option (List Char × List Char)
  | '.' :: rest => match spanDigits rest with
    | ([], _) => none
    | (digits, after) => some (digits, after)
  | rest => some ([], rest)

/-- The digits of an exponent: at least one. -/
def readExponentDigits (chars : List Char) : Option (Nat × List Char) :=
  match spanDigits chars with
  | ([], _) => none
  | (digits, after) => some (ofDigits digits, after)

/-- The exponent, when one is written. -/
def readExponent : List Char → Option (Option Int × List Char)
  | c :: rest =>
    if c = 'e' ∨ c = 'E' then
      match rest with
      | '-' :: rest => (readExponentDigits rest).map fun (n, after) => (some (-n), after)
      | '+' :: rest => (readExponentDigits rest).map fun (n, after) => (some n, after)
      | rest => (readExponentDigits rest).map fun (n, after) => (some n, after)
    else some (none, c :: rest)
  | [] => some (none, [])

/-- The whole part: one zero, or digits that do not start with one. -/
def readWhole (chars : List Char) : Option (List Char × List Char) :=
  match spanDigits chars with
  | ([], _) => none
  | (['0'], after) => some (['0'], after)
  | ('0' :: _, _) => none
  | (digits, after) => some (digits, after)

/-- Takes digits up while the number that they make fits 64 bits, and says how many are left. -/
def takeDigits (n : Nat) : List Char → Nat × Nat
  | [] => (n, 0)
  | d :: rest =>
    let next := 10 * n + (d.toNat - '0'.toNat)
    if next < UInt64.size then takeDigits next rest else (n, rest.length + 1)

/-- A significand of at most 64 bits and its power of ten. A digit of the whole part that does not
fit raises the power, and one of the fraction is dropped. -/
def approximate (whole fraction : List Char) (exponent : Int) : Nat × Int :=
  let (n, skipped) := takeDigits 0 whole
  let (n, dropped) := takeDigits n fraction
  (n, exponent + skipped - (fraction.length - dropped))

/-- A number without its sign. -/
def readMagnitude (negative : Bool) (chars : List Char) : Option (Number × List Char) := do
  let (whole, rest) ← readWhole chars
  let (fraction, rest) ← readFraction rest
  let (exponent, rest) ← readExponent rest
  let signed (n : Nat) : Int := if negative then -(n : Int) else n
  match fraction, exponent with
  | [], none =>
    let n := ofDigits whole
    if negative ∧ n = 0 then return (.real 0 0, rest) else return (.int (signed n), rest)
  | _, _ =>
    let (n, power) := approximate whole fraction (exponent.getD 0)
    return (.real (signed n) power, rest)

def readNumber : List Char → Option (Number × List Char)
  | '-' :: rest => readMagnitude true rest
  | chars => readMagnitude false chars

/-! ## Values -/

/-- The text after a word that must come first. -/
def afterWord : List Char → List Char → Option (List Char)
  | [], rest => some rest
  | _ :: _, [] => none
  | w :: word, c :: rest => if w = c then afterWord word rest else none

mutual

/-- A value at the front of the text, within a number of steps. -/
def readValue : Nat → List Char → Option (Json × List Char)
  | 0, _ => none
  | steps + 1, chars =>
    match skipBlanks chars with
    | [] => none
    | c :: rest =>
      if c = 'n' then (afterWord ['u', 'l', 'l'] rest).map (.null, ·)
      else if c = 't' then (afterWord ['r', 'u', 'e'] rest).map (.bool true, ·)
      else if c = 'f' then (afterWord ['a', 'l', 's', 'e'] rest).map (.bool false, ·)
      else if c = '"' then (readString rest).map fun (s, after) => (.str s, after)
      else if c = '[' then
        match skipBlanks rest with
        | ']' :: after => some (.arr [], after)
        | rest => do
          let (item, rest) ← readValue steps rest
          let (items, after) ← readItems steps rest
          return (.arr (item :: items), after)
      else if c = '\x7b' then
        match skipBlanks rest with
        | '\x7d' :: after => some (.obj [], after)
        | rest => do
          let (field, rest) ← readField steps rest
          let (fields, after) ← readFields steps rest
          return (.obj (field :: fields), after)
      else (readNumber (c :: rest)).map fun (n, after) => (.num n, after)

/-- What follows an item of an array: its end, or a comma and further items. -/
def readItems : Nat → List Char → Option (List Json × List Char)
  | 0, _ => none
  | steps + 1, chars =>
    match skipBlanks chars with
    | ']' :: after => some ([], after)
    | ',' :: rest => do
      let (item, rest) ← readValue steps rest
      let (items, after) ← readItems steps rest
      return (item :: items, after)
    | _ => none

/-- A key, a colon and a value. -/
def readField : Nat → List Char → Option ((Option String × Json) × List Char)
  | 0, _ => none
  | steps + 1, chars =>
    match skipBlanks chars with
    | '"' :: rest => do
      let (key, rest) ← readString rest
      match skipBlanks rest with
      | ':' :: rest => do
        let (value, after) ← readValue steps rest
        return ((key, value), after)
      | _ => none
    | _ => none

/-- What follows a field of an object: its end, or a comma and further fields. -/
def readFields : Nat → List Char → Option (List (Option String × Json) × List Char)
  | 0, _ => none
  | steps + 1, chars =>
    match skipBlanks chars with
    | '\x7d' :: after => some ([], after)
    | ',' :: rest => do
      let (field, rest) ← readField steps rest
      let (fields, after) ← readFields steps rest
      return (field :: fields, after)
    | _ => none

end

/-- The value that a text holds, with nothing but blanks around it. -/
def read? (chars : List Char) : Option Json := do
  let (value, rest) ← readValue (2 * chars.length + 1) chars
  if skipBlanks rest = [] then return value else none

def parse? (text : String) : Option Json := read? text.toList

end EventWrap.Json
