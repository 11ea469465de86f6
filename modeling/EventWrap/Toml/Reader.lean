import EventWrap.Toml.Table
import EventWrap.Toml.Text

/-!
# Reading TOML

The part of TOML that settings files use, read into a JSON object: tables of keys with strings,
booleans and integers. Every line leaves less of the text, so a bound on the lines taken from the
length of the text is never met.
-/

namespace EventWrap.Toml

/-! ## Integers -/

/-- The number that digits go on to make. One underscore may stand between two digits. -/
def readDigits (base n : Nat) : List Char → Option Nat
  | [] => none
  | c :: rest => do
    let d ← hexValue c
    if base ≤ d then none
    else match rest with
      | [] => some (base * n + d)
      | '_' :: rest => readDigits base (base * n + d) rest
      | rest => readDigits base (base * n + d) rest

/-- Decimal digits, of which the first is not zero unless it stands alone. -/
def readDecimal (chars : List Char) : Option Nat :=
  match chars with
  | '0' :: _ :: _ => none
  | _ => readDigits 10 0 chars

/-- An integer in base 10 with or without a sign, or in base 16, 8 or 2. -/
def readWritten : List Char → Option Int
  | '0' :: 'x' :: rest => (readDigits 16 0 rest).map Int.ofNat
  | '0' :: 'o' :: rest => (readDigits 8 0 rest).map Int.ofNat
  | '0' :: 'b' :: rest => (readDigits 2 0 rest).map Int.ofNat
  | '-' :: rest => (readDecimal rest).map fun n => -(n : Int)
  | '+' :: rest => (readDecimal rest).map Int.ofNat
  | chars => (readDecimal chars).map Int.ofNat

/-- An integer of 64 bits. -/
def readInteger (chars : List Char) : Option Int := do
  let n ← readWritten chars
  if Int64.minValue.toInt ≤ n ∧ n ≤ Int64.maxValue.toInt then return n else none

/-! ## Keys and values -/

def isBareKey (c : Char) : Bool := c.isAlphanum || c = '_' || c = '-'

/-- A part of a key, and what follows it. -/
def readKeyPart (chars : List Char) : Option Cut :=
  match readQuoted? chars with
  | some cut => cut
  | none =>
    let word := chars.takeWhile isBareKey
    if word.isEmpty then none else some (word, chars.dropWhile isBareKey)

/-- The most parts of a key. -/
def keyLimit : Nat := 79

/-- Parts of a key with points between them and blanks around, and what follows; within a number
of parts. -/
def readKey : Nat → List Char → Option (List String × List Char)
  | 0, _ => none
  | room + 1, chars => do
    let (part, rest) ← readKeyPart (skipBlanks chars)
    match skipBlanks rest with
    | '.' :: rest => do
      let (parts, rest) ← readKey room rest
      return (String.ofList part :: parts, rest)
    | rest => return ([String.ofList part], rest)

/-- Whether a character ends a word. -/
def endsWord (c : Char) : Bool := isBlank c || c = '#' || c = '\n' || c = '\r'

def ofWord (word : List Char) : Option Json :=
  if word = ['t', 'r', 'u', 'e'] then some (.bool true)
  else if word = ['f', 'a', 'l', 's', 'e'] then some (.bool false)
  else (readInteger word).map .int

/-- A value, and what follows it. -/
def readValue (chars : List Char) : Option (Json × List Char) :=
  match readText? chars with
  | some cut => cut.map fun (text, rest) => (.text (String.ofList text), rest)
  | none => (ofWord (chars.takeWhile (!endsWord ·))).map (·, chars.dropWhile (!endsWord ·))

/-! ## Lines -/

/-- What follows the end of a line: blanks, a comment, and a newline or the end of the text. -/
def readEnd (chars : List Char) : Option (List Char) :=
  let rest := match skipBlanks chars with
    | '#' :: rest => rest.dropWhile isPlain
    | rest => rest
  if rest.isEmpty then some [] else afterNewline? rest

/-- A document with the path of the table that entries go to. -/
structure Draft where
  document : Table := {}
  path : List String := []

/-- A header of a table. -/
def readHeader (chars : List Char) (d : Draft) : Option (Draft × List Char) := do
  let (path, rest) ← readKey keyLimit chars
  match rest with
  | ']' :: rest => return (⟨← d.document.openHeader path, path⟩, ← readEnd rest)
  | _ => none

/-- A key, an equals sign and a value. -/
def readEntry (chars : List Char) (d : Draft) : Option (Draft × List Char) := do
  let (key, rest) ← readKey keyLimit chars
  match rest with
  | '=' :: rest =>
    let (value, rest) ← readValue (skipBlanks rest)
    let document ← d.document.changeAt d.path (·.define key value)
    return ({ d with document }, ← readEnd rest)
  | _ => none

def readLine (chars : List Char) (d : Draft) : Option (Draft × List Char) :=
  match skipBlanks chars with
  | '[' :: rest => readHeader rest d
  | rest => match readEnd rest with
    | some rest => some (d, rest)
    | none => readEntry rest d

/-- Lines up to the end of the text, within a number of lines. -/
def readLines : Nat → List Char → Draft → Option Table
  | 0, _, _ => none
  | room + 1, chars, d =>
    if chars.isEmpty then some d.document
    else do
      let (d, rest) ← readLine chars d
      readLines room rest d

/-- The text after a mark of its byte order. -/
def skipMark : List Char → List Char
  | '\ufeff' :: rest => rest
  | chars => chars

def parse? (text : String) : Option Json :=
  let chars := skipMark text.toList
  (readLines (chars.length + 1) chars {}).map Table.toJson

end EventWrap.Toml
