import EventWrap.Json.Value

/-!
# Writing JSON text

Two layouts: `compact` on one line without blanks, and `pretty` with one entry a line and two
blanks per level.
-/

namespace EventWrap.Json

/-! ## Leaves -/

def hexDigit (n : Nat) : Char := if n < 10 then Char.ofNat ('0'.toNat + n) else Char.ofNat ('a'.toNat + (n - 10))

/-- A character inside a string: quotes, backslashes and control characters are escaped. -/
def escapeChar (c : Char) : List Char :=
  if c = '"' then ['\\', '"']
  else if c = '\\' then ['\\', '\\']
  else if c = '\x08' then ['\\', 'b']
  else if c = '\x0c' then ['\\', 'f']
  else if c = '\n' then ['\\', 'n']
  else if c = '\r' then ['\\', 'r']
  else if c = '\t' then ['\\', 't']
  else if c.toNat < 0x20 then ['\\', 'u', '0', '0', hexDigit (c.toNat / 16), hexDigit (c.toNat % 16)]
  else [c]

def writeString (s : String) : List Char := '"' :: (s.toList.flatMap escapeChar ++ ['"'])

def writeInt : Int → List Char
  | .ofNat n => Nat.toDigits 10 n
  | .negSucc n => '-' :: Nat.toDigits 10 (n + 1)

def writeNumber : Number → List Char
  | .int n => writeInt n
  | .real m e => writeInt m ++ 'e' :: writeInt e

/-! ## One line -/

mutual

def writeCompact : Json → List Char
  | .null => ['n', 'u', 'l', 'l']
  | .bool true => ['t', 'r', 'u', 'e']
  | .bool false => ['f', 'a', 'l', 's', 'e']
  | .num n => writeNumber n
  | .str t => writeString (t.getD "")
  | .arr [] => ['[', ']']
  | .arr (item :: items) => '[' :: (writeCompact item ++ compactItems items)
  | .obj [] => ['\x7b', '\x7d']
  | .obj ((key, value) :: fields) =>
    '\x7b' :: (writeString (key.getD "") ++ ':' :: (writeCompact value ++ compactFields fields))

/-- Further items of an array, and its end. -/
def compactItems : List Json → List Char
  | [] => [']']
  | item :: items => ',' :: (writeCompact item ++ compactItems items)

/-- Further fields of an object, and its end. -/
def compactFields : List (Option String × Json) → List Char
  | [] => ['\x7d']
  | (key, value) :: fields =>
    ',' :: (writeString (key.getD "") ++ ':' :: (writeCompact value ++ compactFields fields))

end

def compact (j : Json) : String := String.ofList j.writeCompact

/-! ## One entry a line -/

def newLine (level : Nat) : List Char := '\n' :: List.replicate (2 * level) ' '

mutual

/-- A value whose first line stands at `level`. -/
def writePretty (level : Nat) : Json → List Char
  | .arr (item :: items) =>
    '[' :: (newLine (level + 1) ++ (writePretty (level + 1) item ++ prettyItems level items))
  | .obj ((key, value) :: fields) =>
    '\x7b' :: (newLine (level + 1) ++ (writeString (key.getD "") ++
      ':' :: ' ' :: (writePretty (level + 1) value ++ prettyFields level fields)))
  | j => writeCompact j

def prettyItems (level : Nat) : List Json → List Char
  | [] => newLine level ++ [']']
  | item :: items => ',' :: (newLine (level + 1) ++ (writePretty (level + 1) item ++ prettyItems level items))

def prettyFields (level : Nat) : List (Option String × Json) → List Char
  | [] => newLine level ++ ['\x7d']
  | (key, value) :: fields =>
    ',' :: (newLine (level + 1) ++ (writeString (key.getD "") ++
      ':' :: ' ' :: (writePretty (level + 1) value ++ prettyFields level fields)))

end

def pretty (j : Json) : String := String.ofList (j.writePretty 0)

end EventWrap.Json
