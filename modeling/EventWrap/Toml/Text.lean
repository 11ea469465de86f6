/-!
# Strings of TOML

Basic strings have escapes and literal strings none. Either is written on one line, or over lines
between three quotes, where a newline right after the opening quotes is no part of the text.
-/

namespace EventWrap.Toml

/-! ## Characters -/

def isBlank (c : Char) : Bool := c = ' ' || c = '\t'

def skipBlanks (chars : List Char) : List Char := chars.dropWhile isBlank

/-- A character that may stand in a string or in a comment as it is. -/
def isPlain (c : Char) : Bool := c = '\t' || (0x20 ≤ c.toNat && c.toNat ≠ 0x7f)

/-- What follows a newline, when the text starts with one. -/
def afterNewline? : List Char → Option (List Char)
  | '\n' :: rest => some rest
  | '\r' :: '\n' :: rest => some rest
  | _ => none

def startsLine (chars : List Char) : Bool := (afterNewline? chars).isSome

def hexValue (c : Char) : Option Nat :=
  if c.isDigit then some (c.toNat - '0'.toNat)
  else if 'a' ≤ c ∧ c ≤ 'f' then some (c.toNat - 'a'.toNat + 10)
  else if 'A' ≤ c ∧ c ≤ 'F' then some (c.toNat - 'A'.toNat + 10)
  else none

/-- The character of a code point written in hexadecimal. -/
def ofHex (digits : List Char) : Option Char := do
  let n := (← digits.mapM hexValue).foldl (fun n d => 16 * n + d) 0
  if h : n.isValidChar then return Char.ofNatAux n h else none

/-- The character that a one-letter escape stands for. -/
def simpleEscape : Char → Option Char
  | 'b' => some '\x08'
  | 't' => some '\t'
  | 'n' => some '\n'
  | 'f' => some '\x0c'
  | 'r' => some '\r'
  | '"' => some '"'
  | '\\' => some '\\'
  | _ => none

/-! ## Strings -/

/-- A text that was read, and what follows it. -/
abbrev Cut := List Char × List Char

/-- A character in front of a text that is still to be read. -/
def push (c : Char) (cut : Option Cut) : Option Cut := cut.map fun (text, rest) => (c :: text, rest)

/-- Up to two quotes that stand right after the closing ones: they belong to the text. -/
def takeQuotes (quote : Char) : List Char → Cut
  | [] => ([], [])
  | [c] => if c = quote then ([c], []) else ([], [c])
  | c :: d :: rest =>
    if c ≠ quote then ([], c :: d :: rest)
    else if d ≠ quote then ([c], d :: rest)
    else ([c, d], rest)

/-- How a string goes on: on its line, over lines, or after a line's end that was escaped, where
blanks and newlines are skipped. -/
inductive Extent where
  | line
  | lines
  | folded
  deriving DecidableEq

/-- How a string goes on after a character of its own. -/
def Extent.next : Extent → Extent
  | .line => .line
  | _ => .lines

/-- A basic string up to its closing quotes, and what follows. -/
def readBasic (extent : Extent) : List Char → Option Cut
  | [] => none
  | '"' :: rest =>
    if extent = .line then some ([], rest)
    else match rest with
      | '"' :: '"' :: rest => some (takeQuotes '"' rest)
      | rest => push '"' (readBasic .lines rest)
  | '\\' :: 'u' :: a :: b :: c :: d :: rest => do
    push (← ofHex [a, b, c, d]) (readBasic extent.next rest)
  | '\\' :: 'U' :: a :: b :: c :: d :: e :: f :: g :: h :: rest => do
    push (← ofHex [a, b, c, d, e, f, g, h]) (readBasic extent.next rest)
  | '\\' :: c :: rest =>
    match simpleEscape c with
    | some letter => push letter (readBasic extent.next rest)
    | none =>
      if extent ≠ .line && startsLine (skipBlanks (c :: rest)) then readBasic .folded rest else none
  | c :: rest =>
    if startsLine (c :: rest) then
      match extent with
      | .line => none
      | .lines => if c = '\n' then push c (readBasic .lines rest) else readBasic .lines rest
      | .folded => readBasic .folded rest
    else if extent = .folded && isBlank c then readBasic .folded rest
    else if isPlain c then push c (readBasic extent.next rest)
    else none

/-- A literal string up to its closing quotes, and what follows. -/
def readLiteral (lines : Bool) : List Char → Option Cut
  | [] => none
  | '\'' :: rest =>
    if !lines then some ([], rest)
    else match rest with
      | '\'' :: '\'' :: rest => some (takeQuotes '\'' rest)
      | rest => push '\'' (readLiteral lines rest)
  | c :: rest =>
    if lines && startsLine (c :: rest) then
      if c = '\n' then push c (readLiteral lines rest) else readLiteral lines rest
    else if isPlain c then push c (readLiteral lines rest)
    else none

/-- The text after a newline that the opening quotes are followed by. -/
def skipNewline (chars : List Char) : List Char := (afterNewline? chars).getD chars

/-- A string on one line, when one stands at the front of the text. -/
def readQuoted? : List Char → Option (Option Cut)
  | '"' :: rest => some (readBasic .line rest)
  | '\'' :: rest => some (readLiteral false rest)
  | _ => none

/-- A string of any kind, when one stands at the front of the text. -/
def readText? : List Char → Option (Option Cut)
  | '"' :: '"' :: '"' :: rest => some (readBasic .lines (skipNewline rest))
  | '\'' :: '\'' :: '\'' :: rest => some (readLiteral true (skipNewline rest))
  | chars => readQuoted? chars

end EventWrap.Toml
