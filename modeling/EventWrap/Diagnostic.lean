import EventWrap.Location

/-!
# Diagnostics

What is reported about a program. A kind of diagnostic has a message with placeholders `{0}`,
`{1}`, …, and a diagnostic is made from a kind, a place and the arguments for them.
-/

namespace EventWrap

inductive Severity where
  | info | warning | error
  deriving DecidableEq, Inhabited

def Severity.word : Severity → String
  | .info => "info"
  | .warning => "warning"
  | .error => "error"

structure DiagnosticKind where
  id : String
  title : String
  messageFormat : String
  category : String
  severity : Severity
  deriving DecidableEq, Inhabited

namespace DiagnosticKind

/-- A requested type has no eligible events. -/
def eventsNotFound : DiagnosticKind where
  id := "RXGEN001"
  title := "Events not found"
  messageFormat := "Type '\x7b0\x7d' does not have any public \x7b1\x7d events to wrap"
  category := "Compiler"
  severity := .warning

/-- A type could not be worked on. -/
def generationFailed : DiagnosticKind where
  id := "RXGEN002"
  title := "Generation failed"
  messageFormat := "Failed to generate event observables for '\x7b0\x7d': \x7b1\x7d"
  category := "Compiler"
  severity := .warning

/-- A unit was not added to the compilation. -/
def outputConflict : DiagnosticKind where
  id := "RXGEN003"
  title := "Generated output conflict"
  messageFormat := "Generated output for '\x7b0\x7d' was not added: \x7b1\x7d"
  category := "Compiler"
  severity := .warning

end DiagnosticKind

structure Diagnostic where
  id : String := ""
  severity : Severity := .warning
  message : String := ""
  location : Location := {}
  category : String := ""
  deriving DecidableEq, Inhabited

namespace Diagnostic

/-- What is left of a text after a word that it starts with. -/
def dropWord? : List Char → List Char → Option (List Char)
  | [], rest => some rest
  | _ :: _, [] => none
  | w :: word, c :: rest => if w = c then dropWord? word rest else none

/-- Every occurrence of a word, from left to right, replaced. `skip` characters of an occurrence
are still to be passed over. -/
def replaceFrom (word replacement : List Char) : Nat → List Char → List Char
  | _, [] => []
  | skip + 1, _ :: rest => replaceFrom word replacement skip rest
  | 0, c :: rest =>
    if (dropWord? word (c :: rest)).isSome then
      replacement ++ replaceFrom word replacement (word.length - 1) rest
    else c :: replaceFrom word replacement 0 rest

def placeholder (index : Nat) : List Char := '\x7b' :: (Nat.toDigits 10 index ++ ['\x7d'])

/-- The placeholders from `index` on are filled one after the other, each in all that the ones
before it have made. -/
def fillFrom (index : Nat) (message : List Char) : List String → List Char
  | [] => message
  | argument :: rest => fillFrom (index + 1) (replaceFrom (placeholder index) argument.toList 0 message) rest

def ofKind (kind : DiagnosticKind) (location : Location) (arguments : List String) : Diagnostic where
  id := kind.id
  severity := kind.severity
  message := String.ofList (fillFrom 0 kind.messageFormat.toList arguments)
  location := location
  category := kind.category

def toText (d : Diagnostic) : String :=
  d.location.toText ++ ": " ++ d.severity.word ++ " " ++ d.id ++ ": " ++ d.message

end Diagnostic

end EventWrap
