import EventWrap.Command.Arguments

/-!
# Help on the command line

A page tells what a command is for, its usage and its options: on a short page one option a line,
on a long page with room between them.
-/

namespace EventWrap.Command

/-- An option as a page shows it: how it is written, what it does, the values it knows with what
each of them means, and the value that it has when it is not given. -/
structure HelpEntry where
  form : String
  text : String
  values : List (String × String) := []
  absent : Option String := none

namespace HelpEntry

def config : HelpEntry where
  form := "-c, --config <CONFIG>"
  text := "Configuration file path (rxgen.toml)"

def format : HelpEntry where
  form := "-f, --format <FORMAT>"
  text := "Output format"
  values := [("human", "Human-readable output"), ("json", "JSON output"), ("json-compact", "Compact JSON (single line)")]
  absent := some "human"

def verbose : HelpEntry := { form := "-v, --verbose...", text := "Verbosity level (-v, -vv, -vvv)" }

def quiet : HelpEntry := { form := "-q, --quiet", text := "Quiet mode (suppress non-essential output)" }

def out : HelpEntry where
  form := "-o, --out <OUT>"
  text := "Directory the generated sources are written to"
  absent := some "generated"

def noTriggers : HelpEntry where
  form := "    --no-bootstrap"
  text := "Do not emit the holder class and marker attribute declarations"

def keepEventArgs : HelpEntry where
  form := "    --keep-event-args"
  text := "Keep `(sender, EventArgs)` events as streams of EventArgs"

def noDocs : HelpEntry := { form := "    --no-docs", text := "Omit XML documentation comments" }

def typeName : HelpEntry where
  form := "-t, --type <TYPE_NAME>"
  text := "Only show the type with this name (simple or namespace-qualified)"

def strict : HelpEntry := { form := "    --strict", text := "Treat warnings as errors" }

def help (long : Bool) : HelpEntry where
  form := "-h, --help"
  text := if long then "Print help (see a summary with '-h')" else "Print help (see more with '--help')"

def version : HelpEntry := { form := "-V, --version", text := "Print version" }

/-- A text filled up with blanks to a width. -/
def padded (width : Nat) (text : String) : String :=
  text ++ String.ofList (List.replicate (width - text.length) ' ')

/-- The width of the longest text. -/
def widest (texts : List String) : Nat := (texts.map (·.length)).foldl max 0

def absentNote (e : HelpEntry) : String :=
  match e.absent with
  | some value => "[default: " ++ value ++ "]"
  | none => ""

/-- The start of a line below the form of an option. -/
def newLine : String := "\n          "

/-- What an option does, then its values one a line, then its default as a paragraph of its own. -/
def longText (e : HelpEntry) : String :=
  let width := widest (e.values.map (·.1))
  let values := e.values.map fun (value, meaning) => newLine ++ "- " ++ padded (width + 2) (value ++ ":") ++ meaning
  "  " ++ e.form ++ newLine ++ e.text ++
    (if values.isEmpty then "" else "\n" ++ newLine ++ "Possible values:" ++ String.join values) ++
    (if e.absent.isSome then newLine ++ newLine ++ e.absentNote else "") ++ "\n"

def shortText (width : Nat) (e : HelpEntry) : String :=
  "  " ++ padded width e.form ++ "  " ++ e.text ++
    (if e.absent.isSome then " " ++ e.absentNote else "") ++
    (if e.values.isEmpty then "" else " [possible values: " ++ ", ".intercalate (e.values.map (·.1)) ++ "]") ++ "\n"

end HelpEntry

open HelpEntry

namespace Scope

def about : Scope → String
  | .top => "Command-line interface for the rxgen observable event generator"
  | .generate => "Generate wrapper sources for a program model"
  | .inspect => "Show the requested types and the events they expose"
  | .validate => "Check that a program model can be generated from"

def usage : Scope → String
  | .top => "rxgen [OPTIONS] <COMMAND>"
  | .generate => "rxgen generate [OPTIONS] <MODEL>"
  | .inspect => "rxgen inspect [OPTIONS] <MODEL>"
  | .validate => "rxgen validate [OPTIONS] <MODEL>"

def entries (long : Bool) : Scope → List HelpEntry
  | .top => [config, format, verbose, quiet, help long, version]
  | .generate => [out, noTriggers, keepEventArgs, config, noDocs, format, verbose, quiet, help long]
  | .inspect => [typeName, config, format, verbose, quiet, help long]
  | .validate => [strict, config, format, verbose, quiet, help long]

/-- The commands, or the argument of one. -/
def operandText (long : Bool) : Scope → String
  | .top =>
    "Commands:\n" ++ String.join (Scope.words.map fun (name, scope) => "  " ++ padded 8 name ++ "  " ++ scope.about ++ "\n") ++
      "  help      Print this message or the help of the given subcommand(s)\n"
  | _ =>
    if long then "Arguments:\n  <MODEL>\n          Path to the program model document (JSON)\n"
    else "Arguments:\n  <MODEL>  Path to the program model document (JSON)\n"

def optionsText (long : Bool) (scope : Scope) : String :=
  let entries := scope.entries long
  if long then "\n".intercalate (entries.map (·.longText))
  else
    String.join (entries.map (·.shortText (widest (entries.map (·.form)))))

def helpText (long : Bool) (scope : Scope) : String :=
  scope.about ++ "\n\nUsage: " ++ scope.usage ++ "\n\n" ++ scope.operandText long ++ "\nOptions:\n" ++ scope.optionsText long

end Scope

/-- The page of the command `help` itself. -/
def helpOfHelp : String :=
  "Print this message or the help of the given subcommand(s)\n\nUsage: rxgen help [COMMAND]...\n\n" ++
    "Arguments:\n  [COMMAND]...  Print help for the subcommand(s)\n"

end EventWrap.Command
