/-!
# Arguments of the command line

Arguments are read from left to right. Options that hold for every command may stand before or
after its name; where both places give one, the later place counts. An option with a value is given
at most once at each place, and its value starts with a dash only when it is attached. A call for
help or for the version is answered as soon as it is met.
-/

namespace EventWrap.Command

inductive OutputFormat where
  | human | json | jsonCompact
  deriving DecidableEq, Inhabited

/-- The formats by name. -/
def OutputFormat.words : List (String × OutputFormat) :=
  [("human", .human), ("json", .json), ("json-compact", .jsonCompact)]

inductive Action where
  | generate (out : String) (noTriggers keepEventArgs noDocs : Bool)
  | inspect (typeName : Option String)
  | validate (strict : Bool)
  deriving DecidableEq, Inhabited

structure Arguments where
  action : Action
  model : String
  config : Option String := none
  format : OutputFormat := .human
  verbosity : Nat := 0
  quiet : Bool := false
  deriving DecidableEq, Inhabited

/-- A place on the command line: before the name of a command, or after it. -/
inductive Scope where
  | top | generate | inspect | validate
  deriving DecidableEq, Inhabited

/-- The commands by name. -/
def Scope.words : List (String × Scope) :=
  [("generate", .generate), ("inspect", .inspect), ("validate", .validate)]

/-- What a command line asks for. -/
inductive Invocation where
  | perform (a : Arguments)
  | version
  | help (scope : Scope) (long : Bool)
  | helpOfHelp
  /-- The arguments do not fit any usage. -/
  | misuse
  deriving DecidableEq, Inhabited

/-! ## Options -/

inductive Opt where
  | config | format | verbose | quiet | help | version
  | out | noTriggers | keepEventArgs | noDocs | typeName | strict
  deriving DecidableEq, Inhabited

def Opt.takesValue : Opt → Bool
  | .config | .format | .out | .typeName => true
  | _ => false

structure OptName where
  opt : Opt
  short : Option Char
  long : String

/-- The options that hold for every command. -/
def commonOptions : List OptName :=
  [⟨.config, some 'c', "config"⟩, ⟨.format, some 'f', "format"⟩, ⟨.verbose, some 'v', "verbose"⟩,
    ⟨.quiet, some 'q', "quiet"⟩, ⟨.help, some 'h', "help"⟩]

namespace Scope

def options : Scope → List OptName
  | .top => commonOptions ++ [⟨.version, some 'V', "version"⟩]
  | .generate => commonOptions ++ [⟨.out, some 'o', "out"⟩, ⟨.noTriggers, none, "no-bootstrap"⟩,
      ⟨.keepEventArgs, none, "keep-event-args"⟩, ⟨.noDocs, none, "no-docs"⟩]
  | .inspect => commonOptions ++ [⟨.typeName, some 't', "type"⟩]
  | .validate => commonOptions ++ [⟨.strict, none, "strict"⟩]

def short? (scope : Scope) (letter : Char) : Option Opt :=
  (scope.options.find? (·.short == some letter)).map (·.opt)

def long? (scope : Scope) (word : List Char) : Option Opt :=
  (scope.options.find? fun o => o.long.toList == word).map (·.opt)

end Scope

/-! ## What is given at one place -/

structure Given where
  config : Option String := none
  format : Option OutputFormat := none
  verbosity : Option Nat := none
  quiet : Bool := false
  out : Option String := none
  noTriggers : Bool := false
  keepEventArgs : Bool := false
  noDocs : Bool := false
  typeName : Option String := none
  strict : Bool := false
  model : Option String := none
  deriving DecidableEq, Inhabited

namespace Given

/-- A value given for the first time. -/
def once {α : Type} (old : Option α) (new : α) : Option α := if old.isSome then none else some new

/-- A path, which is not empty. -/
def path (value : String) : Option String := if value.isEmpty then none else some value

/-- Takes an option with its value. -/
def withValue (g : Given) (opt : Opt) (value : String) : Option Given :=
  match opt with
  | .config => do return { g with config := some (← once g.config (← path value)) }
  | .format => do return { g with format := some (← once g.format (← OutputFormat.words.lookup value)) }
  | .out => do return { g with out := some (← once g.out (← path value)) }
  | .typeName => do return { g with typeName := some (← once g.typeName value) }
  | _ => none

/-- Takes an option without a value. Only the verbosity may be raised again. -/
def withFlag (g : Given) : Opt → Option Given
  | .verbose => some { g with verbosity := some (g.verbosity.getD 0 + 1) }
  | .quiet => if g.quiet then none else some { g with quiet := true }
  | .noTriggers => if g.noTriggers then none else some { g with noTriggers := true }
  | .keepEventArgs => if g.keepEventArgs then none else some { g with keepEventArgs := true }
  | .noDocs => if g.noDocs then none else some { g with noDocs := true }
  | .strict => if g.strict then none else some { g with strict := true }
  | _ => none

def withModel (g : Given) (value : String) : Option Given := do
  return { g with model := some (← once g.model (← path value)) }

def action? (g : Given) : Scope → Option Action
  | .top => none
  | .generate => some (.generate (g.out.getD "generated") g.noTriggers g.keepEventArgs g.noDocs)
  | .inspect => some (.inspect g.typeName)
  | .validate => some (.validate g.strict)

end Given

/-! ## Reading arguments -/

/-- What was read: the place, what was given before the name of the command, and at this place. -/
structure Reading where
  scope : Scope := .top
  before : Given := {}
  here : Given := {}
  deriving DecidableEq, Inhabited

namespace Reading

/-- The end of the arguments. -/
def finish (r : Reading) : Invocation :=
  match r.here.action? r.scope, r.here.model with
  | some action, some model =>
    .perform {
      action := action
      model := model
      config := r.here.config <|> r.before.config
      format := (r.here.format <|> r.before.format).getD .human
      verbosity := (r.here.verbosity <|> r.before.verbosity).getD 0
      quiet := r.here.quiet || r.before.quiet }
  | _, _ => .misuse

/-- What reading an argument leads to. -/
inductive Step where
  | continue (r : Reading)
  /-- The next argument is to be the value of an option. -/
  | awaiting (r : Reading) (opt : Opt)
  | stop (i : Invocation)

def continueWith (r : Reading) : Option Given → Step
  | some here => .continue { r with here := here }
  | none => .stop .misuse

/-- An option that stands without a value. -/
def flag (r : Reading) (opt : Opt) (long : Bool) : Step :=
  match opt with
  | .help => .stop (.help r.scope long)
  | .version => .stop .version
  | _ => r.continueWith (r.here.withFlag opt)

def value (r : Reading) (opt : Opt) (text : String) : Step := r.continueWith (r.here.withValue opt text)

/-- The word of a long option, and the value attached to it. -/
def splitAttached (chars : List Char) : List Char × Option String :=
  let word := chars.takeWhile (· ≠ '=')
  match chars.dropWhile (· ≠ '=') with
  | _ :: attached => (word, some (String.ofList attached))
  | [] => (word, none)

def longOption (r : Reading) (chars : List Char) : Step :=
  let (word, attached) := splitAttached chars
  match r.scope.long? word, attached with
  | some opt, none => if opt.takesValue then .awaiting r opt else r.flag opt true
  | some opt, some text => if opt.takesValue then r.value opt text else .stop .misuse
  | none, _ => .stop .misuse

/-- Letters behind one dash. What follows the letter of an option with a value is its value. -/
def shortOptions (r : Reading) : List Char → Step
  | [] => .continue r
  | letter :: rest =>
    match r.scope.short? letter with
    | none => .stop .misuse
    | some opt =>
      if opt.takesValue then
        match rest with
        | [] => .awaiting r opt
        | '=' :: attached => r.value opt (String.ofList attached)
        | attached => r.value opt (String.ofList attached)
      else match r.flag opt false with
        | .continue r => shortOptions r rest
        | other => other

def positional (r : Reading) (text : String) : Step :=
  match r.scope with
  | .top => match Scope.words.lookup text with
    | some scope => .continue { scope := scope, before := r.here }
    | none => .stop .misuse
  | _ => r.continueWith (r.here.withModel text)

def argument (r : Reading) (text : String) : Step :=
  match text.toList with
  | '-' :: '-' :: word => r.longOption word
  | '-' :: letter :: letters => r.shortOptions (letter :: letters)
  | _ => r.positional text

/-- Arguments after two dashes stand for themselves, and name no command. -/
def operands (r : Reading) : List String → Invocation
  | [] => r.finish
  | text :: rest =>
    if r.scope = .top then .misuse
    else match r.here.withModel text with
      | some here => operands { r with here := here } rest
      | none => .misuse

/-- The command `help`, with the name of another one or without. -/
def helpCommand : List String → Invocation
  | [] => .help .top true
  | [name] => match Scope.words.lookup name with
    | some scope => .help scope true
    | none => if name = "help" then .helpOfHelp else .misuse
  | _ => .misuse

/-- Whether a text can stand for itself after an option that awaits a value. -/
def isValue (text : String) : Bool :=
  match text.toList with
  | '-' :: _ :: _ => false
  | _ => true

/-- What a call comes to whose common options hold a fault: it asks for nothing but help. -/
def faulty : Invocation → Invocation
  | .perform _ => .misuse
  | other => other

/-- Reads arguments. A value that stands apart from its option is looked at with the argument after
it, but the name of a command comes first: its arguments are read before the fault is found. -/
def readFrom (r : Reading) : List String → Invocation
  | [] => r.finish
  | text :: rest =>
    if text = "--" then r.operands rest
    else if text = "help" ∧ r.scope = .top then helpCommand rest
    else match r.argument text with
      | .continue r => readFrom r rest
      | .stop i => i
      | .awaiting r opt => match rest with
        | [] => .misuse
        | next :: rest =>
          if isValue next then
            match r.value opt next, rest with
            | .continue r, rest => readFrom r rest
            | _, [] => .misuse
            | _, name :: rest =>
              if r.scope ≠ .top then .misuse
              else if name = "help" then helpCommand rest
              else match Scope.words.lookup name with
                | some scope => faulty (readFrom { scope := scope, before := r.here } rest)
                | none => .misuse
          else .misuse

end Reading

def Invocation.ofList (arguments : List String) : Invocation := Reading.readFrom {} arguments

end EventWrap.Command
