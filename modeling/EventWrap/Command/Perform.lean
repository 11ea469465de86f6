import EventWrap.Command.Validation
import EventWrap.Document.Codec
import EventWrap.Files.Basic
import EventWrap.Host.Directory
import EventWrap.Json.Writer
import EventWrap.Settings.Codec
import EventWrap.Toml.Reader

/-!
# Commands

What a command line does with the files around it: texts for the two outputs, an exit code, and
the state of the files after it. A failure is told as a chain of causes, the outermost first.
-/

namespace EventWrap.Command

/-- What a run is told from outside: a name for its pass, and the times that it took. -/
structure Stamp where
  passId : String
  totalTime : Duration := {}
  discoveryTime : Duration := {}

structure Outcome where
  code : Nat := 0
  output : String := ""
  errors : String := ""
  deriving DecidableEq, Inhabited

/-- Why a command failed, the outermost cause first. -/
abbrev Failure := List String

/-- The result of a part of a command. -/
abbrev Attempt (α : Type) := Except Failure α

variable {σ : Type} (fs : FileSystem σ) (disk : σ)

/-! ## Settings -/

def defaultConfig : String := "rxgen.toml"

def readSettings (path : String) : Attempt Settings :=
  match fs.read path disk with
  | .error fault => .error ["Failed to read config file " ++ path, fault.message]
  | .ok text => match (Toml.parse? text).bind Settings.ofJson? with
    | some s => .ok s
    | none => .error ["Failed to parse config file " ++ path, "not a settings file"]

/-- The settings of a given file, of the default file when it is there, or the default ones. -/
def loadSettings (config : Option String) : Attempt Settings := do
  let s ← match config with
    | some path => readSettings fs disk path
    | none => if fs.isFile defaultConfig disk then readSettings fs disk defaultConfig else .ok {}
  match s.validate with
  | .ok () => return s
  | .error e => throw ["Invalid configuration", e.message]

/-! ## Programs -/

def generatorOf (s : Settings) : Attempt Generator :=
  match Generator.ofSettings s with
  | .ok g => .ok g
  | .error e => .error ["Failed to create generator", e.message, e.cause]

/-- The document of a file. -/
def readDocument (path : String) : Except LoadError Document :=
  match fs.read path disk with
  | .error fault => .error (.unreadable fault.message)
  | .ok text => match Document.parse? text with
    | some d => .ok d
    | none => .error (.malformed "not a program document")

def loadProgram (g : Generator) (path : String) : Except LoadError Program := do
  g.load (← readDocument fs disk path)

/-- A failure to load a program with all its causes. -/
def loadFailure (path : String) (e : LoadError) : Failure :=
  ["Failed to load model " ++ path, (GeneratorError.model e).message, e.message] ++ match e with
    | .unreadable cause | .malformed cause => [cause]
    | _ => []

/-! ## Output -/

/-- Text for readers, or JSON, as the format says. -/
def display (format : OutputFormat) (text : String) (j : Json) : String :=
  match format with
  | .human => text
  | .json => j.pretty ++ "\n"
  | .jsonCompact => j.compact ++ "\n"

/-- The outcome of a failure, on which a quiet command says nothing. -/
def Failure.outcome (quiet : Bool) (f : Failure) : Outcome :=
  { code := 1, errors := if quiet then "" else "Error: " ++ ": ".intercalate f ++ "\n" }

/-! ## Commands -/

/-- What is told of a pass that wrote so many files. -/
def reportText (stamp : Stamp) (a : Arguments) (out : String) (report : PassReport) (written : Nat) : String :=
  match a.format with
  | .human =>
    if a.quiet then "" else
      report.toText stamp.passId ++ "\nWrote " ++ toString written ++ " files to " ++ out ++ "\n"
  | .json => (report.toJson stamp.passId).pretty ++ "\n"
  | .jsonCompact => (report.toJsonValue stamp.passId).compact ++ "\n"

/-- A generator with the program that it is to run on. -/
def prepare (s : Settings) (model : String) : Attempt (Generator × Program) := do
  let g ← generatorOf s
  return (g, ← (loadProgram fs disk g model).mapError (loadFailure model))

def generate (stamp : Stamp) (a : Arguments) (s : Settings) (out : String) : Attempt Outcome × σ :=
  match prepare fs disk s a.model with
  | .error f => (.error f, disk)
  | .ok (g, p) =>
    let result := g.run (DirectoryHost.host fs) p { root := out, disk := disk }
    let told := match result.outcome with
      | .error e => .error ["Generation failed", e.message]
      | .ok report =>
        let report := report.withTimes stamp.totalTime stamp.discoveryTime
        .ok { output := reportText stamp a out report result.host.written.length }
    (told, result.host.disk)

def inspect (a : Arguments) (s : Settings) (typeName : Option String) : Attempt Outcome := do
  let (g, p) ← prepare fs disk s a.model
  match p.inspect g.settings a.model typeName with
  | .error e => throw ["Failed to discover requests", e.message]
  | .ok i => match i.requests, typeName with
    | [], some name => throw ["Type '" ++ name ++ "' is not requested by the model"]
    | _, _ => return { output := display a.format i.toText i.toJson }

def validate (a : Arguments) (s : Settings) (strict : Bool) : Attempt Outcome := do
  let g ← generatorOf s
  let v := match loadProgram fs disk g a.model with
    | .ok p => p.validate g.settings a.model
    | .error e => Validation.ofError a.model (GeneratorError.model e).message
  let v := v.judged strict
  let output := display a.format v.toText v.toJson
  if v.isValid then return { output := output }
  else return { Failure.outcome a.quiet ["Validation failed"] with output := output }

def perform (stamp : Stamp) (a : Arguments) : Attempt Outcome × σ :=
  match loadSettings fs disk a.config with
  | .error f => (.error f, disk)
  | .ok s => match a.action with
    | .generate out noTriggers keepEventArgs noDocs =>
      generate fs disk stamp a
        { s with
          emitBootstrap := s.emitBootstrap && !noTriggers
          collapsePlainEventArgs := s.collapsePlainEventArgs && !keepEventArgs
          emitDocumentation := s.emitDocumentation && !noDocs } out
    | .inspect typeName => (inspect fs disk a s typeName, disk)
    | .validate strict => (validate fs disk a s strict, disk)

def versionText : String := "rxgen 0.1.1\n"

def misuseText : String := "error: the arguments fit no usage\n\nFor more information, try '--help'.\n"

/-- What a command line comes to, and the state of the files after it. -/
def run (stamp : Stamp) (arguments : List String) : Outcome × σ :=
  match Invocation.ofList arguments with
  | .misuse => ({ code := 2, errors := misuseText }, disk)
  | .version => ({ output := versionText }, disk)
  | .help scope long => ({ output := scope.helpText long }, disk)
  | .helpOfHelp => ({ output := helpOfHelp }, disk)
  | .perform a => match perform fs disk stamp a with
    | (.ok outcome, disk) => (outcome, disk)
    | (.error f, disk) => (f.outcome a.quiet, disk)

end EventWrap.Command
