import EventWrap.Pass.Run

/-!
# Generators

A generator is made of valid settings. It loads documents into programs that hold the core library
and the triggers, and runs passes over programs.
-/

namespace EventWrap

inductive GeneratorError where
  | model (e : LoadError)
  | generation (e : PassError)
  | settings (e : SettingsError)
  deriving DecidableEq, Inhabited

namespace GeneratorError

/-- What lies behind the error, as it is worded by itself. -/
def cause : GeneratorError → String
  | model e => e.message
  | generation e => e.message
  | settings e => e.message

def message : GeneratorError → String
  | model e => "Model error: " ++ e.message
  | generation e => "Generation error: " ++ e.message
  | settings e => "Configuration error: " ++ e.message

end GeneratorError

structure Generator where
  settings : Settings
  isValid : settings.validate = .ok ()

namespace Generator

def ofSettings (s : Settings) : Except GeneratorError Generator :=
  match h : s.validate with
  | .ok () => .ok ⟨s, h⟩
  | .error e => .error (.settings e)

/-- The program of a document, on top of the core library and the triggers. -/
def load (g : Generator) (d : Document) : Except LoadError Program :=
  let loading : Loading Unit := do
    let _ ← Loading.installTriggers g.settings
    Loading.loadDocument d
  match loading Program.withCoreLibrary with
  | .ok _ p => .ok p
  | .error e _ => .error e

def discover (g : Generator) (p : Program) : Except PassError Requests := p.discover g.settings

def input (g : Generator) (p : Program) : PassInput := p.pass g.settings

def run {σ : Type} (g : Generator) (h : Host σ) (p : Program) (start : σ) : PassResult σ := (g.input p).run h start

end Generator

end EventWrap
