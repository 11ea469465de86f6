import EventWrap.Text.Letter
import EventWrap.Program.Nesting

/-!
# Settings

The names that generated code uses or is recognised by, and the switches of the output.
`Settings.validate` accepts settings whose names can be written as identifiers.
-/

namespace EventWrap

/-- Names of the reactive library, as written in generated code. -/
structure ReactiveNames where
  observable : String := "global::System.IObservable"
  create : String := "global::System.Reactive.Linq.Observable.Create"
  disposableCreate : String := "global::System.Reactive.Disposables.Disposable.Create"
  unit : String := "global::System.Reactive.Unit"
  unitDefault : String := "global::System.Reactive.Unit.Default"
  deriving DecidableEq, Inhabited

structure Settings where
  /-- The namespace of the extension methods and the marker; empty for the global one. -/
  extensionsNamespace : String := "ObservableEvents"
  /-- The class that holds the extension methods. -/
  extensionsClass : String := "ObservableGeneratorExtensions"
  /-- The method whose calls ask for instance wrappers. -/
  factoryMethod : String := "Events"
  /-- The attribute class that asks for static wrappers. -/
  staticAttribute : String := "GenerateStaticEventObservablesAttribute"
  /-- Whether plain `EventArgs` count as no value. -/
  collapsePlainEventArgs : Bool := true
  emitBootstrap : Bool := true
  emitDocumentation : Bool := true
  emitNullableDirective : Bool := true
  reactive : ReactiveNames := {}
  deriving DecidableEq, Inhabited

/-- The reactive names with the fields they are configured by. -/
def ReactiveNames.fields (r : ReactiveNames) : List (String × String) :=
  [("reactive.observable", r.observable), ("reactive.create", r.create),
    ("reactive.disposable_create", r.disposableCreate), ("reactive.unit", r.unit),
    ("reactive.unit_default", r.unitDefault)]

inductive SettingsError where
  /-- The holder class and the marker attribute have one name. -/
  | sameNames
  | invalidIdentifier (field value : String)
  deriving DecidableEq, Inhabited

def SettingsError.message : SettingsError → String
  | sameNames => "Invalid configuration: extensions_class and static_attribute must differ"
  | invalidIdentifier field value => "Invalid identifier for '" ++ field ++ "': '" ++ value ++ "'"

namespace Settings

/-! ## Presets -/

/-- Nothing is collapsed, and the host declares the triggers. -/
def strict : Settings := { collapsePlainEventArgs := false, emitBootstrap := false }

/-- No documentation and no directive. -/
def minimal : Settings := { emitDocumentation := false, emitNullableDirective := false }

/-! ## Metadata names -/

def holderName (s : Settings) : String := qualify s.extensionsNamespace s.extensionsClass

def markerName (s : Settings) : String := qualify s.extensionsNamespace s.staticAttribute

/-! ## Validity -/

/-- A letter or an underscore, then letters, digits and underscores. -/
def isIdentifier : List Char → Bool
  | [] => false
  | first :: rest =>
    (first = '_' || Text.isAlphabetic first) && rest.all fun c => c = '_' || Text.isAlphanumeric c

/-- The parts of a text between dots. -/
def segments : List Char → List (List Char)
  | [] => [[]]
  | c :: rest =>
    if c = '.' then [] :: segments rest
    else match segments rest with
      | [] => [[c]]
      | first :: others => (c :: first) :: others

def isDottedName (chars : List Char) : Bool := (segments chars).all isIdentifier

/-- A name without the mark of the global namespace in front. -/
def stripGlobal (chars : List Char) : List Char :=
  match chars with
  | 'g' :: 'l' :: 'o' :: 'b' :: 'a' :: 'l' :: ':' :: ':' :: rest => rest
  | _ => chars

def requireThat (holds : Bool) (field value : String) : Except SettingsError Unit :=
  if holds then .ok () else .error (.invalidIdentifier field value)

def validate (s : Settings) : Except SettingsError Unit := do
  requireThat (s.extensionsNamespace.isEmpty || isDottedName s.extensionsNamespace.toList)
    "extensions_namespace" s.extensionsNamespace
  requireThat (isIdentifier s.extensionsClass.toList) "extensions_class" s.extensionsClass
  requireThat (isIdentifier s.factoryMethod.toList) "factory_method" s.factoryMethod
  requireThat (isIdentifier s.staticAttribute.toList) "static_attribute" s.staticAttribute
  if s.extensionsClass = s.staticAttribute then throw .sameNames
  s.reactive.fields.forM fun (field, value) =>
    requireThat (isDottedName (stripGlobal value.toList)) field value

end Settings

end EventWrap
