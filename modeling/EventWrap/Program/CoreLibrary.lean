import EventWrap.Program.Basic

/-!
# The core library

The types of the base class library that event signatures commonly mention: the built-in types,
`EventArgs` and the standard handlers, the `Action` and `Func` delegates, the task types. They
stand at fixed places, the built-in types first.
-/

namespace EventWrap.CoreLibrary

/-! ## Names -/

def system : String := "System"

def tasks : String := "System.Threading.Tasks"

def componentModel : String := "System.ComponentModel"

def taskName : String := "System.Threading.Tasks.Task"

def valueTaskName : String := "System.Threading.Tasks.ValueTask"

def eventArgsName : String := "System.EventArgs"

/-! ## Declarations -/

def places : CoreTypes where
  object := 0
  void := 1
  boolean := 2
  int32 := 8
  int64 := 10
  double := 13
  string := 15
  eventArgs := 16
  eventHandler := 17
  eventHandlerOf1 := 18
  action := 19
  actionOf1 := 20
  actionOf2 := 21
  actionOf3 := 22
  funcOf1 := 23
  task := 24
  taskOf1 := 25
  valueTask := 26
  obsoleteAttribute := 27
  propertyChangedEventArgs := 28
  propertyChangedEventHandler := 29

def object : TypeRef := .named places.object []

def void : TypeRef := .named places.void []

def builtIn (b : BuiltIn) : Declaration where
  kind := if b.isValueType then .structType else .classType
  namespaceName := system
  name := b.systemName
  builtIn := some b

/-- A class derived from another. -/
def derivedClass (namespaceName name : String) (base : TypeRef) : Declaration where
  namespaceName := namespaceName
  name := name
  base := some base

def delegate (namespaceName name : String) (typeParameters : List String) (result : TypeRef)
    (parameters : List (String × TypeRef)) : Declaration where
  kind := .delegateType
  namespaceName := namespaceName
  name := name
  typeParameters := typeParameters.map fun name => { name := name }
  invoke := some { result := result, parameters := parameters.map fun (name, type) => ⟨name, type⟩ }

/-- A handler without result for a sender and an argument. -/
def handler (namespaceName name : String) (typeParameters : List String) (argument : TypeRef) : Declaration :=
  delegate namespaceName name typeParameters void [("sender", object), ("e", argument)]

def declarations : List Declaration :=
  BuiltIn.all.map builtIn ++ [
    derivedClass system "EventArgs" object,
    handler system "EventHandler" [] (.named places.eventArgs []),
    handler system "EventHandler" ["TEventArgs"] (.parameter "TEventArgs"),
    delegate system "Action" [] void [],
    delegate system "Action" ["T"] void [("obj", .parameter "T")],
    delegate system "Action" ["T1", "T2"] void [("arg1", .parameter "T1"), ("arg2", .parameter "T2")],
    delegate system "Action" ["T1", "T2", "T3"] void
      [("arg1", .parameter "T1"), ("arg2", .parameter "T2"), ("arg3", .parameter "T3")],
    delegate system "Func" ["TResult"] (.parameter "TResult") [],
    derivedClass tasks "Task" object,
    { derivedClass tasks "Task" (.named places.task []) with typeParameters := [{ name := "TResult" }] },
    { kind := .structType, namespaceName := tasks, name := "ValueTask" },
    { derivedClass system "ObsoleteAttribute" object with isSealed := true },
    derivedClass componentModel "PropertyChangedEventArgs" (.named places.eventArgs []),
    handler componentModel "PropertyChangedEventHandler" [] (.named places.propertyChangedEventArgs [])]

end EventWrap.CoreLibrary

namespace EventWrap.Program

/-- The program that holds the core library and nothing else. -/
def withCoreLibrary : Program :=
  { CoreLibrary.declarations.foldl push {} with core := some CoreLibrary.places }

end EventWrap.Program
