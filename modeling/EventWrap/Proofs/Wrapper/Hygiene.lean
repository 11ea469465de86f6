import EventWrap.Proofs.Code.Binding
import EventWrap.Proofs.Wrapper.Element

/-!
# Names in handlers

The names of the observer and of the handler are the first free ones: the preferred name, or with
the smallest number behind it that no parameter is called. So every name in a subscription stands
for what it was meant for, whatever the parameters are called: the observer for the parameter of the
lambda, the handler for the local function, and what is forwarded for parameters of the handler.
-/

namespace EventWrap

open Code

/-- No name is read as a free name that is not written as it. -/
theorem identifier_escape_ne_freeName {base name : String} {taken : List String}
    (hname : name.toList.head? ≠ some '@') (hwritten : escape name ≠ freeName base taken)
    (hbase : ∀ word ∈ reservedWords, ¬ base.toList <+: word.toList) :
    identifier (escape name) ≠ freeName base taken := by
  rw [identifier_escape hname]
  intro heq
  have hreserved : isReserved name = false := by
    rw [heq]
    exact Bool.eq_false_iff.2 fun h => ne_freeName (hbase _ (List.contains_iff_mem.1 h)) rfl
  exact hwritten (by rw [escape, hreserved, heq]; rfl)

/-! ## What names stand for -/

namespace Code

def Expr.name? : Expr → Option String
  | .name text => some text
  | _ => none

/-- What a method is called on, with the arguments of the call. -/
def Expr.call? (method : String) : Expr → Option (Expr × List Expr)
  | .call (.member target called) _ arguments =>
    if called = method then some (target, arguments) else none
  | _ => none

/-- Nothing is found in names, in what only puts names together, and in calls of named functions. -/
structure PassesOver {α : Type} (f : Expr → Option α) : Prop where
  name : ∀ text, f (.name text) = none
  member : ∀ target name, f (.member target name) = none
  tuple : ∀ items, f (.tuple items) = none
  lambda : ∀ parameters body, f (.lambda parameters body) = none
  call : ∀ text types arguments, f (.call (.name text) types arguments) = none

theorem passesOver_call? (method : String) : PassesOver (Expr.call? method) :=
  ⟨fun _ => rfl, fun _ _ => rfl, fun _ => rfl, fun _ _ => rfl, fun _ _ _ => rfl⟩

theorem passesOver_sides? (op : AssignOp) : PassesOver (Expr.sides? op) :=
  ⟨fun _ => rfl, fun _ _ => rfl, fun _ => rfl, fun _ _ => rfl, fun _ _ _ => rfl⟩

theorem placesOfAll_names (scope : Scope) (texts : List String) :
    placesOfAll scope (texts.map .name) = texts.map fun text => (scope, .name text) := by
  induction texts with
  | nil => rfl
  | cons text rest ih => rw [List.map_cons, placesOfAll, ih]; rfl

namespace Subscription

variable (read : String → String) (names : ReactiveNames) (access : Expr) (x : Subscription)

/-- The handler as the getter declares it. -/
def declaration : Statement :=
  .localFunction x.handlerResult x.handler x.handlerFormals x.handlerBody

/-- The names that the getter declares outside of its handler. -/
def scope : Scope :=
  [(x.handler, .localFunction x.declaration), (x.observer, .lambdaParameter x.observer)]

/-- The only assignment of a kind gives the event the handler that the getter declares. The way to
the event is not hidden by what the getter declares. -/
def GivesHandler (op : AssignOp) : Prop :=
  ∃ scope : Scope,
    (x.getter names access).foundIn (Expr.sides? op) [] = [(scope, access, .name x.handler)] ∧
    scope.resolve read x.handler = some (.localFunction x.declaration) ∧
    ∀ use ∈ access.foundIn Expr.name? scope, use.1.resolve read use.2 = none

/-- Every name stands for what it is meant for, when names are compared as they are read: the only
call of the observer is one of the lambda's parameter, it hands on the unit or what is made of
parameters of the handler, and what is added and removed is the local function. -/
structure Hygienic : Prop where
  forwards : ∃ (scope : Scope) (value : Expr),
    (x.getter names access).foundIn (Expr.call? "OnNext") [] =
      [(scope, .name x.observer, [value])] ∧
    scope.resolve read x.observer = some (.lambdaParameter x.observer) ∧
    (value = .name names.unitDefault ∨
      ∀ use ∈ value.foundIn Expr.name? scope, ∃ q ∈ x.handlerFormals,
        read q.name = read use.2 ∧ use.1.resolve read use.2 = some (.formalParameter q))
  adds : x.GivesHandler read names access .add
  removes : x.GivesHandler read names access .subtract

variable {names access x}

theorem foundIn_getter {α : Type} {f : Expr → Option α} (hf : PassesOver f) :
    (x.getter names access).foundIn f [] =
      x.handlerBody.foundIn f (formalScope x.handlerFormals ++ x.scope) ++
        ((Expr.assign access .add (.name x.handler)).foundIn f x.scope ++
          x.ending.foundIn f x.scope) := by
  cases hassign : f (.assign access .add (.name x.handler)) <;>
    simp [getter, Expr.foundIn, Body.foundIn, Expr.places, placesOfAll, Body.places,
      placesOfStatements, Statement.places, blockScope, lambdaScope, scope, declaration, hf.name,
      hf.call, hf.lambda, hassign]

end Subscription

end Code

/-! ## Handlers -/

/-- What is forwarded is the unit, or names parameters only, all in the scope around. -/
theorem HasWrittenType.names_formals {names : ReactiveNames} {formals : List Formal} {value : Expr}
    {type : String} (h : HasWrittenType names formals value type) (scope : Scope) :
    value = .name names.unitDefault ∨
      ∀ use ∈ value.foundIn Expr.name? scope, use.1 = scope ∧ ∃ q ∈ formals, q.name = use.2 := by
  cases h with
  | unit => exact .inl rfl
  | @formal q taken =>
    refine .inr fun use huse => ?_
    obtain rfl := List.mem_singleton.1 huse
    exact ⟨rfl, q, taken, rfl⟩
  | tuple =>
    refine .inr fun use huse => ?_
    have hitems : (formals.map fun q => Expr.name q.name) =
        (formals.map (·.name)).map Expr.name := by rw [List.map_map]; rfl
    rw [hitems, Expr.foundIn, Expr.places, placesOfAll_names] at huse
    simp only [Expr.name?, List.filterMap_cons, Option.map_none, List.filterMap_map,
      List.mem_filterMap, Function.comp_apply, Option.map_some, Option.some.injEq] at huse
    obtain ⟨q, hq, rfl⟩ := huse
    exact ⟨rfl, q, hq, rfl⟩

namespace Program

theorem foundIn_handlerBody {α : Type} {f : Expr → Option α} (hf : PassesOver f) (scope : Scope)
    (kind : ReturnKind) (forward : Expr) :
    (handlerBody kind forward).foundIn f scope = forward.foundIn f scope := by
  cases kind <;>
    simp [handlerBody, Body.foundIn, Expr.foundIn, Body.places, placesOfStatements,
      Statement.places, Expr.places, blockScope, hf.name]

variable (p : Program) (s : Settings) (e : EventDescriptor)

/-- Where events are reached from is called neither like an observer nor like a handler. -/
theorem exists_eventTarget (t : TypeId) (mode : WrapperMode) :
    ∃ object, p.eventTarget t mode = .name object ∧ object.toList.head? ≠ some '@' ∧
      ∀ base ∈ ["obs", "Handler"], ¬ base.toList <+: object.toList := by
  cases mode with
  | ofInstance => exact ⟨"_data", rfl, by decide, by decide⟩
  | ofStatics =>
    refine ⟨p.definitionText t, rfl, ?_⟩
    rw [definitionText, typeText]
    split
    · next b _ => cases b <;> decide
    · simp [namedText, String.toList_append]

section Hygienic

variable {object member : String}

theorem foundIn_forward {α : Type} {f : Expr → Option α} (hf : PassesOver f) (scope : Scope)
    (observer : String) (names : ReactiveNames) (forwarding : Forwarding) :
    let forward : Expr :=
      .call (.member (.name observer) "OnNext") [] [forwardedValue names forwarding]
    forward.foundIn f scope = ((f forward).map (scope, ·)).toList := by
  refine Expr.foundIn_of_found f scope ?_
  have hvalue := found_forwardedValue names forwarding hf.name hf.tuple
  simp [hf.name, hf.member, hvalue]

theorem foundIn_assign {α : Type} {f : Expr → Option α} (hf : PassesOver f) (scope : Scope)
    (op : AssignOp) (handler : String) :
    let assign : Expr := .assign (.member (.name object) member) op (.name handler)
    assign.foundIn f scope = ((f assign).map (scope, ·)).toList := by
  refine Expr.foundIn_of_found f scope ?_
  simp [hf.name, hf.member]

variable {p s e}

/-- What a subscription is made of is found in the handler, where the event is given the handler and
where it is taken from the event again. -/
theorem foundIn_subscription {α : Type} {f : Expr → Option α} (hf : PassesOver f) {access : Expr}
    (haccess : access = .member (.name object) member) :
    let x := p.subscriptionOf s access e
    (x.getter s.reactive access).foundIn f [] =
      ((f (.call (.member (.name x.observer) "OnNext") []
        [forwardedValue s.reactive
          (p.classify e.signature s.collapsePlainEventArgs).forwarding])).map
          (formalScope x.handlerFormals ++ x.scope, ·)).toList ++
      (((f (.assign access .add (.name x.handler))).map (x.scope, ·)).toList ++
        ((f (.assign access .subtract (.name x.handler))).map (x.scope, ·)).toList) := by
  intro x
  subst haccess
  have hending : x.ending.foundIn f x.scope =
      (Expr.assign (.member (.name object) member) .subtract (.name x.handler)).foundIn f x.scope :=
    rfl
  rw [Subscription.foundIn_getter hf, hending, foundIn_assign hf, foundIn_assign hf,
    ← foundIn_forward hf]
  congr 1
  exact foundIn_handlerBody hf ..

/-- It is enough that the observer, the handler and the parameters are read differently, and that
the way to the event is read as neither the observer nor the handler. -/
theorem hygienic_subscriptionOf {read : String → String} {access : Expr}
    (haccess : access = .member (.name object) member) :
    let x := p.subscriptionOf s access e
    read x.observer ≠ read x.handler → (∀ q ∈ x.handlerFormals, read q.name ≠ read x.observer) →
      read object ≠ read x.observer → read object ≠ read x.handler →
      x.Hygienic read s.reactive access := by
  intro x hne hformals hobserver hhandler
  have hgives : ∀ op, (x.getter s.reactive access).foundIn (Expr.sides? op) [] =
      [(x.scope, access, .name x.handler)] → x.GivesHandler read s.reactive access op := by
    intro op hfound
    refine ⟨x.scope, hfound, by simp [Subscription.scope, Scope.resolve], ?_⟩
    intro use huse
    rw [haccess] at huse
    obtain rfl := List.mem_singleton.1 huse
    refine Scope.resolve_eq_none_iff.2 ?_
    simpa [Subscription.scope] using ⟨hhandler.symm, hobserver.symm⟩
  constructor
  · refine ⟨formalScope x.handlerFormals ++ x.scope, forwardedValue s.reactive
      (p.classify e.signature s.collapsePlainEventArgs).forwarding, ?_, ?_, ?_⟩
    · rw [foundIn_subscription (passesOver_call? "OnNext") haccess]
      simp [Expr.call?, x]
    · have hnone : (formalScope x.handlerFormals).resolve read x.observer = none := by
        refine Scope.resolve_eq_none_iff.2 ?_
        simpa [formalScope] using hformals
      rw [Scope.resolve_append, hnone, Option.none_or]
      simp [Subscription.scope, Scope.resolve, hne.symm]
    · have hvalue := hasWrittenType_forwardedValue (p := p)
        (p.classifies_classify e.signature s.collapsePlainEventArgs).conveys s.reactive
      refine (hvalue.names_formals (formalScope x.handlerFormals ++ x.scope)).imp_right ?_
      intro hnames use huse
      obtain ⟨hscope, q, hq, hname⟩ := hnames use huse
      have hsome : ∃ q ∈ x.handlerFormals, read q.name = read use.2 := ⟨q, hq, by rw [hname]⟩
      obtain ⟨r, hr, hread, hresolve⟩ := resolve_formalScope hsome
      exact ⟨r, hr, hread, by rw [hscope, Scope.resolve_append, hresolve, Option.some_or]⟩
  · refine hgives .add ?_
    rw [foundIn_subscription (passesOver_sides? .add) haccess]
    simp [Expr.sides?, x]
  · refine hgives .subtract ?_
    rw [foundIn_subscription (passesOver_sides? .subtract) haccess]
    simp [Expr.sides?, x]

/-- It is enough to read unmarked names as they are, and no parameter like the observer. -/
theorem hygienic_of_unmarked {read : String → String} (t : TypeId) (mode : WrapperMode)
    (hread : ∀ text : String, text.toList.head? ≠ some '@' → read text = text) :
    let access : Expr := .member (p.eventTarget t mode) member
    let x := p.subscriptionOf s access e
    (∀ q ∈ x.handlerFormals, read q.name ≠ x.observer) → x.Hygienic read s.reactive access := by
  intro access x hformals
  obtain ⟨object, htarget, hmark, hbase⟩ := p.exists_eventTarget t mode
  have hobserver : read x.observer = x.observer :=
    hread _ (by rw [show x.observer.toList.head? = some 'o' from head_freeName _ rfl]; decide)
  have hhandler : read x.handler = x.handler :=
    hread _ (by rw [show x.handler.toList.head? = some 'H' from head_freeName _ rfl]; decide)
  have haccess : access = .member (.name object) member := by rw [← htarget]
  refine hygienic_subscriptionOf haccess ?_ ?_ ?_ ?_
  · rw [hobserver, hhandler]
    exact freeName_obs_ne_freeName_Handler _
  · rwa [hobserver]
  · rw [hread object hmark, hobserver]
    exact ne_freeName (hbase "obs" (by simp))
  · rw [hread object hmark, hhandler]
    exact ne_freeName (hbase "Handler" (by simp))

end Hygienic

/-- In every property every name stands for what it is meant for. The observer and the handler have
the first free names, which are no parameter's and not each other's. So it is by the spelling of
names, and also by what C# reads where no parameter's own name has an at sign. -/
theorem handler_names_resolve (mode : WrapperMode) (t : TypeId) (hides : Bool) :
    let access : Expr := .member (p.eventTarget t mode) (escape e.name)
    let taken := e.signature.parameters.map fun q => escape q.name
    ∃ x : Subscription,
      (p.eventProperty s mode (p.eventTarget t mode) hides e).getter =
        .expression (x.getter s.reactive access) ∧
      x.handlerFormals.map (·.name) = taken ∧
      IsFirstFree "obs" taken x.observer ∧ IsFirstFree "Handler" taken x.handler ∧
      x.observer ≠ x.handler ∧ x.observer ∉ taken ∧ x.handler ∉ taken ∧
      x.Hygienic (fun written => written) s.reactive access ∧
      ((∀ q ∈ e.signature.parameters, q.name.toList.head? ≠ some '@') →
        x.Hygienic identifier s.reactive access) := by
  intro access taken
  let x := p.subscriptionOf s access e
  have htaken : x.handlerFormals.map (·.name) = taken := by
    simp [x, subscriptionOf, handlerFormals, taken]
  have hobserver : x.observer = freeName "obs" taken := by rw [← htaken]; rfl
  have hhandler : x.handler = freeName "Handler" taken := by rw [← htaken]; rfl
  have hne : x.observer ≠ x.handler := freeName_obs_ne_freeName_Handler _
  have hformals : ∀ q ∈ x.handlerFormals, q.name ≠ x.observer := fun q hq =>
    ne_freeName_of_mem (List.mem_map_of_mem hq)
  refine ⟨x, rfl, htaken, ?_, ?_, freeName_obs_ne_freeName_Handler _, ?_, ?_, ?_, ?_⟩
  · rw [hobserver]
    exact isFirstFree_freeName "obs" taken
  · rw [hhandler]
    exact isFirstFree_freeName "Handler" taken
  · rw [hobserver]
    exact freeName_notMem "obs" taken
  · rw [hhandler]
    exact freeName_notMem "Handler" taken
  · exact hygienic_of_unmarked t mode (fun _ _ => rfl) hformals
  · intro hunmarked
    refine hygienic_of_unmarked t mode (fun _ => identifier_of_head) fun q hq => ?_
    obtain ⟨parameter, hparameter, rfl⟩ := List.mem_map.1 hq
    exact identifier_escape_ne_freeName (hunmarked parameter hparameter) (hformals _ hq) (by decide)

/-- An event whose parameters are called like its observer and its handler, and like a keyword. -/
def crowdedEvent : EventDescriptor where
  name := "Moved"
  declaringType := 0
  delegate := .named 0 []
  signature := {
    result := .named 0 []
    parameters := ["obs", "Handler", "obs1", "event"].map fun name =>
      { name := name, type := .parameter "T" } }
  returnKind := .void
  isStatic := false
  obsolescence := none

theorem crowdedEvent_names_resolve :
    (∀ q ∈ crowdedEvent.signature.parameters, q.name.toList.head? ≠ some '@') ∧
    ∃ x : Subscription, x.observer = "obs2" ∧ x.handler = "Handler1" ∧
      x.handlerFormals.map (·.name) = ["obs", "Handler", "obs1", "@event"] ∧
      x.Hygienic identifier ({} : Settings).reactive (.member (.name "_data") "Moved") := by
  have hunmarked : ∀ q ∈ crowdedEvent.signature.parameters, q.name.toList.head? ≠ some '@' := by
    decide
  obtain ⟨x, -, htaken, hobserver, hhandler, -, -, -, -, hread⟩ :=
    handler_names_resolve withCoreLibrary {} crowdedEvent .ofInstance 0 false
  have hmoved : escape crowdedEvent.name = "Moved" := by decide
  rw [hmoved] at hread
  refine ⟨hunmarked, x, ?_, ?_, ?_, hread hunmarked⟩
  · rw [hobserver.unique (isFirstFree_freeName "obs" _)]
    decide
  · rw [hhandler.unique (isFirstFree_freeName "Handler" _)]
    decide
  · rw [htaken]
    decide

end Program

end EventWrap
