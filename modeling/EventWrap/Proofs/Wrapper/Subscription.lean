import EventWrap.Proofs.Wrapper.Exposed
import EventWrap.Proofs.Wrapper.FreeName

/-!
# Subscriptions

The getter of a property adds one handler to its event, and removes the same handler in what ends
the subscription. The handler hands on what it is given to the observer that subscribed, once. This
holds for every signature, also for one whose parameters are named like the observer or the handler:
the names of both are chosen so that no parameter hides them.
-/

namespace EventWrap

open Code

/-! ## What walking over code meets -/

namespace Code

theorem walkAll_eq_flatMap (es : List Expr) : walkAll es = es.flatMap (·.walk) := by
  induction es with
  | nil => rfl
  | cons e rest ih =>
    calc walkAll (e :: rest) = e.walk ++ walkAll rest := rfl
      _ = (e :: rest).flatMap (·.walk) := by rw [ih, List.flatMap_cons]

theorem walkStatements_eq_flatMap (statements : List Statement) :
    walkStatements statements = statements.flatMap (·.walk) := by
  induction statements with
  | nil => rfl
  | cons s rest ih =>
    calc walkStatements (s :: rest) = s.walk ++ walkStatements rest := rfl
      _ = (s :: rest).flatMap (·.walk) := by rw [ih, List.flatMap_cons]

section Found

variable {α : Type} (f : Expr → Option α)

/-- What is found by walking over an expression. -/
def Expr.found (e : Expr) : List α := e.walk.filterMap f

def Statement.found (s : Statement) : List α := s.walk.filterMap f

def Body.found (b : Body) : List α := b.walk.filterMap f

variable {f} in
/-- Walking over an expression meets the expression itself before its parts. -/
theorem Expr.found_of_walk {e : Expr} {parts : List Expr} (h : e.walk = e :: parts) :
    e.found f = (f e).toList ++ parts.filterMap f := by
  rw [found, h]
  cases hfound : f e <;> simp [hfound]

@[simp] theorem Expr.found_name (text : String) :
    (Expr.name text).found f = (f (.name text)).toList := by
  have hwalk : (Expr.name text).walk = [.name text] := rfl
  rw [found_of_walk hwalk, List.filterMap_nil, List.append_nil]

@[simp] theorem Expr.found_member (target : Expr) (name : String) :
    (Expr.member target name).found f = (f (.member target name)).toList ++ target.found f :=
  found_of_walk rfl

@[simp] theorem Expr.found_call (target : Expr) (types : List String) (arguments : List Expr) :
    (Expr.call target types arguments).found f = (f (.call target types arguments)).toList ++
      (target.found f ++ arguments.flatMap (·.found f)) := by
  have hwalk : (Expr.call target types arguments).walk =
      .call target types arguments :: (target.walk ++ walkAll arguments) := rfl
  rw [found_of_walk hwalk, List.filterMap_append, walkAll_eq_flatMap, List.filterMap_flatMap]
  rfl

@[simp] theorem Expr.found_lambda (parameters : List String) (body : Body) :
    (Expr.lambda parameters body).found f = (f (.lambda parameters body)).toList ++
      body.found f :=
  found_of_walk rfl

@[simp] theorem Expr.found_tuple (items : List Expr) :
    (Expr.tuple items).found f = (f (.tuple items)).toList ++ items.flatMap (·.found f) := by
  have hwalk : (Expr.tuple items).walk = .tuple items :: walkAll items := rfl
  rw [found_of_walk hwalk, walkAll_eq_flatMap, List.filterMap_flatMap]
  rfl

@[simp] theorem Expr.found_assign (target : Expr) (op : AssignOp) (value : Expr) :
    (Expr.assign target op value).found f = (f (.assign target op value)).toList ++
      (target.found f ++ value.found f) := by
  have hwalk : (Expr.assign target op value).walk =
      .assign target op value :: (target.walk ++ value.walk) := rfl
  rw [found_of_walk hwalk, List.filterMap_append]
  rfl

@[simp] theorem Statement.found_expression (e : Expr) :
    (Statement.expression e).found f = e.found f := rfl

@[simp] theorem Statement.found_result (e : Expr) : (Statement.result e).found f = e.found f := rfl

@[simp] theorem Statement.found_localFunction (result name : String) (formals : List Formal)
    (body : Body) : (Statement.localFunction result name formals body).found f = body.found f := rfl

@[simp] theorem Body.found_expression (e : Expr) : (Body.expression e).found f = e.found f := rfl

@[simp] theorem Body.found_block (statements : List Statement) :
    (Body.block statements).found f = statements.flatMap (·.found f) := by
  have hwalk : (Body.block statements).walk = walkStatements statements := rfl
  rw [found, hwalk, walkStatements_eq_flatMap, List.filterMap_flatMap]
  rfl

end Found

/-- The two sides of an assignment of a kind. -/
def Expr.sides? (op : AssignOp) : Expr → Option (Expr × Expr)
  | .assign target kind value => if kind = op then some (target, value) else none
  | _ => none

/-- What a method is called on. -/
def Expr.receiver? (method : String) : Expr → Option Expr
  | .call (.member target called) _ _ => if called = method then some target else none
  | _ => none

/-- The assignments of a kind in an expression, by their two sides. -/
def Expr.assignments (op : AssignOp) (e : Expr) : List (Expr × Expr) := e.found (Expr.sides? op)

def Body.assignments (op : AssignOp) (b : Body) : List (Expr × Expr) := b.found (Expr.sides? op)

/-- What a method is called on in a body, call by call. -/
def Body.receivers (method : String) (b : Body) : List Expr := b.found (Expr.receiver? method)

/-! ## Subscriptions -/

/-- The parts of a getter that subscribes. -/
structure Subscription where
  /-- The type that the observable is created with. -/
  element : String
  observer : String
  handler : String
  handlerResult : String
  handlerFormals : List Formal
  handlerBody : Body
  /-- What is run when the subscription ends. -/
  ending : Body

namespace Subscription

/-- A handler is declared and added to an event, and what ends the subscription is returned. -/
def getter (names : ReactiveNames) (access : Expr) (x : Subscription) : Expr :=
  .call (.name names.create) [x.element] [.lambda [x.observer] (.block [
    .localFunction x.handlerResult x.handler x.handlerFormals x.handlerBody,
    .expression (.assign access .add (.name x.handler)),
    .result (.call (.name names.disposableCreate) [] [.lambda [] x.ending])])]

/-- A subscription adds and removes one handler once, and the handler calls the observer once. -/
structure Balanced (names : ReactiveNames) (access : Expr) (x : Subscription) : Prop where
  added : (x.getter names access).assignments .add = [(access, .name x.handler)]
  removed : (x.getter names access).assignments .subtract = [(access, .name x.handler)]
  removed_by_ending : x.ending.assignments .subtract = [(access, .name x.handler)]
  set : (x.getter names access).assignments .set = []
  forwarded : x.handlerBody.receivers "OnNext" = [.name x.observer]
  observer_ne_handler : x.observer ≠ x.handler
  observer_free : ∀ q ∈ x.handlerFormals, q.name ≠ x.observer
  handler_free : ∀ q ∈ x.handlerFormals, q.name ≠ x.handler

/-- The getter itself adds once; all else is assigned by the handler or by the ending. -/
theorem assignments_getter (names : ReactiveNames) (access : Expr) (x : Subscription)
    (op : AssignOp) : (x.getter names access).assignments op =
      x.handlerBody.assignments op ++ ((if op = .add then [(access, .name x.handler)] else []) ++
        access.assignments op ++ x.ending.assignments op) := by
  cases op <;> simp [getter, Expr.assignments, Body.assignments, Expr.sides?]

end Subscription

/-- A property of an observable type creates its observable with the element of that type, from a
balanced subscription to what is reached through `access` with a handler that takes `formals`. -/
def Property.Subscribes (names : ReactiveNames) (access : Expr) (formals : List Formal)
    (q : Property) : Prop :=
  ∃ x : Subscription, q.getter = .expression (x.getter names access) ∧
    q.type = names.observable ++ "<" ++ x.element ++ ">" ∧ x.handlerFormals = formals ∧
    x.Balanced names access

end Code

/-! ## The getters of wrappers -/

namespace Program

/-- What is sought neither among names nor among tuples is not found in a forwarded value. -/
theorem found_forwardedValue {α : Type} {f : Expr → Option α} (names : ReactiveNames)
    (forwarding : Forwarding) (hname : ∀ text, f (.name text) = none)
    (htuple : ∀ items, f (.tuple items) = none) :
    (forwardedValue names forwarding).found f = [] := by
  cases forwarding <;> simp [forwardedValue, List.flatMap_map, hname, htuple]

/-- Besides forwarding, a handler only names what it returns. -/
theorem found_handlerBody {α : Type} {f : Expr → Option α} (kind : ReturnKind) (forward : Expr)
    (hname : ∀ text, f (.name text) = none) :
    (handlerBody kind forward).found f = forward.found f := by
  cases kind <;> simp [handlerBody, hname]

variable (p : Program) (s : Settings) (access : Expr) (e : EventDescriptor)

/-- The parts of the getter for an event that is reached through `access`. -/
def subscriptionOf : Subscription :=
  let shape := p.classify e.signature s.collapsePlainEventArgs
  let formals := p.handlerFormals e.signature
  let taken := formals.map (·.name)
  let observer := freeName "obs" taken
  let handler := freeName "Handler" taken
  { element := p.elementText s.reactive shape.element
    observer := observer
    handler := handler
    handlerResult := p.handlerResult e
    handlerFormals := formals
    handlerBody := handlerBody e.returnKind
      (.call (.member (.name observer) "OnNext") [] [forwardedValue s.reactive shape.forwarding])
    ending := .expression (.assign access .subtract (.name handler)) }

theorem assignments_handlerBody (op : AssignOp) :
    (p.subscriptionOf s access e).handlerBody.assignments op = [] := by
  have hforwarded := found_forwardedValue (f := Expr.sides? op) s.reactive
    (p.classify e.signature s.collapsePlainEventArgs).forwarding (fun _ => rfl) fun _ => rfl
  rw [Body.assignments, subscriptionOf, found_handlerBody _ _ fun _ => rfl]
  simp [Expr.sides?, hforwarded]

theorem receivers_handlerBody :
    (p.subscriptionOf s access e).handlerBody.receivers "OnNext" =
      [.name (p.subscriptionOf s access e).observer] := by
  have hforwarded := found_forwardedValue (f := Expr.receiver? "OnNext") s.reactive
    (p.classify e.signature s.collapsePlainEventArgs).forwarding (fun _ => rfl) fun _ => rfl
  rw [Body.receivers, subscriptionOf, found_handlerBody _ _ fun _ => rfl]
  simp [Expr.receiver?, hforwarded]

/-- A getter is balanced when the way to its event assigns nothing. -/
theorem balanced_subscriptionOf (haccess : ∀ op, access.assignments op = []) :
    (p.subscriptionOf s access e).Balanced s.reactive access := by
  have hending : ∀ op, (p.subscriptionOf s access e).ending.assignments op =
      if op = .subtract then [(access, .name (p.subscriptionOf s access e).handler)] else [] := by
    intro op
    have h := haccess op
    rw [Expr.assignments] at h
    cases op <;> simp [subscriptionOf, Body.assignments, Expr.sides?, h]
  have hfree : ∀ base, ∀ q ∈ (p.subscriptionOf s access e).handlerFormals,
      q.name ≠ freeName base ((p.handlerFormals e.signature).map (·.name)) :=
    fun base q hq => ne_freeName_of_mem (List.mem_map_of_mem hq)
  refine ⟨?_, ?_, ?_, ?_, receivers_handlerBody .., freeName_obs_ne_freeName_Handler _, hfree _,
    hfree _⟩
  · simp [Subscription.assignments_getter, assignments_handlerBody, haccess, hending]
  · simp [Subscription.assignments_getter, assignments_handlerBody, haccess, hending]
  · simp [hending]
  · simp [Subscription.assignments_getter, assignments_handlerBody, haccess, hending]

theorem fields_wrapperClass (mode : WrapperMode) (parent : Option ParentWrapper) (t : TypeEvents) :
    (p.wrapperClass s mode parent t).fields.map (·.name) =
      if mode.isStatic then [] else ["_data"] := by
  cases mode <;>
    simp [wrapperClass, ClassBlock.fields, holdingMembers, List.filterMap_map,
      WrapperMode.isStatic]

/-- Every property of every wrapper subscribes to the event it is made for, which is reached through
the object that the wrapper holds or through the type itself. There is a wrapper unless there are no
events. -/
theorem properties_subscribe (plan : WrapperPlan) :
    match p.synthesize s plan with
    | none => plan.events.events = []
    | some w =>
      w.declaration.fields.map (·.name) = (if plan.mode.isStatic then [] else ["_data"]) ∧
      List.Forall₂
        (fun e q => q.Subscribes s.reactive
          (.member (p.eventTarget plan.events.type plan.mode) (escape e.name))
          (p.handlerFormals e.signature))
        plan.events.events w.declaration.properties := by
  cases hw : p.synthesize s plan with
  | none =>
    have hempty := synthesize_isSome (p := p) (s := s) plan
    rw [hw, Option.isSome_none, eq_comm, Bool.or_eq_false_iff, Bool.not_eq_false'] at hempty
    exact List.isEmpty_iff.1 hempty.1
  | some w =>
    obtain ⟨-, -, -, -, hdeclaration⟩ := eq_of_synthesize hw
    simp only
    rw [hdeclaration, properties_wrapperClass, List.forall₂_map_right_iff, List.forall₂_same]
    refine ⟨fields_wrapperClass .., fun e _ => ?_⟩
    have haccess : ∀ op, (Expr.member (p.eventTarget plan.events.type plan.mode)
        (escape e.name)).assignments op = [] := by
      intro op
      cases plan.mode <;> simp [eventTarget, Expr.assignments, Expr.sides?]
    exact ⟨p.subscriptionOf s _ e, rfl, rfl, rfl, p.balanced_subscriptionOf s _ e haccess⟩

end Program

end EventWrap
