import ClusterQuery.Proofs.Execution.Refusing
import ClusterQuery.Proofs.Execution.Respecting
import ClusterQuery.Proofs.Lists
import ClusterQuery.Proofs.Store.Following

/-!
# Changes are sent one by one

A query that creates, assigns or deletes first asks the store, and then has orders for it (`Run.orders`): node by node,
and for each node in the order of its documents. They are carried out one after another, up to the first for which
nothing can be sent and up to the first change that fails (`Order.carryOut`). A step follows orders when it does just
that, whether or not a fault is on the way to the store (`Run.Follows`), and steps in sequence follow their orders in
sequence; so a fault stops a query at the change that it does not let through, and leaves what is stored before it
(`Run.execute_faulted`).
-/

namespace ClusterQuery

/-- The names of the calls that change a store. -/
def CallName.changing : List CallName :=
  [.create, .update, .delete]

/-- The record of a change; one without a name is refused before it is recorded. -/
def Mutation.record? : Mutation → Option Call
  | .create coordinate inNamespace document => document.name?.map (.create coordinate inNamespace)
  | .update coordinate inNamespace document => document.name?.map (.update coordinate inNamespace)
  | .delete coordinate inNamespace name => some (.delete coordinate inNamespace name)

/-- The changes on record. -/
def Store.changes (store : Store) : List Call :=
  store.calls.filter (·.callName ∈ CallName.changing)

/-- What a query wants of the store for a target: a change, or an error where none can be sent. -/
structure Order where
  target : Target
  change : Except ExecutionError Mutation

/-- A change that is sent for a target, and the store that it is sent to. -/
structure Sending where
  target : Target
  change : Mutation
  store : Store

/-- The order that a change is sent for. -/
def Sending.order (sending : Sending) : Order :=
  ⟨sending.target, .ok sending.change⟩

/-- The error of a query whose change fails: it is about the binding and the kind of the target. -/
def Target.failure (target : Target) (cause : StoreError) : ExecutionError :=
  .store target.node.name target.kind.kind cause

/-- What becomes of orders: the changes that are sent, the error that stops them, if there is one, and the store that is
left. -/
structure Course where
  sent : List Sending
  stop : Option ExecutionError
  left : Store

/-- A course, and a second one that goes on where it has ended. -/
def Course.append (course next : Course) : Course :=
  ⟨course.sent ++ next.sent, next.stop, next.left⟩

namespace Order

/-- The course of orders that are carried out one after another: an order without a change and a change that fails are
the last. -/
def carryOut (store : Store) : List Order → Course
  | [] => ⟨[], none, store⟩
  | order :: rest =>
    match order.change with
    | .error cause => ⟨[], some cause, store⟩
    | .ok change =>
      match store.perform change with
      | (.error cause, next) => ⟨[⟨order.target, change, store⟩], some (order.target.failure cause), next⟩
      | (.ok _, next) => Course.append ⟨[⟨order.target, change, store⟩], none, next⟩ (carryOut next rest)

end Order

namespace Target

/-- The order for the new document of a target. -/
def creation (target : Target) : Order :=
  ⟨target, target.newDocument.map (.create target.kind.coordinate target.newNamespace)⟩

/-- The order for a document that takes a patch; an empty patch gives none. -/
def revisions (target : Target) (patch document : Document) : List Order :=
  match patch with
  | .object (_ :: _) =>
    let changed := document.merge patch
    [⟨target, .ok (.update target.kind.coordinate (target.namespaceOf changed) changed)⟩]
  | _ => []

/-- The order for a document that is to go; without a name it cannot be sent. -/
def removal (target : Target) (document : Document) : Order :=
  ⟨target, match document.name? with
    | some name => .ok (.delete target.kind.coordinate (target.namespaceOf document) name)
    | none => .error (.invalidMutation (.nameless target.kind.kind))⟩

end Target

/-- The engine with a fault on the way to its store: a number of changes gets through, and all later ones fail. -/
def Engine.faulted (engine : Engine) (error : StoreError) (count : Nat) : Engine :=
  { engine with gateway := ⟨engine.gateway.store, some ⟨CallName.changing, error, count⟩⟩ }

/-- The second engine is the first, which has no fault, with a fault on the way to its store. -/
def Engine.Faulted (error : StoreError) (count : Nat) (first second : Engine) : Prop :=
  first.gateway.fault = none ∧ first.faulted error count = second

namespace Run

/-- The orders of a clause for its targets, target by target and document by document, once the store has been asked
what takes part. -/
def ordersFor (rules : List Rule) (context : Context) (query : Query) (targets : List Target) : Run (List Order) :=
  match query.clause with
  | .find _ projections => do
    let _ ← find rules context query.graph targets projections
    return []
  | .create =>
    if query.graph.edges = [] then return targets.map Target.creation else throw (.invalidMutation .relationships)
  | .assign assignments => do
    let patches ← ofExcept (patchesOf targets assignments)
    let family ← matched rules context query.graph targets
    return ((targets.zip family).zip patches).flatMap fun ((target, documents), patch) =>
      documents.flatMap (target.revisions patch)
  | .delete => do
    let family ← matched rules context query.graph targets
    return (targets.zip family).flatMap fun (target, documents) => documents.map target.removal

/-- All that a query does before its first change, and the orders that it has then. -/
def orders (rules : List Rule) (context : Context) (query : Query) : Run (List Order) := do
  trace context ("executing " ++ query.text)
  let targets ← plan query context
  targets.forM fun target => trace context (targetLine target)
  ordersFor rules context query targets

/-- The course that orders take: none is carried out when there is an error before them. -/
def course (orders : Run (List Order)) (engine : Engine) : Course :=
  match orders engine with
  | (.ok orders, asked) => Order.carryOut asked.gateway.store orders
  | (.error cause, asked) => ⟨[], some cause, asked.gateway.store⟩

variable {α β : Type}

/-- On an engine without a fault the step takes the course. With a fault that lets all its changes through it does the
same; with one that does not let a change through it ends in the error of the fault about the target of that change, and
with the store that the change would have been sent to. -/
structure Takes (step : Run α) (engine : Engine) (course : Course) : Prop where
  fault_eq : (step engine).2.gateway.fault = none
  stop_eq : cause? (step engine).1 = course.stop
  left_eq : (step engine).2.gateway.store = course.left
  passed : ∀ error count, course.sent.length ≤ count →
    step (engine.faulted error count) = ((step engine).1, (step engine).2.faulted error (count - course.sent.length))
  stopped : ∀ error count failed, course.sent[count]? = some failed →
    (step (engine.faulted error count)).1 = .error (failed.target.failure error) ∧
      (step (engine.faulted error count)).2.gateway.store = failed.store

/-- The step follows the orders: it takes their course, from every engine without a fault. -/
def Follows (step : Run α) (orders : Run (List Order)) : Prop :=
  ∀ engine, engine.gateway.fault = none → Takes step engine (course orders engine)

end Run

/-! ## Questions under a fault -/

namespace Gateway

variable {α : Type}

/-- A call behind a gateway without a fault is answered by the store. -/
theorem guarded_of_none {gateway : Gateway} (h : gateway.fault = none) (name : CallName)
    (call : Store → Store.Answer α) :
    gateway.guarded name call = ((call gateway.store).1, ofStore (call gateway.store).2) := by
  rw [guarded, h]
  rfl

/-- A fault on changes lets a question through. -/
theorem guarded_of_notMem (name : CallName) (h : name ∉ CallName.changing) (store : Store) (error : StoreError)
    (count : Nat) (call : Store → Store.Answer α) :
    guarded ⟨store, some ⟨CallName.changing, error, count⟩⟩ name call =
      ((call store).1, ⟨(call store).2, some ⟨CallName.changing, error, count⟩⟩) :=
  if_neg h

end Gateway

namespace Engine

/-- With a fault on changes the store answers questions as it does without. -/
theorem alike_faulted (error : StoreError) (count : Nat) : Alike (Faulted error count) where
  note := by
    rintro first _ line ⟨hfault, rfl⟩
    exact ⟨hfault, rfl⟩
  resolve := by
    rintro first _ identifier ⟨hfault, rfl⟩
    have hwhole := Gateway.guarded_of_none hfault .discover Store.discover
    have hbroken := Gateway.guarded_of_notMem .discover (by decide) first.gateway.store error count
      Store.discover
    simp only [resolve, faulted, Gateway.discover, hwhole, hbroken]
    cases first.cache.lookup (Cache.keyOf identifier) with
    | some kind => exact ⟨rfl, hfault, rfl⟩
    | none => exact ⟨rfl, rfl, rfl⟩
  list := by
    rintro coordinate search first _ ⟨hfault, rfl⟩
    have hwhole : first.gateway.list coordinate search = _ := Gateway.guarded_of_none hfault .list _
    have hbroken : (first.faulted error count).gateway.list coordinate search = _ :=
      Gateway.guarded_of_notMem .list (by decide) first.gateway.store error count _
    dsimp only
    rw [hwhole, hbroken]
    exact ⟨rfl, rfl, rfl⟩

end Engine

/-! ## Orders in sequence -/

namespace Order

/-- More orders are carried out when nothing has stopped the earlier ones, and go on where these have ended. -/
theorem carryOut_append (store : Store) (orders more : List Order) : carryOut store (orders ++ more) =
    match (carryOut store orders).stop with
    | some _ => carryOut store orders
    | none => (carryOut store orders).append (carryOut (carryOut store orders).left more) := by
  induction orders generalizing store with
  | nil => rfl
  | cons order rest ih =>
    rw [List.cons_append, carryOut, carryOut]
    cases order.change with
    | error cause => rfl
    | ok change =>
      dsimp only
      rcases store.perform change with ⟨cause | stored, next⟩
      · rfl
      · dsimp only
        rw [ih next]
        rcases carryOut next rest with ⟨sent, _ | cause, left⟩
        · simp only [Course.append, List.append_assoc]
        · rfl

end Order

namespace Run

variable {step : Run α} {next : α → Run β} {engine middle : Engine}

/-- A sequence stops where its first step does. -/
theorem bind_of_stopped {cause : ExecutionError} {store : Store}
    (h : (step engine).1 = .error cause ∧ (step engine).2.gateway.store = store) :
    ((step >>= next) engine).1 = .error cause ∧ ((step >>= next) engine).2.gateway.store = store := by
  obtain ⟨hanswer, hstore⟩ := h
  rw [bind_apply]
  rcases hrun : step engine with ⟨found | a, last⟩
  · rw [hrun] at hanswer hstore
    cases hanswer
    exact ⟨rfl, hstore⟩
  · rw [hrun] at hanswer
    cases hanswer

/-- A sequence whose first step fails has taken the course of its first step. -/
theorem Takes.bind_of_error {first : Course} {cause : ExecutionError} (hrun : step engine = (.error cause, middle))
    (h : Takes step engine first) : Takes (step >>= next) engine first := by
  have hsame : (step >>= next) engine = (.error cause, middle) := by rw [bind_apply, hrun]
  have hfault := h.fault_eq
  have hstop := h.stop_eq
  have hleft := h.left_eq
  rw [hrun] at hfault hstop hleft
  refine ⟨hsame ▸ hfault, hsame ▸ hstop, hsame ▸ hleft, fun error count hcount => ?_,
    fun error count failed hfailed => ?_⟩
  · rw [bind_apply, h.passed error count hcount, hsame, hrun]
  · exact bind_of_stopped (h.stopped error count failed hfailed)

/-- A sequence whose first step succeeds goes on with the course of its second. -/
theorem Takes.bind_of_ok {first second : Course} {a : α} (hrun : step engine = (.ok a, middle))
    (h : Takes step engine first) (hnext : Takes (next a) middle second) :
    Takes (step >>= next) engine (first.append second) := by
  have hsame : (step >>= next) engine = next a middle := by rw [bind_apply, hrun]
  refine ⟨hsame ▸ hnext.fault_eq, hsame ▸ hnext.stop_eq, hsame ▸ hnext.left_eq, fun error count hcount => ?_,
    fun error count failed hfailed => ?_⟩
  · rw [Course.append, List.length_append] at hcount
    rw [bind_apply, h.passed error count (by omega), hrun, hsame]
    dsimp only [Course.append]
    rw [hnext.passed error _ (by omega), List.length_append, Nat.sub_sub]
  · rcases Nat.lt_or_ge count first.sent.length with hlt | hge
    · -- the first step comes to the fault
      have hfirst : first.sent[count]? = some failed := by
        rwa [Course.append, List.getElem?_append_left hlt] at hfailed
      exact bind_of_stopped (h.stopped error count failed hfirst)
    · have hsecond : second.sent[count - first.sent.length]? = some failed := by
        rwa [Course.append, List.getElem?_append_right hge] at hfailed
      rw [bind_apply, h.passed error count hge, hrun]
      exact hnext.stopped error _ failed hsecond

/-- Steps in sequence follow their orders in sequence. -/
theorem Follows.bind {first second : List Order} (h : Follows step (pure first))
    (hnext : ∀ a, Follows (next a) (pure second)) : Follows (step >>= next) (pure (first ++ second)) := by
  intro engine hfault
  have htakes := h engine hfault
  change Takes step engine (Order.carryOut engine.gateway.store first) at htakes
  change Takes (step >>= next) engine (Order.carryOut engine.gateway.store (first ++ second))
  have hstop := htakes.stop_eq
  rw [Order.carryOut_append]
  rcases hrun : step engine with ⟨cause | a, middle⟩
  · rw [hrun] at hstop
    rw [← hstop]
    exact htakes.bind_of_error hrun
  · rw [hrun] at hstop
    have hmiddle := htakes.fault_eq
    have hleft := htakes.left_eq
    rw [hrun] at hmiddle hleft
    rw [← hstop, ← hleft]
    exact htakes.bind_of_ok hrun (hnext a middle hmiddle)

/-- A step that asks at most takes a course on which nothing is sent. -/
theorem takes_nothing (hasks : ∀ error count, Respects (Engine.Faulted error count) step)
    (hfault : engine.gateway.fault = none) :
    Takes step engine ⟨[], cause? (step engine).1, (step engine).2.gateway.store⟩ := by
  refine ⟨?_, rfl, rfl, fun error count _ => ?_, fun _ _ _ h => nomatch List.getElem?_nil.symm.trans h⟩
  · exact (hasks .workerStopped 0 ⟨hfault, rfl⟩).2.1
  · obtain ⟨hanswer, -, hafter⟩ := hasks error count ⟨hfault, rfl⟩
    exact Prod.ext hanswer.symm hafter.symm

/-- A step after some questions follows the orders that there are after the questions. -/
theorem Follows.of_asking {ordered : α → Run (List Order)}
    (hasks : ∀ error count, Respects (Engine.Faulted error count) step) (h : ∀ a, Follows (next a) (ordered a)) :
    Follows (step >>= next) (step >>= ordered) := by
  intro engine hfault
  have htakes := takes_nothing hasks hfault
  have hmiddle := htakes.fault_eq
  rw [course, bind_apply]
  rcases hrun : step engine with ⟨cause | a, middle⟩
  · rw [hrun] at htakes
    exact htakes.bind_of_error hrun
  · rw [hrun] at htakes hmiddle
    exact htakes.bind_of_ok hrun (h a middle hmiddle)

/-- A step that follows orders still does when a step without orders comes after it. -/
theorem Follows.bind_idle {ordered : Run (List Order)} (h : Follows step ordered)
    (hnext : ∀ a, Follows (next a) (pure [])) : Follows (step >>= next) ordered := by
  intro engine hfault
  have htakes := h engine hfault
  rcases hcourse : course ordered engine with ⟨sent, stop, left⟩
  rw [hcourse] at htakes
  rcases hrun : step engine with ⟨cause | a, middle⟩
  · exact htakes.bind_of_error hrun
  · have hmiddle := htakes.fault_eq
    have hstop := htakes.stop_eq
    have hleft := htakes.left_eq
    rw [hrun] at hmiddle hstop hleft
    obtain rfl : none = stop := hstop
    obtain rfl : middle.gateway.store = left := hleft
    have hboth := htakes.bind_of_ok hrun (hnext a middle hmiddle)
    change Takes _ _ ⟨sent ++ [], none, middle.gateway.store⟩ at hboth
    rwa [List.append_nil] at hboth

theorem follows_pure (a : α) : Follows (pure a) (pure []) :=
  fun _ hfault => takes_nothing (fun _ _ => respects_pure a) hfault

theorem follows_throw (cause : ExecutionError) (target : Target) :
    Follows (throw cause : Run α) (pure [⟨target, .error cause⟩]) :=
  fun _ hfault => takes_nothing (fun _ _ => respects_throw cause) hfault

/-- Tracing follows no orders. -/
theorem follows_trace (context : Context) (line : String) : Follows (trace context line) (pure []) := by
  intro engine hfault
  have htakes :=
    takes_nothing (fun error count => respects_trace (Engine.alike_faulted error count) context line) hfault
  have hgateway : (trace context line engine).2.gateway = engine.gateway := (traced_of_trace rfl).gateway_eq
  rwa [hgateway] at htakes

/-- A list of steps follows the orders of each in turn. -/
theorem follows_mapM {step : α → Run β} {orders : α → List Order}
    (h : ∀ entry, Follows (step entry) (pure (orders entry))) (entries : List α) :
    Follows (entries.mapM step) (pure (entries.flatMap orders)) := by
  induction entries with
  | nil =>
    rw [List.mapM_nil]
    exact follows_pure []
  | cons entry rest ih =>
    rw [List.mapM_cons, List.flatMap_cons]
    exact (h entry).bind fun first => ih.bind_idle fun others => follows_pure _

theorem follows_forM {step : α → Run Unit} {orders : α → List Order}
    (h : ∀ entry, Follows (step entry) (pure (orders entry))) (entries : List α) :
    Follows (entries.forM step) (pure (entries.flatMap orders)) := by
  induction entries with
  | nil => exact follows_pure ()
  | cons entry rest ih =>
    rw [List.flatMap_cons]
    exact (h entry).bind fun _ => ih

/-- Steps of which each goes on from the answer so far follow the orders of each in turn. -/
theorem follows_foldlM {step : β → α → Run β} {orders : α → List Order}
    (h : ∀ b entry, Follows (step b entry) (pure (orders entry))) (entries : List α) (start : β) :
    Follows (entries.foldlM step start) (pure (entries.flatMap orders)) := by
  induction entries generalizing start with
  | nil => exact follows_pure start
  | cons entry rest ih =>
    rw [List.foldlM_cons, List.flatMap_cons]
    exact (h start entry).bind fun b => ih b

/-! ## One change -/

section Change

variable (name : CallName) {call : Store → Store.Answer α} {stored : α → Option Document} {change : Mutation}

/-- One order is carried out by its change. -/
theorem course_singleton
    (hperform : ∀ store, store.perform change = (call store).map (·.map stored) id) (target : Target)
    (engine : Engine) : course (pure [⟨target, .ok change⟩]) engine =
      ⟨[⟨target, change, engine.gateway.store⟩], cause? ((call engine.gateway.store).1.mapError target.failure),
        (call engine.gateway.store).2⟩ := by
  show (match engine.gateway.store.perform change with
    | (.error cause, next) => (⟨[_], some (target.failure cause), next⟩ : Course)
    | (.ok _, next) => Course.append ⟨[_], none, next⟩ (Order.carryOut next [])) = _
  rw [hperform]
  rcases call engine.gateway.store with ⟨cause | a, next⟩ <;> rfl

/-- Without a fault a call is answered by the store. -/
theorem call_guarded (target : Target) (hfault : engine.gateway.fault = none) :
    Run.call target (fun gateway => gateway.guarded name call) engine =
      ((call engine.gateway.store).1.mapError target.failure,
        { engine with gateway := Gateway.ofStore (call engine.gateway.store).2 }) := by
  rw [Run.call, Gateway.guarded_of_none hfault name call]
  rcases call engine.gateway.store with ⟨cause | a, next⟩ <;> rfl

/-- A change fails when the fault lets no more of them through, and else there is one less that it lets through. -/
theorem call_faulted (hname : name ∈ CallName.changing) (target : Target) (error : StoreError) (count : Nat) :
    Run.call target (fun gateway => gateway.guarded name call) (engine.faulted error count) =
      if count = 0 then (.error (target.failure error), engine.faulted error count)
      else ((call engine.gateway.store).1.mapError target.failure,
        Engine.faulted { engine with gateway := Gateway.ofStore (call engine.gateway.store).2 } error (count - 1)) := by
  simp only [Run.call, Engine.faulted, Gateway.guarded, if_pos hname]
  by_cases hcount : count = 0
  · rw [if_pos hcount, if_pos hcount]
    rfl
  · rw [if_neg hcount, if_neg hcount, Gateway.reach]
    rcases call engine.gateway.store with ⟨cause | a, next⟩ <;> rfl

/-- A call that changes the store follows the order for its change. -/
theorem follows_call (hname : name ∈ CallName.changing)
    (hperform : ∀ store, store.perform change = (call store).map (·.map stored) id) (target : Target) :
    Follows (Run.call target fun gateway => gateway.guarded name call) (pure [⟨target, .ok change⟩]) := by
  intro engine hfault
  have hrun : Run.call target (fun gateway => gateway.guarded name call) engine = _ := call_guarded name target hfault
  rw [course_singleton hperform]
  refine ⟨by rw [hrun]; rfl, by rw [hrun], by rw [hrun]; rfl, fun error count hcount => ?_,
    fun error count failed hfailed => ?_⟩
  · have hpositive : count ≠ 0 := Nat.one_le_iff_ne_zero.1 hcount
    rw [call_faulted name hname, if_neg hpositive, hrun]
    rfl
  · obtain ⟨rfl, rfl⟩ : count = 0 ∧ failed = ⟨target, change, engine.gateway.store⟩ := by
      cases count with
      | zero => exact ⟨rfl, (Option.some.inj hfailed).symm⟩
      | succ count => cases hfailed
    rw [call_faulted name hname, if_pos rfl]
    exact ⟨rfl, rfl⟩

end Change

/-! ## The orders of each clause -/

theorem ofExcept_ok (a : α) : ofExcept (.ok a) = pure a :=
  rfl

/-- Creating follows the order for the new document of each target. -/
theorem follows_storeNew (bindings : Bindings) (target : Target) :
    Follows (storeNew bindings target) (pure [target.creation]) := by
  unfold storeNew Target.creation
  cases target.newDocument with
  | error cause => exact follows_throw cause target
  | ok document =>
    rw [ofExcept_ok, pure_bind]
    refine Follows.bind_idle ?_ fun stored => follows_pure _
    exact follows_call .create (by decide) (fun store => rfl) target

/-- Changing a document by a patch follows the order for it. -/
theorem follows_update (target : Target) (patch document : Document) :
    Follows (update target patch document) (pure (target.revisions patch document)) := by
  unfold update
  split
  · exact follows_call .update (by decide) (fun store => rfl) target
  · rename_i hempty
    have hnone : target.revisions patch document = [] := by
      unfold Target.revisions
      split
      · exact absurd rfl (hempty _ _)
      · rfl
    rw [hnone]
    exact follows_pure document

/-- Removing a document follows the order for it. -/
theorem follows_remove (context : Context) (target : Target) (document : Document) :
    Follows (remove context target document) (pure [target.removal document]) := by
  unfold remove Target.removal
  cases document.name? with
  | none => exact follows_throw _ target
  | some name =>
    refine Follows.bind_idle ?_ fun _ => follows_trace context _
    exact follows_call .delete (by decide) (fun store => rfl) target

/-- What a clause does follows its orders. -/
theorem follows_act (rules : List Rule) (context : Context) (query : Query) (targets : List Target) :
    Follows (act rules context query targets) (ordersFor rules context query targets) := by
  have hmatched : ∀ error count, Respects (Engine.Faulted error count) (matched rules context query.graph targets) :=
    fun error count => respects_matched (Engine.alike_faulted error count) rules context query.graph targets
  unfold act ordersFor
  cases query.clause with
  | find filters projections =>
    have hfind : ∀ error count,
        Respects (Engine.Faulted error count) (find rules context query.graph targets projections) := fun error count =>
      (respects_ofExcept _).bind fun _ => (hmatched error count).bind fun _ => respects_pure _
    have hfollows := Follows.of_asking hfind follows_pure
    rwa [bind_pure] at hfollows
  | create =>
    dsimp only
    rw [create_eq]
    split
    · rw [List.map_eq_flatMap]
      exact (follows_foldlM follows_storeNew targets []).bind_idle fun bindings => follows_pure _
    · intro engine hfault
      exact takes_nothing (fun _ _ => respects_throw _) hfault
  | assign assignments =>
    refine Follows.of_asking (fun _ _ => respects_ofExcept _) fun patches => ?_
    refine Follows.of_asking hmatched fun family => ?_
    refine (follows_mapM (fun entry => ?_) _).bind_idle fun updated => follows_pure _
    exact (follows_mapM (follows_update entry.1.1 entry.2) entry.1.2).bind_idle fun documents => follows_pure _
  | delete =>
    refine Follows.of_asking hmatched fun family => ?_
    refine (follows_forM (fun pair => ?_) _).bind_idle fun _ => follows_pure _
    dsimp only
    rw [List.map_eq_flatMap]
    exact follows_forM (follows_remove context pair.1) pair.2

/-- A query follows its orders. -/
theorem follows_execute (rules : List Rule) (context : Context) (query : Query) :
    Follows (execute rules context query) (orders rules context query) := by
  have htrace : ∀ line error count, Respects (Engine.Faulted error count) (trace context line) :=
    fun line error count => respects_trace (Engine.alike_faulted error count) context line
  refine Follows.of_asking (htrace _) fun _ => ?_
  refine Follows.of_asking (fun error count => respects_plan (Engine.alike_faulted error count) query context)
    fun targets => ?_
  refine Follows.of_asking (fun error count => sequential_respects.forM fun target _ => htrace _ error count)
    fun _ => ?_
  refine (follows_act rules context query targets).bind_idle fun result => ?_
  exact (follows_trace context _).bind_idle fun _ => follows_pure result

end Run

/-! ## What is recorded and what is left -/

namespace Store

/-- A change without a name is refused. -/
theorem perform_of_record?_eq_none (store : Store) {change : Mutation} (h : change.record? = none) :
    ∃ cause, store.perform change = (.error cause, store) := by
  cases change with
  | create | update =>
    have hname := Option.map_eq_none_iff.1 h
    simp only [perform, create, update, hname]
    exact ⟨_, rfl⟩
  | delete => cases h

/-- A change is recorded, whether or not it succeeds, unless it has no name. -/
theorem calls_perform (store : Store) (change : Mutation) :
    (store.perform change).2.calls = store.calls ++ change.record?.toList := by
  cases hrecord : change.record? with
  | none =>
    obtain ⟨cause, hperform⟩ := store.perform_of_record?_eq_none hrecord
    rw [hperform]
    exact (List.append_nil _).symm
  | some call =>
    cases change with
    | create | update =>
      obtain ⟨name, hname, rfl⟩ := Option.map_eq_some_iff.1 hrecord
      simp only [perform, create, update, hname]
      repeat' split
      all_goals rfl
    | delete =>
      cases hrecord
      simp only [perform, delete]
      repeat' split
      all_goals rfl

/-- What is recorded of a change is recorded as one. -/
theorem changes_perform (store : Store) (change : Mutation) :
    (store.perform change).2.changes = store.changes ++ change.record?.toList := by
  rw [changes, calls_perform, List.filter_append, ← changes]
  congr 1
  rw [List.filter_eq_self]
  intro call hcall
  have hrecord : change.record? = some call := Option.mem_toList.1 hcall
  cases change with
  | create | update =>
    obtain ⟨name, -, rfl⟩ := Option.map_eq_some_iff.1 hrecord
    rfl
  | delete =>
    cases hrecord
    rfl

/-- A change that succeeds is recorded. -/
theorem isSome_record? {store : Store} {change : Mutation} {stored : Option Document}
    (h : (store.perform change).1 = .ok stored) : change.record?.isSome = true := by
  cases hrecord : change.record? with
  | none =>
    obtain ⟨cause, hperform⟩ := store.perform_of_record?_eq_none hrecord
    rw [hperform] at h
    cases h
  | some call => rfl

/-- Changes one after another are recorded one after another. -/
theorem changes_after (store : Store) (calls : List Mutation) :
    (store.after calls).changes = store.changes ++ calls.filterMap Mutation.record? := by
  induction calls generalizing store with
  | nil => exact (List.append_nil _).symm
  | cons change rest ih =>
    show ((store.perform change).2.after rest).changes = _
    rw [ih, changes_perform, List.append_assoc, List.filterMap_cons]
    cases change.record? <;> rfl

end Store

namespace Order

/-- What is left of orders is the store after the changes that are sent. -/
theorem left_carryOut (store : Store) (orders : List Order) :
    (carryOut store orders).left = store.after ((carryOut store orders).sent.map (·.change)) := by
  induction orders generalizing store with
  | nil => rfl
  | cons order rest ih =>
    rw [carryOut]
    cases order.change with
    | error cause => rfl
    | ok change =>
      dsimp only
      rcases hperform : store.perform change with ⟨cause | stored, next⟩
      · show next = (store.perform change).2
        rw [hperform]
      · show (carryOut next rest).left = (store.perform change).2.after _
        rw [hperform]
        exact ih next

/-- What is sent is for the orders in their order, and none of those is left out. -/
theorem sent_carryOut_prefix (store : Store) (orders : List Order) :
    (carryOut store orders).sent.map (·.order) <+: orders := by
  induction orders generalizing store with
  | nil => exact List.prefix_rfl
  | cons order rest ih =>
    rw [carryOut]
    rcases order with ⟨target, cause | change⟩
    · exact List.nil_prefix
    · dsimp only
      rcases store.perform change with ⟨cause | stored, next⟩
      · exact List.cons_prefix_cons.2 ⟨rfl, List.nil_prefix⟩
      · exact List.cons_prefix_cons.2 ⟨rfl, ih next⟩

/-- A change is sent to the store after those before it, and these have succeeded and are recorded. -/
theorem carryOut_spec {store : Store} {orders : List Order} {count : Nat} {last : Sending}
    (h : (carryOut store orders).sent[count]? = some last) :
    last.store = store.after (((carryOut store orders).sent.take count).map (·.change)) ∧
      ∀ earlier ∈ (carryOut store orders).sent.take count, earlier.change.record?.isSome = true := by
  induction orders generalizing store count with
  | nil => cases h
  | cons order rest ih =>
    rw [carryOut] at h ⊢
    cases hchange : order.change with
    | error cause =>
      rw [hchange] at h
      cases h
    | ok change =>
      rw [hchange] at h
      dsimp only at h ⊢
      rcases hperform : store.perform change with ⟨cause | stored, next⟩
      · rw [hperform] at h
        cases count with
        | zero =>
          cases h
          exact ⟨rfl, fun earlier hearlier => absurd hearlier List.not_mem_nil⟩
        | succ count => cases h
      · rw [hperform] at h
        cases count with
        | zero =>
          cases h
          exact ⟨rfl, fun earlier hearlier => absurd hearlier List.not_mem_nil⟩
        | succ count =>
          obtain ⟨hstore, hrecorded⟩ := ih h
          refine ⟨?_, List.forall_mem_cons.2 ⟨Store.isSome_record? (congrArg Prod.fst hperform), hrecorded⟩⟩
          rw [hstore]
          show _ = (store.perform change).2.after _
          rw [hperform]
          rfl

end Order

namespace Run

/-- What asking the store keeps is kept by all that a query does before its first change. -/
theorem preserves_orders {K : Engine → Prop} (hasking : Engine.Asking K) (rules : List Rule) (context : Context)
    (query : Query) : Preserves K (orders rules context query) := by
  have hmatched := preserves_matched hasking rules context query.graph
  refine (preserves_trace hasking context _).bind fun _ => (preserves_plan hasking query context).bind fun targets => ?_
  refine Preserves.bind (sequential_preserves.forM fun target _ => preserves_trace hasking context _) fun _ => ?_
  unfold ordersFor
  split
  · exact (preserves_find hasking rules context query.graph targets _).bind fun _ => preserves_pure _
  · split
    · exact preserves_pure _
    · exact preserves_throw _
  · exact (preserves_ofExcept _).bind fun _ => (hmatched targets).bind fun _ => preserves_pure _
  · exact (hmatched targets).bind fun _ => preserves_pure _

/-- A store that has only been asked has the same changes on record. -/
theorem changes_eq_of_onlyAsked {before after : Gateway} (h : before.OnlyAsked after) :
    after.store.changes = before.store.changes := by
  obtain ⟨calls, hcalls, hasks⟩ := h.calls
  rw [Store.changes, hcalls, List.filter_append, ← Store.changes]
  have hnone : calls.filter (·.callName ∈ CallName.changing) = [] := by
    refine List.filter_eq_nil_iff.2 fun call hcall => ?_
    rcases hasks call hcall with hname | hname
    all_goals
      rw [hname]
      decide
  rw [hnone, List.append_nil]

/-- What is left of a course is the store that has been asked, after the changes that are sent. -/
theorem left_course (orders : Run (List Order)) (engine : Engine) : (course orders engine).left =
    (orders engine).2.gateway.store.after ((course orders engine).sent.map (·.change)) := by
  unfold course
  rcases orders engine with ⟨cause | given, asked⟩
  · rfl
  · exact Order.left_carryOut asked.gateway.store given

/-- A change of a course is sent to the store that has been asked after those before it, and these are recorded. -/
theorem course_spec {orders : Run (List Order)} {engine : Engine} {count : Nat} {last : Sending}
    (h : (course orders engine).sent[count]? = some last) :
    last.store = (orders engine).2.gateway.store.after (((course orders engine).sent.take count).map (·.change)) ∧
      ∀ earlier ∈ (course orders engine).sent.take count, earlier.change.record?.isSome = true := by
  unfold course at h ⊢
  rcases hrun : orders engine with ⟨cause | given, asked⟩
  · rw [hrun] at h
    cases h
  · rw [hrun] at h
    exact Order.carryOut_spec h

/-- What is sent on a course is for the orders in their order, and none of those is left out. -/
theorem sent_course_prefix {orders : Run (List Order)} {engine : Engine} {given : List Order}
    (h : (orders engine).1 = .ok given) : (course orders engine).sent.map (·.order) <+: given := by
  unfold course
  rcases hrun : orders engine with ⟨cause | listed, asked⟩
  · exact List.nil_prefix
  · rw [hrun] at h
    cases h
    exact Order.sent_carryOut_prefix asked.gateway.store given

/-- A fault on the way to the store stops a query where it happens. A query asks the store, and then sends its changes,
one by one; without a fault all of them are recorded in their order, and what is stored is what they leave. When the
fault lets them all through, the query does the same. Else it fails with the error of the fault, about the binding and
the kind of the node for which the first change that does not get through is sent; the changes before it are on record,
and what is stored is what they leave. -/
theorem execute_faulted (rules : List Rule) (context : Context) (query : Query) (store : Store) (cache : Cache)
    (log : List String) (error : StoreError) (count : Nat) :
    let engine : Engine := ⟨Gateway.ofStore store, cache, log⟩
    let asked := (orders rules context query engine).2.gateway
    let sent := (course (orders rules context query) engine).sent
    let whole := execute rules context query engine
    let broken := execute rules context query (engine.faulted error count)
    engine.gateway.OnlyAsked asked ∧
      (∀ given, (orders rules context query engine).1 = .ok given → sent.map (·.order) <+: given) ∧
      whole.2.gateway.store = asked.store.after (sent.map (·.change)) ∧
      whole.2.gateway.store.changes = store.changes ++ sent.filterMap (·.change.record?) ∧
      match sent[count]? with
      | none => broken.1 = whole.1 ∧ broken.2.gateway.store = whole.2.gateway.store
      | some failed =>
        broken.1 = .error (.store failed.target.node.name failed.target.kind.kind error) ∧
          broken.2.gateway.store = asked.store.after ((sent.take count).map (·.change)) ∧
          broken.2.gateway.store.changes = store.changes ++ (sent.filterMap (·.change.record?)).take count ∧
          count ≤ (sent.filterMap (·.change.record?)).length := by
  intro engine asked sent whole broken
  have htakes : Takes (execute rules context query) engine (course (orders rules context query) engine) :=
    follows_execute rules context query engine rfl
  have hasked : engine.gateway.OnlyAsked asked :=
    preserves_orders (Engine.asking_onlyAsked engine.gateway) rules context query engine (.refl _)
  have hchanges : asked.store.changes = store.changes := changes_eq_of_onlyAsked hasked
  have hrecorded : ∀ given : List Sending, (asked.store.after (given.map (·.change))).changes =
      store.changes ++ given.filterMap (·.change.record?) := by
    intro given
    rw [Store.changes_after, hchanges, List.filterMap_map]
    rfl
  have hleft : whole.2.gateway.store = asked.store.after (sent.map (·.change)) :=
    htakes.left_eq.trans (left_course _ engine)
  refine ⟨hasked, fun given hgiven => sent_course_prefix hgiven, hleft, hleft ▸ hrecorded sent, ?_⟩
  split
  · rename_i hpassed
    have hrun : broken = (whole.1, whole.2.faulted error (count - sent.length)) :=
      htakes.passed error count (List.getElem?_eq_none_iff.1 hpassed)
    rw [hrun]
    exact ⟨rfl, rfl⟩
  · rename_i failed hfailed
    obtain ⟨hanswer, hstore⟩ := htakes.stopped error count failed hfailed
    obtain ⟨hbefore, hsome⟩ := course_spec hfailed
    obtain ⟨hlt, -⟩ := List.getElem?_eq_some_iff.1 hfailed
    obtain ⟨htake, hcount⟩ := filterMap_take hsome hlt.le
    have hbroken : broken.2.gateway.store = asked.store.after ((sent.take count).map (·.change)) :=
      hstore.trans hbefore
    refine ⟨hanswer, hbroken, ?_, hcount⟩
    rw [hbroken, hrecorded]
    exact congrArg _ htake

/-- Two configurations are to be created and the connection to the store is lost after the first: the error is about the
second, and the first is there. -/
example :
    let query : Query := ⟨⟨[Node.ofBinding "a" "ConfigMap" [], Node.ofBinding "b" "ConfigMap" []], []⟩, .create⟩
    let engine := (Engine.ofStore (Store.ofObjects standardListings [])).faulted .workerStopped 1
    let broken := execute Rule.standard ⟨"default", false⟩ query engine
    cause? broken.1 = some (.store "b" "ConfigMap" .workerStopped) ∧
      broken.2.gateway.store.objects.map Document.name? = [some "a"] ∧ broken.2.gateway.store.changes.length = 1 := by
  decide +kernel

end Run

end ClusterQuery
