import LibubusJni.Poller.Slots

/-!
# Requests from the bus and their answers

An INVOKE that reaches `dummy_defer_cb` waits in the wrapper, then in the
native context of a request, until the reply the application has queued is run
by the poller.  The numbers of `deferred` follow it through these places.
-/

namespace LibubusJni.Poller

open LibubusJni.Lib LibubusJni.Libubox LibubusJni.Wrapper

/-- The INVOKE that a STATUS answers. -/
def SentMsg.statusSerial : SentMsg → Option Nat
  | .status _ _ _ _ serial => serial
  | .data .. => none

/-- The STATUS messages sent in answer to that INVOKE. -/
def PollerState.statusesOf (state : PollerState) (serial : Nat) :
    List SentMsg :=
  state.sent.filter fun msg => msg.statusSerial == some serial

/-- The contexts of INVOKE messages that are still to be answered. -/
def PollerState.Holds (state : PollerState) (incoming : Incoming) : Prop :=
  incoming ∈ state.ubusIncomingReqs ∨
    ∃ request, state.reqs request = some incoming

/-- What `dummy_defer_cb` keeps of a message. -/
def Incoming.IsOf (incoming : Incoming) (msg : InvokeMsg) : Prop :=
  incoming.seq = msg.seq ∧ incoming.peer = msg.peer ∧
    incoming.object = msg.object ∧ incoming.method = msg.method ∧
    some incoming.json = msg.data

/-- The message is answered by that one STATUS. -/
def PollerState.Answered (state : PollerState) (serial : Nat)
    (msg : InvokeMsg) : Prop :=
  ∃ code, state.statusesOf serial =
    [.status msg.seq msg.peer msg.object code (some serial)]

/-- `dummy_defer_cb` can answer or keep the message: fewer than 100 requests
are with the application, the message has its `UBUS_ATTR_DATA`, and it can be
kept or may be refused with a STATUS. -/
def ServesIncoming (state : PollerState) (action : PollerAction) : Prop :=
  ∀ msg alloc, action = .incoming msg alloc → msg.method ∈ msg.methods →
    state.acceptIncoming < 100 ∧ msg.data ≠ none ∧
      (alloc = true ∨ msg.noReply = false)

/-! ## The steps that have to do with requests -/

/-- Nothing happens to the INVOKE messages; at most a reply is queued. -/
structure SameServing (state next : PollerState) : Prop where
  reqs : next.reqs = state.reqs
  incoming : next.ubusIncomingReqs = state.ubusIncomingReqs
  deferred : next.deferred = state.deferred
  statuses : ∀ serial, next.statusesOf serial = state.statusesOf serial
  reqCount : next.reqCount = state.reqCount
  nullReply : next.nullReply = state.nullReply
  requests : ∀ request,
    (next.invokers (.request request)).invokable =
        (state.invokers (.request request)).invokable ∨
      (state.invokers (.request request)).starts = true ∧
        (next.invokers (.request request)).invokable = .ubusQueuedState

section Serving

variable {state next : PollerState} {action : PollerAction}
  {invoker : InvokerId}

theorem SameServing.refl (state : PollerState) : SameServing state state :=
  ⟨rfl, rfl, rfl, fun _ => rfl, rfl, rfl, fun _ => Or.inl rfl⟩

/-- The change of an invoker keeps its state, or the invoker is no request. -/
theorem SameServing.of_invokers
    (reqs : next.reqs = state.reqs)
    (incoming : next.ubusIncomingReqs = state.ubusIncomingReqs)
    (deferred : next.deferred = state.deferred)
    (sent : next.sent = state.sent) (reqCount : next.reqCount = state.reqCount)
    (nullReply : next.nullReply = state.nullReply)
    (requests : ∀ request,
      (next.invokers (.request request)).invokable =
          (state.invokers (.request request)).invokable ∨
        (state.invokers (.request request)).starts = true ∧
          (next.invokers (.request request)).invokable = .ubusQueuedState) :
    SameServing state next := by
  refine ⟨reqs, incoming, deferred, fun serial => ?_, reqCount, nullReply,
    requests⟩
  rw [PollerState.statusesOf, PollerState.statusesOf, sent]

theorem invokable_modify
    {change : Invoker → Invoker}
    (keeps : ∀ count, invoker = .request count →
      (change (state.invokers invoker)).invokable =
          (state.invokers invoker).invokable ∨
        (state.invokers invoker).starts = true ∧
          (change (state.invokers invoker)).invokable = .ubusQueuedState)
    (request : Nat) :
    ((state.modify invoker change).invokers (.request request)).invokable =
        (state.invokers (.request request)).invokable ∨
      (state.invokers (.request request)).starts = true ∧
        ((state.modify invoker change).invokers
          (.request request)).invokable = .ubusQueuedState := by
  by_cases same : .request request = invoker
  · subst same
    rw [PollerState.invokers_modify_self]
    exact keeps request rfl
  · rw [PollerState.invokers_modify_of_ne state same]
    exact Or.inl rfl

theorem SameServing.modify
    {change : Invoker → Invoker}
    (keeps : ∀ count, invoker = .request count →
      (change (state.invokers invoker)).invokable =
          (state.invokers invoker).invokable ∨
        (state.invokers invoker).starts = true ∧
          (change (state.invokers invoker)).invokable = .ubusQueuedState) :
    SameServing state (state.modify invoker change) :=
  .of_invokers rfl rfl rfl rfl rfl rfl (invokable_modify keeps)

theorem SameServing.add (state : PollerState) (invoker : InvokerId) :
    SameServing state (state.add invoker) := by
  rw [PollerState.add]
  split
  · exact .refl state
  · let mark : Invoker → Invoker := fun self => { self with mQueued := true }
    have marks : SameServing state (state.modify invoker mark) :=
      .modify fun _ _ => Or.inl rfl
    exact { marks with }

theorem SameServing.trans
    {last : PollerState} (first : SameServing state next)
    (second : SameServing next last)
    (unchanged : ∀ request, (next.invokers (.request request)).invokable =
      (state.invokers (.request request)).invokable) :
    SameServing state last := by
  refine ⟨second.reqs.trans first.reqs, second.incoming.trans first.incoming,
    second.deferred.trans first.deferred,
    fun serial => (second.statuses serial).trans (first.statuses serial),
    second.reqCount.trans first.reqCount,
    second.nullReply.trans first.nullReply, fun request => ?_⟩
  refine (second.requests request).imp ?_ ?_
  · exact fun same => same.trans (unchanged request)
  · rw [Invoker.starts_iff, Invoker.starts_iff, unchanged]
    exact id

theorem invokable_add (state : PollerState) (invoker other : InvokerId) :
    ((state.add invoker).invokers other).invokable =
      (state.invokers other).invokable := by
  by_cases same : other = invoker
  · subst same
    rw [PollerState.invokers_add_self]
  · rw [PollerState.invokers_add_of_ne state same]

theorem SameServing.addModify
    {change : Invoker → Invoker}
    (keeps : ∀ object : Invoker, (change object).invokable = object.invokable) :
    SameServing state ((state.add invoker).modify invoker change) :=
  (SameServing.add state invoker).trans
    (.modify fun _ _ => Or.inl (keeps _))
    (fun _ => invokable_add state invoker _)

/-- A thread inside `remoteInvoke` is at no request. -/
theorem PollerInv.requests_outside
    (inv : PollerInv state)
    (inside : (state.invokers invoker).caller ≠ .outside ∧
      (state.invokers invoker).caller ≠ .starting) :
    ∀ count, invoker ≠ .request count := by
  rintro count rfl
  have isCall := (inv.locals (.request count)).isCall_of_caller inside
  cases isCall

theorem SameServing.modify_call
    {change : Invoker → Invoker}
    (notRequest : ∀ count, invoker ≠ .request count) :
    SameServing state (state.modify invoker change) :=
  .modify fun count isRequest => absurd isRequest (notRequest count)

theorem SameServing.cancel
    (notRequest : ∀ count, invoker ≠ .request count) :
    SameServing state (state.cancel invoker) := by
  rw [PollerState.cancel]
  split
  · exact .modify_call notRequest
  · exact .addModify fun _ => rfl
  · exact .addModify fun _ => rfl
  · exact .modify_call notRequest

theorem SameServing.replyRequest
    (state : PollerState) (request : Nat) (json : Option String) :
    SameServing state (state.replyRequest request json) := by
  let answer : Invoker → Invoker := fun self =>
    { self with result := some (json.getD "\x7b\x7d") }
  have answers : SameServing state (state.modify (.request request) answer) :=
    .modify fun _ _ => Or.inl rfl
  rw [PollerState.replyRequest]
  split
  · refine answers.trans (.addModify fun _ => rfl) fun other => ?_
    by_cases same : other = request
    · subst same
      rw [PollerState.invokers_modify_self]
    · rw [PollerState.invokers_modify_of_ne state (by simpa using same)]
  · exact answers

theorem PollerInv.callerServes
    (inv : PollerInv state) (taken : state.callerStep action = some next) :
    SameServing state next := by
  cases action with
  | start invoker =>
      rw [PollerState.callerStep] at taken
      split at taken
      · cases taken
        exact .addModify fun _ => rfl
      · cases taken
  | settle invoker =>
      rw [PollerState.callerStep] at taken
      split at taken
      · rename_i starting
        cases taken
        refine .modify fun count isRequest => Or.inr ⟨?_, ?_⟩
        · exact (inv.locals invoker).starting starting
        · rw [isRequest]
          rfl
      · rename_i canceling
        cases taken
        exact .modify_call (inv.requests_outside (by simp [canceling]))
      · cases taken
  | elapse invoker =>
      rw [PollerState.callerStep] at taken
      split at taken
      · cases taken
        exact .modify fun _ _ => Or.inl rfl
      · cases taken
        exact .modify fun _ _ => Or.inl rfl
      · cases taken
  | timeout invoker =>
      rw [PollerState.callerStep] at taken
      split at taken
      · cases taken
        exact .modify fun _ _ => Or.inl rfl
      · cases taken
  | spurious invoker =>
      rw [PollerState.callerStep] at taken
      split at taken
      · cases taken
        exact .modify fun _ _ => Or.inl rfl
      · cases taken
        exact .modify fun _ _ => Or.inl rfl
      · cases taken
  | resume invoker =>
      rw [PollerState.callerStep] at taken
      split at taken
      · cases taken
      · split at taken
        · rename_i woken
          cases taken
          exact .cancel (inv.requests_outside (by simp [woken]))
        · cases taken
          exact .modify fun _ _ => Or.inl rfl
        · cases taken
  | accept =>
      rw [PollerState.callerStep] at taken
      split at taken
      · cases taken
      · cases taken
        exact { SameServing.refl state with }
  | reply request json =>
      rw [PollerState.callerStep] at taken
      split at taken
      · cases taken
        exact .replyRequest state request json
      · cases taken
  | dequeue | runBegin | runEnd | arrive | incoming | fetchBegin | fetchEnd
  | takeReturn | completeInvoke | pull =>
      cases taken

/-- What a step does to the INVOKE messages and the requests. -/
inductive Serving (state : PollerState) (action : PollerAction) :
    PollerState → Prop where
  | same {next : PollerState}
      (unknown : ∀ msg alloc, action = .incoming msg alloc →
        msg.method ∉ msg.methods)
      (same : SameServing state next) : Serving state action next
  | deferred (msg : InvokeMsg) (alloc : Bool)
      (isAction : action = .incoming msg alloc)
      (known : msg.method ∈ msg.methods) :
      Serving state action (state.dummyDeferCb msg alloc)
  | pulled {incoming : Incoming} {rest : List Incoming}
      (isAction : action = .pull)
      (first : state.ubusIncomingReqs = incoming :: rest) :
      Serving state action state.pull
  | replied (count : Nat) (connects parses : Bool) (start : StartOutcome)
      (isAction : action = .runBegin connects parses start)
      (queued : (state.invokers (.request count)).invokable =
        .ubusQueuedState) :
      Serving state action
        (((state.ubusWrapReply count
          (state.invokers (.request count)).result).modify (.request count)
            (·.complete .replied)).goto .drain)

theorem Serving.runState
    (inv : PollerInv state) {connects parses : Bool} {start : StartOutcome}
    (isAction : action = .runBegin connects parses start)
    (taken : state.runState invoker connects parses start = some next) :
    Serving state action next := by
  have unknown : ∀ msg alloc, action = .incoming msg alloc →
      msg.method ∉ msg.methods := by
    rw [isAction]
    simp
  rw [PollerState.runState] at taken
  split at taken
  · cases taken
    exact .same unknown { SameServing.refl state with }
  · rename_i queued
    cases invoker with
    | invoke call =>
        rw [PollerState.invokeNative] at taken
        dsimp only at taken
        split at taken
        · rw [Option.map_eq_some_iff] at taken
          obtain ⟨wrap, invokes, rfl⟩ := taken
          have calls : SameServing state (state.modify (.invoke call) fun self =>
              { self with nativeCalls := self.nativeCalls + 1 }) :=
            .modify_call (by simp)
          exact .same unknown { calls with }
        · cases taken
          have completes : SameServing state (state.modify (.invoke call)
              (·.complete (.noSlot state.allTaken))) := .modify_call (by simp)
          exact .same unknown { completes with }
    | addObject call =>
        rw [PollerState.invokeNative, Option.map_eq_some_iff] at taken
        obtain ⟨wrap, adds, rfl⟩ := taken
        exact .same unknown { SameServing.refl state with }
    | request count =>
        rw [PollerState.invokeNative] at taken
        cases taken
        exact .replied count connects parses start isAction queued
  · rename_i canceled
    obtain ⟨call, rfl⟩ := (inv.locals invoker).liveState (Or.inr canceled)
    rw [PollerState.jniAbort, Option.map_eq_some_iff] at taken
    obtain ⟨wrap, released, rfl⟩ := taken
    have completes : SameServing state (state.modify (.invoke call) fun self =>
        { self.complete .jniAbort with releases := self.releases + 1 }) :=
      .modify_call (by simp)
    exact .same unknown { completes with }
  · rename_i completed
    cases taken
    have completes : SameServing state
        (state.modify invoker (·.complete .javaAbort)) :=
      .modify fun _ _ => Or.inl completed.symm
    exact .same unknown { completes with }
  · cases taken
    exact .same unknown { SameServing.refl state with }
  · cases taken
    exact .same unknown { SameServing.refl state with }

theorem Serving.runEnd
    {start : StartOutcome} (taken : state.runEnd start = some next) :
    SameServing state next := by
  rw [PollerState.runEnd.eq_def] at taken
  split at taken
  · rename_i call index isPc
    rw [Option.map_eq_some_iff] at taken
    obtain ⟨wrap, returns, rfl⟩ := taken
    have binds : SameServing state (state.modify (.invoke call) fun self =>
        { self with index := index }.setState .ubusPendingState) :=
      .modify_call (by simp)
    exact { binds with }
  · rename_i call index isPc
    rw [Option.map_eq_some_iff] at taken
    obtain ⟨wrap, returns, rfl⟩ := taken
    split
    · exact { SameServing.refl state with }
    · have adds : SameServing state (state.modify (.addObject call) fun self =>
          { self with objectIndex := state.wrap.nobject }.complete
            .addedObject) := .modify_call (by simp)
      exact { adds with }
  · cases taken

theorem Serving.takeReturn (state : PollerState)
    (entries : List (Int × ContextId)) :
    SameServing state (state.takeReturn entries) := by
  rw [PollerState.takeReturn.eq_def]
  split
  · exact { SameServing.refl state with }
  · split
    · split
      · exact { SameServing.refl state with }
      · exact { SameServing.refl state with }
    · exact { SameServing.refl state with }

theorem Serving.incoming
    {msg : InvokeMsg} {alloc : Bool} (isAction : action = .incoming msg alloc) :
    Serving state action (state.ubusProcessInvoke msg alloc) := by
  rw [PollerState.ubusProcessInvoke]
  split
  · rename_i known
    exact .deferred msg alloc isAction known
  · rename_i unknown
    refine .same ?_
      { SameServing.refl state with statuses := fun serial => ?_ }
    · rintro other otherAlloc isOther
      rw [isAction] at isOther
      cases isOther
      exact unknown
    rw [PollerState.statusesOf, PollerState.ubusCompleteDeferredRequest,
      List.filter_append]
    exact List.append_nil _

theorem PollerInv.pollerServes
    (inv : PollerInv state) (taken : state.pollerStep action = some next) :
    Serving state action next := by
  cases action with
  | dequeue =>
      rw [PollerState.pollerStep] at taken
      split at taken
      · cases taken
        exact .same (by simp) { SameServing.refl state with }
      · rename_i invoker rest _ _
        cases taken
        have marks : SameServing state (state.modify invoker fun self =>
            { self with mQueued := false }) := .modify fun _ _ => Or.inl rfl
        exact .same (by simp) { marks with }
      · cases taken
  | runBegin connects parses start =>
      rw [PollerState.pollerStep] at taken
      split at taken
      · split at taken
        · cases taken
        · exact .runState inv rfl taken
      · cases taken
  | runEnd start =>
      exact .same (by simp) (Serving.runEnd taken)
  | arrive msg =>
      rw [PollerState.pollerStep] at taken
      split at taken
      any_goals contradiction
      all_goals
        rw [Option.map_eq_some_iff] at taken
        obtain ⟨wrap, arrives, rfl⟩ := taken
        exact .same (by simp) { SameServing.refl state with }
  | incoming msg alloc =>
      rw [PollerState.pollerStep] at taken
      split at taken
      · cases taken
        exact .incoming rfl
      · cases taken
  | fetchBegin =>
      rw [PollerState.pollerStep] at taken
      split at taken
      · rw [Option.map_eq_some_iff] at taken
        obtain ⟨wrap, fetches, rfl⟩ := taken
        exact .same (by simp) { SameServing.refl state with }
      · cases taken
  | fetchEnd =>
      rw [PollerState.pollerStep] at taken
      split at taken
      · rw [Option.map_eq_some_iff] at taken
        obtain ⟨wrap, fetches, rfl⟩ := taken
        exact .same (by simp) { SameServing.refl state with }
      · cases taken
  | takeReturn =>
      rw [PollerState.pollerStep] at taken
      split at taken
      · cases taken
        exact .same (by simp) (Serving.takeReturn state _)
      · cases taken
  | completeInvoke =>
      rw [PollerState.pollerStep] at taken
      split at taken
      · rename_i call context entries isPc
        split at taken
        · cases taken
        · rw [PollerState.completeInvoke, Option.map_eq_some_iff] at taken
          obtain ⟨wrap, released, rfl⟩ := taken
          have completes : SameServing state
              (state.modify (.invoke call) fun self =>
                { { self with
                    result :=
                      (state.wrap.wraps call).bind
                        WrapContext.result }.complete .completeInvoke with
                  releases := self.releases + 1 }) := .modify_call (by simp)
          exact .same (by simp) { completes with }
      · cases taken
  | pull =>
      rw [PollerState.pollerStep] at taken
      split at taken
      · split at taken
        · cases taken
        · cases taken
          cases first : state.ubusIncomingReqs with
          | nil =>
              rw [PollerState.pull, first]
              exact .same (by simp) { SameServing.refl state with }
          | cons incoming rest =>
              exact .pulled rfl first
      · cases taken
  | start | settle | elapse | timeout | spurious | resume | accept | reply =>
      cases taken

theorem PollerInv.serving
    (inv : PollerInv state) (taken : poller.step state action = some next) :
    Serving state action next := by
  have isStep : state.step action = some next := taken
  rw [PollerState.step] at isStep
  split at isStep
  · cases isStep
  · rcases Option.or_eq_some_iff.mp isStep with calls | ⟨_, polls⟩
    · refine .same ?_ (inv.callerServes calls)
      rintro msg alloc rfl
      cases calls
    · exact inv.pollerServes polls

end Serving

/-! ## The invariant of every run -/

/-- Where each INVOKE is that reached `dummy_defer_cb`, if it is anywhere. -/
structure ServeInv (state : PollerState) : Prop where
  balanced : state.deferred.Balanced
  queued : state.deferred.completed =
    state.deferred.handedOut ++ state.deferred.waiting
  waiting : state.deferred.waiting =
    state.ubusIncomingReqs.map Incoming.serial
  handed : state.deferred.handedOut.length = state.reqCount
  held : ∀ request incoming, state.reqs request = some incoming →
    state.deferred.handedOut[request]? = some incoming.serial
  own : ∀ incoming, state.Holds incoming →
    ∃ msg, state.deferred.issued[incoming.serial]? = some msg ∧
      incoming.IsOf msg
  unanswered : ∀ incoming, state.Holds incoming →
    state.statusesOf incoming.serial = []
  statuses : ∀ serial, state.statusesOf serial = [] ∨
    ∃ msg, state.deferred.issued[serial]? = some msg ∧
      state.Answered serial msg
  nullReply : state.nullReply = false

/-- A request that was pulled holds its context until its reply is run. -/
def RequestStates (state : PollerState) : Prop :=
  ∀ request, request < state.reqCount →
    state.reqs request ≠ none ∧
        ((state.invokers (.request request)).invokable =
            .ubusPendingRequestState ∨
          (state.invokers (.request request)).invokable =
            .ubusQueuedState) ∨
      state.reqs request = none ∧
        (state.invokers (.request request)).invokable = .ubusCompletedState

/-- No INVOKE that reached `dummy_defer_cb` is lost. -/
def NoneLost (state : PollerState) : Prop :=
  ∀ serial msg, state.deferred.issued[serial]? = some msg →
    state.statusesOf serial ≠ [] ∨
      ∃ incoming, state.Holds incoming ∧ incoming.serial = serial

section Serves

variable {state next : PollerState} {action : PollerAction}

theorem holds_congr
    (reqs : next.reqs = state.reqs)
    (incoming : next.ubusIncomingReqs = state.ubusIncomingReqs)
    (context : Incoming) : next.Holds context ↔ state.Holds context := by
  rw [PollerState.Holds, PollerState.Holds, reqs, incoming]

theorem ServeInv.same
    (inv : ServeInv state) (same : SameServing state next) :
    ServeInv next where
  balanced := same.deferred ▸ inv.balanced
  queued := same.deferred ▸ inv.queued
  waiting := by
    rw [same.deferred, same.incoming]
    exact inv.waiting
  handed := by
    rw [same.deferred, same.reqCount]
    exact inv.handed
  held := by
    rw [same.reqs, same.deferred]
    exact inv.held
  own := by
    intro incoming holds
    rw [same.deferred]
    exact inv.own incoming ((holds_congr same.reqs same.incoming _).mp holds)
  unanswered := by
    intro incoming holds
    rw [same.statuses]
    exact inv.unanswered incoming
      ((holds_congr same.reqs same.incoming _).mp holds)
  statuses := by
    intro serial
    simp only [PollerState.Answered, same.deferred, same.statuses]
    exact inv.statuses serial
  nullReply := same.nullReply.trans inv.nullReply

theorem RequestStates.same
    (states : RequestStates state) (same : SameServing state next) :
    RequestStates next := by
  intro request pulled
  rw [same.reqCount] at pulled
  rw [same.reqs]
  rcases same.requests request with unchanged | ⟨starts, queued⟩
  · rw [unchanged]
    exact states request pulled
  · rcases states request pulled with ⟨isHeld, _⟩ | ⟨_, completed⟩
    · exact Or.inl ⟨isHeld, Or.inr queued⟩
    · rw [Invoker.starts_iff, completed] at starts
      simp at starts

theorem noneLost_same (same : SameServing state next) :
    NoneLost next ↔ NoneLost state := by
  rw [NoneLost, NoneLost, same.deferred]
  simp only [same.statuses, holds_congr same.reqs same.incoming]

/-- The number the next INVOKE gets is not in use. -/
theorem ServeInv.next_unused
    (inv : ServeInv state) :
    state.statusesOf state.deferred.next = [] ∧
      (∀ incoming, state.Holds incoming →
        incoming.serial ≠ state.deferred.next) ∧
      state.deferred.next ∉ state.deferred.waiting := by
  have notIssued : state.deferred.issued[state.deferred.next]? = none :=
    List.getElem?_eq_none (Nat.le_refl _)
  refine ⟨?_, ?_, ?_⟩
  · refine (inv.statuses _).resolve_right ?_
    rintro ⟨msg, issued, _⟩
    rw [notIssued] at issued
    cases issued
  · intro incoming holds isNext
    obtain ⟨msg, issued, _⟩ := inv.own incoming holds
    rw [isNext, notIssued] at issued
    cases issued
  · intro waits
    have known := (inv.balanced.accounted state.deferred.next).mpr
      (Or.inr (Or.inl (inv.balanced.waiting_completed waits)))
    exact Nat.lt_irrefl _ known

theorem issued_of_issue
    {serial : Nat} {msg : InvokeMsg} (added : InvokeMsg)
    (issued : state.deferred.issued[serial]? = some msg) :
    (state.deferred.issue added).issued[serial]? = some msg := by
  have inRange := (List.getElem?_eq_some_iff.mp issued).1
  exact (List.getElem?_append_left inRange).trans issued

/-- An INVOKE reaches `dummy_defer_cb`. -/
theorem ServeInv.issue
    (inv : ServeInv state) (msg : InvokeMsg) :
    ServeInv { state with deferred := state.deferred.issue msg } :=
  { inv with
    balanced := inv.balanced.issue msg
    own := by
      intro incoming holds
      obtain ⟨other, issued, isOf⟩ := inv.own incoming holds
      exact ⟨other, issued_of_issue msg issued, isOf⟩
    statuses := by
      intro serial
      refine (inv.statuses serial).imp_right ?_
      rintro ⟨other, issued, answered⟩
      exact ⟨other, issued_of_issue msg issued, answered⟩ }

/-- The INVOKE that reached `dummy_defer_cb` last is neither kept nor
answered. -/
theorem ServeInv.lost
    (inv : ServeInv state) {msg : InvokeMsg}
    (issued : next.deferred.issued = (state.deferred.issue msg).issued)
    (statuses : next.sent = state.sent) (reqs : next.reqs = state.reqs)
    (incoming : next.ubusIncomingReqs = state.ubusIncomingReqs) :
    ¬ NoneLost next := by
  intro none
  obtain ⟨unanswered, unheld, _⟩ := inv.next_unused
  have isLast : next.deferred.issued[state.deferred.next]? = some msg := by
    rw [issued]
    exact List.getElem?_concat_length
  rcases none _ _ isLast with answered | ⟨context, holds, isNext⟩
  · rw [PollerState.statusesOf, statuses] at answered
    exact answered unanswered
  · exact unheld context ((holds_congr reqs incoming _).mp holds) isNext

/-- What was known of the other INVOKE messages stays known when one more is
kept or answered. -/
theorem noneLost_served
    (msg : InvokeMsg)
    (issued : next.deferred.issued = (state.deferred.issue msg).issued)
    (others : ∀ serial, serial ≠ state.deferred.next →
      (next.statusesOf serial ≠ [] ↔ state.statusesOf serial ≠ []) ∧
        ((∃ incoming, next.Holds incoming ∧ incoming.serial = serial) ↔
          ∃ incoming, state.Holds incoming ∧ incoming.serial = serial))
    (served : next.statusesOf state.deferred.next ≠ [] ∨
      ∃ incoming, next.Holds incoming ∧
        incoming.serial = state.deferred.next) :
    NoneLost next ↔ NoneLost state := by
  constructor
  · intro none serial other isIssued
    have inRange := (List.getElem?_eq_some_iff.mp isIssued).1
    have different : serial ≠ state.deferred.next := Nat.ne_of_lt inRange
    have known := none serial other (by
      rw [issued]
      exact issued_of_issue msg isIssued)
    rw [(others serial different).1, (others serial different).2] at known
    exact known
  · intro none serial other isIssued
    by_cases same : serial = state.deferred.next
    · rw [same]
      exact served
    · rw [(others serial same).1, (others serial same).2]
      refine none serial other ?_
      rw [issued] at isIssued
      have inRange := (List.getElem?_eq_some_iff.mp isIssued).1
      have before : serial < state.deferred.issued.length := by
        have bound : serial < state.deferred.issued.length + 1 := by
          simpa [Ledger.issue] using inRange
        exact Nat.lt_of_le_of_ne (Nat.le_of_lt_succ bound) same
      exact (List.getElem?_append_left before).symm.trans isIssued

/-- The message is kept in the wrapper. -/
theorem ServeInv.kept
    (inv : ServeInv state) {msg : InvokeMsg} {json : String}
    (hasData : msg.data = some json) :
    let serial := state.deferred.next
    ServeInv
      { state with
        ubusIncomingReqs :=
          listAddTail
            ⟨msg.object, msg.peer, msg.seq, msg.method, json, serial⟩
            state.ubusIncomingReqs
        deferred := (state.deferred.issue msg).complete serial } := by
  intro serial
  obtain ⟨unanswered, _, _⟩ := inv.next_unused
  have isOpen : serial ∈ (state.deferred.issue msg).opened :=
    List.mem_append_right _ (List.mem_singleton_self _)
  have issued := inv.issue msg
  refine { issued with
    balanced := issued.balanced.complete isOpen
    queued := ?_
    waiting := ?_
    own := ?_
    unanswered := ?_ }
  · exact (congrArg (· ++ [serial]) inv.queued).trans
      (List.append_assoc _ _ _)
  · let added : Incoming :=
      ⟨msg.object, msg.peer, msg.seq, msg.method, json, serial⟩
    have waiting : state.deferred.waiting ++ [serial] =
        (state.ubusIncomingReqs ++ [added]).map Incoming.serial := by
      rw [List.map_append, ← inv.waiting]
      rfl
    exact waiting
  · intro incoming holds
    rcases holds with waits | held
    · rcases mem_listAddTail.mp waits with waits | isNew
      · exact issued.own incoming (Or.inl waits)
      · subst isNew
        refine ⟨msg, List.getElem?_concat_length, rfl, rfl, rfl, rfl, ?_⟩
        exact hasData.symm
    · exact issued.own incoming (Or.inr held)
  · intro incoming holds
    rcases holds with waits | held
    · rcases mem_listAddTail.mp waits with waits | isNew
      · exact inv.unanswered incoming (Or.inl waits)
      · subst isNew
        exact unanswered
    · exact inv.unanswered incoming (Or.inr held)

/-- The message is refused. -/
theorem ServeInv.refused
    (inv : ServeInv state) (msg : InvokeMsg) :
    ServeInv
      { state with
        deferred :=
          (state.deferred.issue msg).drop state.deferred.next } := by
  obtain ⟨_, _, notWaiting⟩ := inv.next_unused
  have isOpen : state.deferred.next ∈ (state.deferred.issue msg).opened :=
    List.mem_append_right _ (List.mem_singleton_self _)
  have issued := inv.issue msg
  have sameWaiting : ((state.deferred.issue msg).drop
      state.deferred.next).waiting = state.deferred.waiting :=
    List.erase_of_not_mem notWaiting
  refine { issued with
    balanced := issued.balanced.drop (Or.inl isOpen)
    queued := ?_
    waiting := ?_ }
  · dsimp only
    rw [sameWaiting]
    exact inv.queued
  · dsimp only
    rw [sameWaiting]
    exact inv.waiting

theorem statusesOf_answer
    (seq : UInt16) (peer object : UInt32) (code : UInt32)
    (answered serial : Nat) :
    (state.ubusCompleteDeferredRequest seq peer object code
        (some answered)).statusesOf serial =
      state.statusesOf serial ++
        if answered = serial then
          [.status seq peer object code (some answered)]
        else [] := by
  rw [PollerState.statusesOf, PollerState.ubusCompleteDeferredRequest,
    List.filter_append, PollerState.statusesOf]
  congr 1
  by_cases same : answered = serial
  · simp [SentMsg.statusSerial, same]
  · simp [SentMsg.statusSerial, same]

/-- An INVOKE that nothing holds is answered by its first STATUS. -/
theorem ServeInv.answered
    (inv : ServeInv state) {serial : Nat} {msg : InvokeMsg}
    (issued : state.deferred.issued[serial]? = some msg)
    (unheld : ∀ incoming, state.Holds incoming → incoming.serial ≠ serial)
    (unanswered : state.statusesOf serial = []) (code : UInt32) :
    ServeInv
      (state.ubusCompleteDeferredRequest msg.seq msg.peer msg.object code
        (some serial)) := by
  refine { inv with
    unanswered := ?_
    statuses := ?_ }
  · intro incoming holds
    rw [statusesOf_answer, inv.unanswered incoming holds,
      if_neg (Ne.symm (unheld incoming holds))]
    rfl
  · intro other
    by_cases same : serial = other
    · subst same
      refine Or.inr ⟨msg, issued, code, ?_⟩
      rw [statusesOf_answer, unanswered, if_pos rfl]
      rfl
    · have unchanged : (state.ubusCompleteDeferredRequest msg.seq msg.peer
          msg.object code (some serial)).statusesOf other =
            state.statusesOf other := by
        rw [statusesOf_answer, if_neg same, List.append_nil]
      simp only [PollerState.Answered, unchanged]
      exact inv.statuses other

/-- A request gives its context up. -/
theorem ServeInv.letGo
    (inv : ServeInv state) (request : Nat) :
    ServeInv
      { state with reqs := Function.update state.reqs request none } := by
  have fewer : ∀ other incoming,
      Function.update state.reqs request none other = some incoming →
        state.reqs other = some incoming := by
    intro other incoming isHeld
    by_cases same : other = request
    · subst same
      rw [Function.update_self] at isHeld
      cases isHeld
    · rw [Function.update_of_ne same] at isHeld
      exact isHeld
  have held : ∀ incoming, PollerState.Holds
      { state with reqs := Function.update state.reqs request none }
        incoming → state.Holds incoming := by
    rintro incoming (waits | ⟨other, isHeld⟩)
    · exact Or.inl waits
    · exact Or.inr ⟨other, fewer other incoming isHeld⟩
  exact { inv with
    held := fun other incoming isHeld =>
      inv.held other incoming (fewer other incoming isHeld)
    own := fun incoming holds => inv.own incoming (held incoming holds)
    unanswered := fun incoming holds =>
      inv.unanswered incoming (held incoming holds) }

/-- Each number is held in one place. -/
theorem ServeInv.held_once
    (inv : ServeInv state) {request : Nat} {incoming other : Incoming}
    (isHeld : state.reqs request = some incoming)
    (holds : state.Holds other) (same : other.serial = incoming.serial) :
    state.reqs request = some other ∧
      ∀ owner, state.reqs owner = some other → owner = request := by
  have nodup := inv.balanced.handedOut_waiting_nodup
  have handed := inv.held request incoming isHeld
  have owners : ∀ owner context, state.reqs owner = some context →
      context.serial = incoming.serial → owner = request := by
    intro owner context isOwner isSerial
    have otherHanded := inv.held owner context isOwner
    rw [isSerial] at otherHanded
    have inRange := (List.getElem?_eq_some_iff.mp otherHanded).1
    exact (List.getElem?_inj inRange (List.nodup_append'.mp nodup).1).mp
      (otherHanded.trans handed.symm)
  rcases holds with waits | ⟨owner, isOwner⟩
  · have isWaiting : incoming.serial ∈ state.deferred.waiting := by
      rw [inv.waiting, ← same]
      exact List.mem_map_of_mem waits
    exact absurd isWaiting
      (inv.balanced.handedOut_not_waiting (List.mem_of_getElem? handed))
  · have isRequest := owners owner other isOwner same
    subst isRequest
    exact ⟨isOwner, fun owner isOwner => owners owner other isOwner same⟩

theorem noneLost_congr
    (issued : next.deferred.issued = state.deferred.issued)
    (places : ∀ serial,
      (next.statusesOf serial ≠ [] ∨
          ∃ incoming, next.Holds incoming ∧ incoming.serial = serial) ↔
        state.statusesOf serial ≠ [] ∨
          ∃ incoming, state.Holds incoming ∧ incoming.serial = serial) :
    NoneLost next ↔ NoneLost state := by
  rw [NoneLost, NoneLost, issued]
  simp only [places]

theorem SameServing.sendReply (state : PollerState) (req : Incoming)
    (json : String) : SameServing state (state.ubusSendReply req json) := by
  refine { SameServing.refl state with statuses := fun serial => ?_ }
  rw [PollerState.statusesOf, PollerState.ubusSendReply, List.filter_append]
  exact List.append_nil _

/-- What is held behind `upp->req = NULL`. -/
theorem ServeInv.holds_letGo
    (inv : ServeInv state) {request : Nat} {incoming : Incoming}
    (isHeld : state.reqs request = some incoming) (other : Incoming) :
    PollerState.Holds
        { state with reqs := Function.update state.reqs request none } other ↔
      state.Holds other ∧ other.serial ≠ incoming.serial := by
  constructor
  · rintro (waits | ⟨owner, isOwner⟩)
    · refine ⟨Or.inl waits, fun sameSerial => ?_⟩
      have isWaiting : incoming.serial ∈ state.deferred.waiting := by
        rw [inv.waiting, ← sameSerial]
        exact List.mem_map_of_mem waits
      exact inv.balanced.handedOut_not_waiting
        (List.mem_of_getElem? (inv.held request incoming isHeld)) isWaiting
    · dsimp only at isOwner
      by_cases same : owner = request
      · rw [same, Function.update_self] at isOwner
        cases isOwner
      · rw [Function.update_of_ne same] at isOwner
        refine ⟨Or.inr ⟨owner, isOwner⟩, fun sameSerial => same ?_⟩
        exact (inv.held_once isHeld (Or.inr ⟨owner, isOwner⟩) sameSerial).2
          owner isOwner
  · rintro ⟨waits | ⟨owner, isOwner⟩, different⟩
    · exact Or.inl waits
    · refine Or.inr ⟨owner, ?_⟩
      have notRequest : owner ≠ request := by
        rintro rfl
        rw [isHeld, Option.some.injEq] at isOwner
        exact different (congrArg Incoming.serial isOwner).symm
      exact (Function.update_of_ne notRequest _ _).trans isOwner

/-- What else `ubus_wrap_reply` changes. -/
theorem ubusWrapReply_fields
    {request : Nat} {incoming : Incoming}
    (isHeld : state.reqs request = some incoming) (json : Option String) :
    (state.ubusWrapReply request json).deferred = state.deferred ∧
      (state.ubusWrapReply request json).ubusIncomingReqs =
        state.ubusIncomingReqs ∧
      (state.ubusWrapReply request json).reqs =
        Function.update state.reqs request none ∧
      (state.ubusWrapReply request json).invokers = state.invokers ∧
      (state.ubusWrapReply request json).reqCount = state.reqCount := by
  rw [PollerState.ubusWrapReply, isHeld]
  cases json with
  | none =>
      exact ⟨rfl, rfl, rfl, rfl, rfl⟩
  | some text =>
      exact ⟨rfl, rfl, rfl, rfl, rfl⟩

theorem statusesOf_ubusWrapReply
    {request : Nat} {incoming : Incoming}
    (isHeld : state.reqs request = some incoming) (json : Option String)
    (serial : Nat) :
    (state.ubusWrapReply request json).statusesOf serial =
      state.statusesOf serial ++
        if incoming.serial = serial then
          [.status incoming.seq incoming.peer incoming.object 0
            (some incoming.serial)]
        else [] := by
  cases json with
  | none =>
      rw [PollerState.ubusWrapReply, isHeld]
      exact statusesOf_answer _ _ _ _ _ _
  | some text =>
      rw [PollerState.ubusWrapReply, isHeld]
      refine (statusesOf_answer _ _ _ _ _ _).trans ?_
      rw [(SameServing.sendReply state incoming text).statuses]

/-- `ubus_wrap_reply` with a context in hand answers its INVOKE. -/
theorem ServeInv.replied
    (inv : ServeInv state) {request : Nat} {incoming : Incoming}
    (isHeld : state.reqs request = some incoming) (json : Option String) :
    ServeInv (state.ubusWrapReply request json) ∧
      (NoneLost (state.ubusWrapReply request json) ↔ NoneLost state) := by
  obtain ⟨msg, issued, isSeq, isPeer, isObject, _⟩ :=
    inv.own incoming (Or.inr ⟨request, isHeld⟩)
  let free : PollerState :=
    { state with reqs := Function.update state.reqs request none }
  have unanswered := inv.unanswered incoming (Or.inr ⟨request, isHeld⟩)
  have unheld : ∀ other, free.Holds other →
      other.serial ≠ incoming.serial := fun other holds =>
    ((inv.holds_letGo isHeld other).mp holds).2
  have answers : ∀ {sending : PollerState}, SameServing free sending →
      ServeInv (sending.ubusCompleteDeferredRequest incoming.seq incoming.peer
        incoming.object 0 (some incoming.serial)) := by
    intro sending sends
    rw [isSeq, isPeer, isObject]
    refine ((inv.letGo request).same sends).answered ?_ ?_ ?_ 0
    · rw [sends.deferred]
      exact issued
    · intro other holds
      exact unheld other
        ((holds_congr sends.reqs sends.incoming _).mp holds)
    · rw [sends.statuses]
      exact unanswered
  obtain ⟨deferred, queue, reqs, _⟩ := ubusWrapReply_fields isHeld json
  constructor
  · rw [PollerState.ubusWrapReply, isHeld]
    cases json with
    | none =>
        exact { answers (.refl free) with }
    | some text =>
        exact { answers (.sendReply free incoming text) with }
  · refine noneLost_congr (congrArg Ledger.issued deferred) fun serial => ?_
    have holds : ∀ other, (state.ubusWrapReply request json).Holds other ↔
        state.Holds other ∧ other.serial ≠ incoming.serial := by
      intro other
      refine Iff.trans ?_ (inv.holds_letGo isHeld other)
      rw [PollerState.Holds, PollerState.Holds, queue, reqs]
    rw [statusesOf_ubusWrapReply isHeld]
    by_cases same : incoming.serial = serial
    · rw [if_pos same]
      refine iff_of_true (Or.inl ?_)
        (Or.inr ⟨incoming, Or.inr ⟨request, isHeld⟩, same⟩)
      exact List.append_ne_nil_of_right_ne_nil _ (List.cons_ne_nil _ _)
    · rw [if_neg same, List.append_nil]
      refine or_congr Iff.rfl (exists_congr fun other => ?_)
      rw [holds, and_assoc]
      refine and_congr Iff.rfl (and_iff_right_of_imp ?_)
      rintro rfl
      exact Ne.symm same

/-- The number of the first context is handed out. -/
theorem ServeInv.handedOut_pull
    (inv : ServeInv state) {incoming : Incoming} {rest : List Incoming}
    (first : state.ubusIncomingReqs = incoming :: rest) :
    state.pull.deferred.handedOut =
      state.deferred.handedOut ++ [incoming.serial] := by
  have waiting : state.deferred.waiting =
      incoming.serial :: rest.map Incoming.serial := by
    rw [inv.waiting, first, List.map_cons]
  rw [PollerState.pull, first]
  dsimp only
  rw [Ledger.handOut, waiting]
  rfl

/-- `ubus_wrap_accept_request` moves the first context to the request. -/
theorem ServeInv.pulled
    (inv : ServeInv state) {incoming : Incoming} {rest : List Incoming}
    (first : state.ubusIncomingReqs = incoming :: rest) :
    ServeInv state.pull ∧ (NoneLost state.pull ↔ NoneLost state) := by
  have unheld : state.reqs state.reqCount = none := by
    by_contra isHeld
    obtain ⟨other, isHeld⟩ := Option.ne_none_iff_exists'.mp isHeld
    have handed := inv.held _ _ isHeld
    rw [← inv.handed] at handed
    exact absurd handed (by simp)
  have fields : state.pull.ubusIncomingReqs = rest ∧
      state.pull.reqs =
        Function.update state.reqs state.reqCount (some incoming) ∧
      state.pull.deferred = state.deferred.handOut ∧
      state.pull.sent = state.sent ∧
      state.pull.reqCount = state.reqCount + 1 ∧
      state.pull.nullReply = state.nullReply := by
    rw [PollerState.pull, first]
    exact ⟨rfl, rfl, rfl, rfl, rfl, rfl⟩
  obtain ⟨queue, reqs, deferred, sent, reqCount, nullReply⟩ := fields
  have statuses : ∀ serial,
      state.pull.statusesOf serial = state.statusesOf serial := by
    intro serial
    rw [PollerState.statusesOf, PollerState.statusesOf, sent]
  have holds : ∀ other, state.pull.Holds other ↔ state.Holds other := by
    intro other
    rw [PollerState.Holds, PollerState.Holds, queue, reqs, first]
    constructor
    · rintro (waits | ⟨owner, isOwner⟩)
      · exact Or.inl (List.mem_cons_of_mem _ waits)
      · by_cases same : owner = state.reqCount
        · rw [same, Function.update_self, Option.some.injEq] at isOwner
          rw [isOwner]
          exact Or.inl List.mem_cons_self
        · rw [Function.update_of_ne same] at isOwner
          exact Or.inr ⟨owner, isOwner⟩
    · rintro (waits | ⟨owner, isOwner⟩)
      · rcases List.mem_cons.mp waits with isFirst | later
        · subst isFirst
          exact Or.inr ⟨state.reqCount, Function.update_self _ _ _⟩
        · exact Or.inl later
      · refine Or.inr ⟨owner, ?_⟩
        have different : owner ≠ state.reqCount := by
          rintro rfl
          rw [unheld] at isOwner
          cases isOwner
        rw [Function.update_of_ne different]
        exact isOwner
  have waiting : state.deferred.waiting =
      incoming.serial :: rest.map Incoming.serial := by
    rw [inv.waiting, first, List.map_cons]
  have handedOut : state.deferred.handOut.handedOut =
      state.deferred.handedOut ++ [incoming.serial] := by
    rw [← deferred]
    exact inv.handedOut_pull first
  refine ⟨{ balanced := ?_, queued := ?_, waiting := ?_, handed := ?_,
            held := ?_, own := ?_, unanswered := ?_, statuses := ?_,
            nullReply := nullReply.trans inv.nullReply }, ?_⟩
  · rw [deferred]
    exact inv.balanced.handOut
  · rw [deferred, handedOut, List.append_assoc]
    refine inv.queued.trans ?_
    rw [waiting, Ledger.handOut, waiting]
    rfl
  · rw [deferred, queue, Ledger.handOut, waiting]
    rfl
  · rw [deferred, handedOut, reqCount, List.length_append, inv.handed]
    rfl
  · intro owner other isOwner
    rw [reqs] at isOwner
    rw [deferred, handedOut]
    by_cases same : owner = state.reqCount
    · rw [same, Function.update_self, Option.some.injEq] at isOwner
      rw [same, ← inv.handed, ← isOwner]
      exact List.getElem?_concat_length
    · rw [Function.update_of_ne same] at isOwner
      have handed := inv.held owner other isOwner
      have inRange := (List.getElem?_eq_some_iff.mp handed).1
      exact (List.getElem?_append_left inRange).trans handed
  · intro other isHeld
    rw [deferred]
    exact inv.own other ((holds other).mp isHeld)
  · intro other isHeld
    rw [statuses]
    exact inv.unanswered other ((holds other).mp isHeld)
  · intro serial
    simp only [PollerState.Answered, statuses, deferred]
    exact inv.statuses serial
  · refine noneLost_congr ?_ fun serial => ?_
    · rw [deferred]
      rfl
    · rw [statuses]
      simp only [holds]

/-- What `dummy_defer_cb` does to the INVOKE messages. -/
theorem ServeInv.deferred
    (inv : ServeInv state) (msg : InvokeMsg) (alloc : Bool)
    (known : msg.method ∈ msg.methods) :
    ServeInv (state.dummyDeferCb msg alloc) ∧
      (NoneLost (state.dummyDeferCb msg alloc) ↔
        NoneLost state ∧ state.acceptIncoming < 100 ∧ msg.data ≠ none ∧
          (alloc = true ∨ msg.noReply = false)) := by
  obtain ⟨unanswered, unheld, _⟩ := inv.next_unused
  have unchanged : ∀ {next : PollerState}, next.sent = state.sent →
      next.reqs = state.reqs →
        next.ubusIncomingReqs = state.ubusIncomingReqs →
          next.deferred.issued = (state.deferred.issue msg).issued →
            ¬ NoneLost next := by
    intro next sent reqs incoming issued
    exact inv.lost issued sent reqs incoming
  rw [PollerState.dummyDeferCb]
  dsimp only
  split
  · rename_i full
    refine ⟨{ inv.issue msg with }, iff_of_false ?_ ?_⟩
    · exact unchanged rfl rfl rfl rfl
    · rintro ⟨_, free, _⟩
      exact absurd free (Int.not_lt.mpr full)
  · rename_i free
    have isFree : state.acceptIncoming < 100 := Int.not_le.mp free
    split
    · rename_i noData
      refine ⟨{ inv.issue msg with }, iff_of_false ?_ ?_⟩
      · exact unchanged rfl rfl rfl rfl
      · rintro ⟨_, _, hasData, _⟩
        exact hasData noData
    · rename_i json hasData
      have isData : msg.data ≠ none := by
        rw [hasData]
        simp
      split
      · rename_i isKept
        refine ⟨inv.kept hasData, ?_⟩
        refine Iff.trans ?_
          (and_iff_left ⟨isFree, isData, Or.inl isKept.2⟩).symm
        refine noneLost_served msg rfl (fun serial different => ?_) ?_
        · refine ⟨Iff.rfl, exists_congr fun incoming => ?_⟩
          refine and_congr_left fun isSerial => ?_
          refine or_congr_left (mem_listAddTail.trans (or_iff_left ?_))
          rintro rfl
          exact different isSerial.symm
        · exact Or.inr ⟨_, Or.inl (mem_listAddTail.mpr (Or.inr rfl)), rfl⟩
      · rename_i notKept
        have notAlloc : alloc ≠ true := fun isAlloc => notKept ⟨known, isAlloc⟩
        split
        · rename_i noReply
          refine ⟨inv.refused msg, iff_of_false ?_ ?_⟩
          · exact unchanged rfl rfl rfl rfl
          · rintro ⟨_, _, _, isAlloc | mayReply⟩
            · exact notAlloc isAlloc
            · rw [noReply] at mayReply
              cases mayReply
        · rename_i mayReply
          have refused := inv.refused msg
          have issued : ((state.deferred.issue msg).drop
              state.deferred.next).issued[state.deferred.next]? = some msg :=
            List.getElem?_concat_length
          refine ⟨refused.answered issued unheld unanswered _, ?_⟩
          refine Iff.trans ?_ (and_iff_left ⟨isFree, isData,
            Or.inr (Bool.eq_false_iff.mpr mayReply)⟩).symm
          refine noneLost_served msg rfl (fun serial different => ?_) ?_
          · rw [statusesOf_answer, if_neg (Ne.symm different), List.append_nil]
            exact ⟨Iff.rfl, Iff.rfl⟩
          · rw [statusesOf_answer, if_pos rfl]
            exact Or.inl (List.append_ne_nil_of_right_ne_nil _
              (List.cons_ne_nil _ _))

end Serves

/-! ## Every run -/

section Runs

variable {state next : PollerState} {action : PollerAction}

/-- A reply that is run finds the context of its request. -/
theorem held_of_queued
    (slots : PollerInv state) (states : RequestStates state) {count : Nat}
    (queued : (state.invokers (.request count)).invokable =
      .ubusQueuedState) : ∃ incoming, state.reqs count = some incoming := by
  have pulled : count < state.reqCount := by
    refine slots.request_lt fun untouched => ?_
    rw [untouched] at queued
    cases queued
  rcases states count pulled with ⟨isHeld, _⟩ | ⟨_, completed⟩
  · exact Option.ne_none_iff_exists'.mp isHeld
  · rw [queued] at completed
    cases completed

theorem RequestStates.pulled
    (states : RequestStates state) {incoming : Incoming}
    {rest : List Incoming} (first : state.ubusIncomingReqs = incoming :: rest) :
    RequestStates state.pull := by
  rw [PollerState.pull, first]
  intro request pulled
  dsimp only
  by_cases same : request = state.reqCount
  · subst same
    rw [Function.update_self, PollerState.invokers_modify_self]
    exact Or.inl ⟨by simp, Or.inl rfl⟩
  · have before : request < state.reqCount :=
      Nat.lt_of_le_of_ne (Nat.le_of_lt_succ pulled) same
    rw [Function.update_of_ne same,
      PollerState.invokers_modify_of_ne state (by simpa using same)]
    exact states request before

/-- The reply of a request completes it and frees its context. -/
theorem RequestStates.replied
    (states : RequestStates state) {count : Nat} {incoming : Incoming}
    (isHeld : state.reqs count = some incoming) (json : Option String) :
    RequestStates
      (((state.ubusWrapReply count json).modify (.request count)
        (·.complete .replied)).goto .drain) := by
  obtain ⟨_, _, reqs, invokers, reqCount⟩ := ubusWrapReply_fields isHeld json
  intro request pulled
  have before : request < state.reqCount := reqCount ▸ pulled
  by_cases same : request = count
  · subst same
    refine Or.inr ⟨?_, ?_⟩
    · exact (congrFun reqs request).trans (Function.update_self _ _ _)
    · exact congrArg Invoker.invokable
        (PollerState.invokers_modify_self _ _ (·.complete .replied))
  · have different : InvokerId.request request ≠ .request count := by
      simpa using same
    have sameReqs : (state.ubusWrapReply count json).reqs request =
        state.reqs request :=
      (congrFun reqs request).trans (Function.update_of_ne same _ _)
    have sameInvoker : (((state.ubusWrapReply count json).modify
        (.request count) (·.complete .replied)).goto .drain).invokers
          (.request request) = state.invokers (.request request) :=
      (PollerState.invokers_modify_of_ne _ different
        (·.complete .replied)).trans (congrFun invokers _)
    rw [sameInvoker]
    refine (states request before).imp ?_ ?_
    · exact And.imp_left fun isHeld => sameReqs ▸ isHeld
    · exact And.imp_left sameReqs.trans

theorem RequestStates.deferred
    (states : RequestStates state) (msg : InvokeMsg) (alloc : Bool) :
    RequestStates (state.dummyDeferCb msg alloc) := by
  rw [PollerState.dummyDeferCb]
  dsimp only
  split
  · exact states
  · split
    · exact states
    · split
      · exact states
      · split
        · exact states
        · exact states

/-- The invariants of the slots, of the requests and of the INVOKE messages. -/
structure RequestInv (state : PollerState) : Prop where
  slots : PollerInv state
  serve : ServeInv state
  states : RequestStates state

theorem RequestInv.init : RequestInv poller.init where
  slots := PollerInv.init
  serve :=
    { balanced := Ledger.Balanced.empty
      queued := rfl
      waiting := rfl
      handed := rfl
      held := nofun
      own := by
        rintro incoming (waits | ⟨_, isHeld⟩)
        · cases waits
        · cases isHeld
      unanswered := fun _ _ => rfl
      statuses := fun _ => Or.inl rfl
      nullReply := rfl }
  states := nofun

theorem RequestInv.step
    (inv : RequestInv state)
    (taken : poller.step state action = some next) :
    RequestInv next ∧
      (NoneLost next ↔ NoneLost state ∧ ServesIncoming state action) := by
  have nextSlots := (inv.slots.step taken).1
  have unconcerned : (∀ msg alloc, action = .incoming msg alloc →
      msg.method ∉ msg.methods) → ServesIncoming state action :=
    fun unknown msg alloc isAction known =>
      absurd known (unknown msg alloc isAction)
  cases inv.slots.serving taken with
  | same unknown same =>
      refine ⟨⟨nextSlots, inv.serve.same same, inv.states.same same⟩, ?_⟩
      rw [noneLost_same same]
      exact (and_iff_left (unconcerned unknown)).symm
  | deferred msg alloc isAction known =>
      obtain ⟨serve, noneLost⟩ := inv.serve.deferred msg alloc known
      refine ⟨⟨nextSlots, serve, inv.states.deferred msg alloc⟩, ?_⟩
      rw [noneLost]
      refine and_congr_right fun _ => ⟨fun serves => ?_, fun serves => ?_⟩
      · rintro other otherAlloc isOther _
        rw [isAction] at isOther
        cases isOther
        exact serves
      · exact serves msg alloc isAction known
  | pulled isAction first =>
      obtain ⟨serve, noneLost⟩ := inv.serve.pulled first
      refine ⟨⟨nextSlots, serve, inv.states.pulled first⟩, ?_⟩
      rw [noneLost]
      refine (and_iff_left (unconcerned ?_)).symm
      rw [isAction]
      nofun
  | replied count connects parses start isAction queued =>
      obtain ⟨incoming, isHeld⟩ :=
        held_of_queued inv.slots inv.states queued
      obtain ⟨serve, noneLost⟩ := inv.serve.replied isHeld
        (state.invokers (.request count)).result
      refine ⟨⟨nextSlots, { serve with }, inv.states.replied isHeld _⟩, ?_⟩
      refine Iff.trans noneLost (and_iff_left (unconcerned ?_)).symm
      rw [isAction]
      nofun

/-- The requests are accepted in the order their messages were kept, and each
message that reached `dummy_defer_cb` is answered by one STATUS of its own, or
is still in the wrapper or with a request whose reply has not been run. -/
structure RequestsServed (state : PollerState) : Prop where
  accepted : state.javaAccepted ++ state.mRequestQueue =
    List.range state.reqCount
  pulled : state.deferred.handedOut.length = state.reqCount
  inOrder : state.deferred.completed =
    state.deferred.handedOut ++ state.ubusIncomingReqs.map Incoming.serial
  once : state.deferred.completed.Nodup
  served : ∀ serial msg, state.deferred.issued[serial]? = some msg →
    state.Answered serial msg ∨
      state.statusesOf serial = [] ∧
        ∃ incoming, state.Holds incoming ∧ incoming.serial = serial ∧
          incoming.IsOf msg
  known : ∀ serial, state.statusesOf serial ≠ [] →
    serial < state.deferred.issued.length
  held : ∀ request incoming, state.reqs request = some incoming →
    state.deferred.handedOut[request]? = some incoming.serial ∧
      (state.invokers (.request request)).invokable ≠ .ubusCompletedState
  replied : ∀ request serial, state.deferred.handedOut[request]? =
      some serial →
    (state.invokers (.request request)).invokable = .ubusCompletedState →
      ∃ msg, state.deferred.issued[serial]? = some msg ∧
        state.Answered serial msg
  nullReply : state.nullReply = false

theorem RequestInv.served_of_noneLost
    (inv : RequestInv state) (noneLost : NoneLost state)
    {serial : Nat} {msg : InvokeMsg}
    (issued : state.deferred.issued[serial]? = some msg) :
    state.Answered serial msg ∨
      state.statusesOf serial = [] ∧
        ∃ incoming, state.Holds incoming ∧ incoming.serial = serial ∧
          incoming.IsOf msg := by
  rcases inv.serve.statuses serial with unanswered | ⟨other, isOther, answered⟩
  · refine Or.inr ⟨unanswered, ?_⟩
    rcases noneLost serial msg issued with answered | ⟨incoming, holds, same⟩
    · exact absurd unanswered answered
    · obtain ⟨other, isOther, isOf⟩ := inv.serve.own incoming holds
      rw [same, issued, Option.some.injEq] at isOther
      exact ⟨incoming, holds, same, isOther ▸ isOf⟩
  · rw [issued, Option.some.injEq] at isOther
    exact Or.inl (isOther ▸ answered)

/-- A request whose reply was run holds no context, so its INVOKE is
answered. -/
theorem RequestInv.replied
    (inv : RequestInv state) (noneLost : NoneLost state)
    {request serial : Nat}
    (handed : state.deferred.handedOut[request]? = some serial)
    (completed : (state.invokers (.request request)).invokable =
      .ubusCompletedState) :
    ∃ msg, state.deferred.issued[serial]? = some msg ∧
      state.Answered serial msg := by
  have pulled : request < state.reqCount := by
    rw [← inv.serve.handed]
    exact (List.getElem?_eq_some_iff.mp handed).1
  have freed : state.reqs request = none := by
    rcases inv.states request pulled with ⟨_, isState⟩ | ⟨freed, _⟩
    · rw [completed] at isState
      simp at isState
    · exact freed
  have isHanded := List.mem_of_getElem? handed
  have inRange : serial < state.deferred.issued.length :=
    (inv.serve.balanced.accounted serial).mpr
      (Or.inr (Or.inl (inv.serve.balanced.handedOut_completed isHanded)))
  refine ⟨state.deferred.issued[serial], List.getElem?_eq_getElem inRange, ?_⟩
  rcases inv.served_of_noneLost noneLost (List.getElem?_eq_getElem inRange) with
    answered | ⟨_, incoming, waits | ⟨owner, isOwner⟩, same, _⟩
  · exact answered
  · have isWaiting : serial ∈ state.deferred.waiting := by
      rw [inv.serve.waiting, ← same]
      exact List.mem_map_of_mem waits
    exact absurd isWaiting (inv.serve.balanced.handedOut_not_waiting isHanded)
  · have ownerHanded := inv.serve.held owner incoming isOwner
    rw [same] at ownerHanded
    have ownerRange := (List.getElem?_eq_some_iff.mp ownerHanded).1
    have nodup :=
      (List.nodup_append'.mp inv.serve.balanced.handedOut_waiting_nodup).1
    have isRequest : owner = request :=
      (List.getElem?_inj ownerRange nodup).mp (ownerHanded.trans handed.symm)
    rw [isRequest, freed] at isOwner
    cases isOwner

theorem RequestInv.requestsServed_iff
    (inv : RequestInv state) : RequestsServed state ↔ NoneLost state := by
  constructor
  · intro served serial msg issued
    rcases served.served serial msg issued with
      ⟨code, answered⟩ | ⟨_, incoming, holds, same, _⟩
    · rw [answered]
      exact Or.inl (List.cons_ne_nil _ _)
    · exact Or.inr ⟨incoming, holds, same⟩
  · intro noneLost
    refine
      { accepted := inv.slots.order
        pulled := inv.serve.handed
        inOrder := ?_
        once := inv.serve.balanced.completedOnce
        served := fun serial msg => inv.served_of_noneLost noneLost
        known := ?_
        held := ?_
        replied := fun request serial => inv.replied noneLost
        nullReply := inv.serve.nullReply }
    · rw [← inv.serve.waiting]
      exact inv.serve.queued
    · intro serial answered
      obtain ⟨msg, issued, _⟩ :=
        (inv.serve.statuses serial).resolve_left answered
      exact (List.getElem?_eq_some_iff.mp issued).1
    · intro request incoming isHeld
      have handed := inv.serve.held request incoming isHeld
      refine ⟨handed, fun completed => ?_⟩
      have pulled : request < state.reqCount := by
        rw [← inv.serve.handed]
        exact (List.getElem?_eq_some_iff.mp handed).1
      rcases inv.states request pulled with ⟨_, isState⟩ | ⟨freed, _⟩
      · rw [completed] at isState
        simp at isState
      · rw [freed] at isHeld
        cases isHeld

/-- The requests of a run are served if and only if `dummy_defer_cb` could
answer or keep each of their messages. -/
theorem poller_requestsServed_iff
    {actions : List PollerAction}
    (reached : poller.run actions = some state) :
    RequestsServed state ↔
      poller.Meets ServesIncoming poller.init actions := by
  have preserved : ∀ state action next, RequestInv state → True →
      poller.step state action = some next → RequestInv next :=
    fun _ _ _ inv _ taken => (inv.step taken).1
  have inv : RequestInv state :=
    Machine.invariant_of_step RequestInv.init
      (fun _ _ _ inv taken => (inv.step taken).1) reached
  rw [inv.requestsServed_iff]
  exact Machine.meets_iff RequestInv.init nofun preserved
    (fun _ _ _ inv _ taken => (inv.step taken).2) (fun _ _ => trivial) reached

/-- Two messages, one of them refused, and a request that is answered twice. -/
def answeredTwice : List PollerAction :=
  [.dequeue, .fetchBegin,
    .incoming ⟨5, 6, 7, ["get"], "get", false, some "\x7b\x7d"⟩ true,
    .incoming ⟨8, 9, 7, ["get"], "get", false, some "\x7b\x7d"⟩ false,
    .fetchEnd, .takeReturn, .pull, .pull, .accept, .reply 0 none,
    .settle (.request 0), .dequeue, .runBegin true true .sent,
    .reply 0 (some "1")]

theorem poller_requestsServed_iff_answeredTwice :
    ∃ state, poller.run answeredTwice = some state ∧
      state.sent = [.status 8 9 7 9 (some 1),
        .data 5 6 7 "\x7b\x7d" (some 0), .status 5 6 7 0 (some 0)] ∧
      (RequestsServed state ↔
        poller.Meets ServesIncoming poller.init answeredTwice) :=
  ⟨_, rfl, rfl, @poller_requestsServed_iff _ answeredTwice rfl⟩

/-- A message without its `UBUS_ATTR_DATA`. -/
def withoutData : List PollerAction :=
  [.dequeue, .fetchBegin, .incoming ⟨5, 6, 7, ["get"], "get", false, none⟩ true]

/-- It is neither kept nor answered. -/
theorem poller_requests_unserved :
    ¬ ∀ (actions : List PollerAction) (state : PollerState),
      poller.run actions = some state → RequestsServed state := by
  intro always
  obtain ⟨state, reached, issued, sent, queue, reqs⟩ : ∃ state,
      poller.run withoutData = some state ∧
        state.deferred.issued[0]? =
          some ⟨5, 6, 7, ["get"], "get", false, none⟩ ∧
        state.sent = [] ∧ state.ubusIncomingReqs = [] ∧
        state.reqs = fun _ => none := ⟨_, rfl, rfl, rfl, rfl, rfl⟩
  rcases (always withoutData state reached).served 0 _ issued with
    ⟨code, answered⟩ | ⟨_, incoming, waits | ⟨owner, isOwner⟩, _⟩
  · rw [PollerState.statusesOf, sent] at answered
    cases answered
  · rw [queue] at waits
    cases waits
  · rw [reqs] at isOwner
    cases isOwner

end Runs

end LibubusJni.Poller
