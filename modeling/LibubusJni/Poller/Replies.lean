import LibubusJni.Poller.Requests

/-!
# Which reply a request sends

`replyRequest` writes `result` before it asks the state, and the poller reads
`result` when it runs the request.  Beside the poller, `Answering` records the
argument of the call that takes a request out of its pending state.
-/

namespace LibubusJni.Poller

open LibubusJni.Lib LibubusJni.Wrapper

/-- The text that a DATA message sends in answer to that INVOKE. -/
def SentMsg.answer (serial : Nat) : SentMsg → Option String
  | .data _ _ _ json answered =>
      if answered = some serial then some json else none
  | .status .. => none

/-- What was sent in answer to that INVOKE. -/
def PollerState.answersOf (state : PollerState) (serial : Nat) :
    List String :=
  state.sent.filterMap (SentMsg.answer serial)

/-- The argument of `replyRequest`, or an empty object for null. -/
def replyText (json : Option String) : String := json.getD "\x7b\x7d"

/-- The poller, and for each request the argument of the call that took it out
of its pending state. -/
structure Answering where
  poller : PollerState
  taken : Nat → Option String

namespace Answering

/-- `replyRequest` on a request that `start` queues. -/
def takenAfter (answering : Answering) :
    PollerAction → Nat → Option String
  | .reply request json =>
      if (answering.poller.invokers (.request request)).starts then
        Function.update answering.taken request (some (replyText json))
      else answering.taken
  | _ => answering.taken

def step (answering : Answering) (action : PollerAction) :
    Option Answering :=
  (answering.poller.step action).map fun next =>
    ⟨next, answering.takenAfter action⟩

/-- What the request sends, or will send as it stands, is the argument of the
call that took it out of its pending state, and it is sent once. -/
def SendsFirst (answering : Answering) (request serial : Nat) : Prop :=
  match answering.taken request with
  | none => answering.poller.answersOf serial = []
  | some first =>
      if (answering.poller.invokers (.request request)).isCompleted then
        answering.poller.answersOf serial = [first]
      else
        answering.poller.answersOf serial = [] ∧
          (answering.poller.invokers (.request request)).result = some first

/-- Every request sends the reply of the call that took it, and the later calls
change nothing of it. -/
def FirstReplies (answering : Answering) : Prop :=
  ∀ request serial,
    answering.poller.deferred.handedOut[request]? = some serial →
      answering.SendsFirst request serial

/-- A call on a request that was taken, and has not been run, has the argument
of the call that took it. -/
def RepeatsFirst (answering : Answering) (action : PollerAction) : Prop :=
  ∀ request json first, action = .reply request json →
    answering.taken request = some first →
      (answering.poller.invokers (.request request)).isCompleted = false →
        replyText json = first

end Answering

/-- A new `UbusPoller`, no request of which was taken. -/
def answering : Machine Answering PollerAction where
  init := ⟨poller.init, fun _ => none⟩
  step := Answering.step

/-! ## The steps that have to do with replies -/

/-- The requests and what was sent in answer to them stay as they are. -/
structure SameReplies (state next : PollerState) : Prop where
  invokable : ∀ request,
    (next.invokers (.request request)).invokable =
      (state.invokers (.request request)).invokable
  caller : ∀ request,
    (next.invokers (.request request)).caller =
      (state.invokers (.request request)).caller
  result : ∀ request,
    (next.invokers (.request request)).result =
      (state.invokers (.request request)).result
  answers : ∀ serial, next.answersOf serial = state.answersOf serial
  statuses : ∀ serial,
    next.statusesOf serial = [] → state.statusesOf serial = []
  handedOut : next.deferred.handedOut = state.deferred.handedOut

section Replying

variable {state next : PollerState} {action : PollerAction}
  {invoker : InvokerId}

theorem SameReplies.refl (state : PollerState) : SameReplies state state :=
  ⟨fun _ => rfl, fun _ => rfl, fun _ => rfl, fun _ => rfl, fun _ => id, rfl⟩

theorem SameReplies.trans
    {last : PollerState} (first : SameReplies state next)
    (second : SameReplies next last) : SameReplies state last :=
  ⟨fun request => (second.invokable request).trans (first.invokable request),
    fun request => (second.caller request).trans (first.caller request),
    fun request => (second.result request).trans (first.result request),
    fun serial => (second.answers serial).trans (first.answers serial),
    fun serial none => first.statuses serial (second.statuses serial none),
    second.handedOut.trans first.handedOut⟩

/-- The change keeps the state, the thread and the result of a request. -/
theorem SameReplies.modify
    {change : Invoker → Invoker}
    (keeps : ∀ count, invoker = .request count →
      (change (state.invokers invoker)).invokable =
          (state.invokers invoker).invokable ∧
        (change (state.invokers invoker)).caller =
          (state.invokers invoker).caller ∧
        (change (state.invokers invoker)).result =
          (state.invokers invoker).result) :
    SameReplies state (state.modify invoker change) := by
  have same : ∀ request,
      ((state.modify invoker change).invokers (.request request)).invokable =
          (state.invokers (.request request)).invokable ∧
        ((state.modify invoker change).invokers (.request request)).caller =
          (state.invokers (.request request)).caller ∧
        ((state.modify invoker change).invokers (.request request)).result =
          (state.invokers (.request request)).result := by
    intro request
    by_cases isInvoker : .request request = invoker
    · subst isInvoker
      rw [PollerState.invokers_modify_self]
      exact keeps request rfl
    · rw [PollerState.invokers_modify_of_ne state isInvoker]
      exact ⟨rfl, rfl, rfl⟩
  exact ⟨fun request => (same request).1, fun request => (same request).2.1,
    fun request => (same request).2.2, fun _ => rfl, fun _ => id, rfl⟩

theorem SameReplies.modify_call
    {change : Invoker → Invoker}
    (notRequest : ∀ count, invoker ≠ .request count) :
    SameReplies state (state.modify invoker change) :=
  .modify fun count isRequest => absurd isRequest (notRequest count)

theorem SameReplies.add (state : PollerState) (invoker : InvokerId) :
    SameReplies state (state.add invoker) := by
  rw [PollerState.add]
  split
  · exact .refl state
  · let mark : Invoker → Invoker := fun self => { self with mQueued := true }
    have marks : SameReplies state (state.modify invoker mark) :=
      .modify fun _ _ => ⟨rfl, rfl, rfl⟩
    exact { marks with }

theorem SameReplies.cancel
    (notRequest : ∀ count, invoker ≠ .request count) :
    SameReplies state (state.cancel invoker) := by
  rw [PollerState.cancel]
  split
  · exact .modify_call notRequest
  · exact (SameReplies.add state invoker).trans (.modify_call notRequest)
  · exact (SameReplies.add state invoker).trans (.modify_call notRequest)
  · exact .modify_call notRequest

/-- What a step does to the requests and to what they send. -/
inductive Replying (state : PollerState) (action : PollerAction) :
    PollerState → Prop where
  | same {next : PollerState}
      (silent : ∀ request json, action ≠ .reply request json)
      (same : SameReplies state next) : Replying state action next
  | reply (request : Nat) (json : Option String)
      (isAction : action = .reply request json)
      (outside : (state.invokers (.request request)).caller = .outside) :
      Replying state action (state.replyRequest request json)
  | settle (request : Nat) (isAction : action = .settle (.request request))
      (starting : (state.invokers (.request request)).caller = .starting) :
      Replying state action
        (state.modify (.request request) Invoker.replyStarted)
  | pulled {incoming : Incoming} {rest : List Incoming}
      (isAction : action = .pull)
      (first : state.ubusIncomingReqs = incoming :: rest) :
      Replying state action state.pull
  | replied (count : Nat) (connects parses : Bool) (start : StartOutcome)
      (isAction : action = .runBegin connects parses start)
      (queued : (state.invokers (.request count)).invokable =
        .ubusQueuedState) :
      Replying state action
        (((state.ubusWrapReply count
          (state.invokers (.request count)).result).modify (.request count)
            (·.complete .replied)).goto .drain)

theorem PollerInv.callerReplies
    (inv : PollerInv state) (taken : state.callerStep action = some next) :
    Replying state action next := by
  cases action with
  | start invoker =>
      rw [PollerState.callerStep] at taken
      split at taken
      · rename_i starts
        cases taken
        have isCall : invoker.isCall = true :=
          (Bool.and_eq_true_iff.mp (Bool.and_eq_true_iff.mp starts).1).1
        refine .same (by simp)
          ((SameReplies.add state invoker).trans (.modify_call ?_))
        rintro count rfl
        cases isCall
      · cases taken
  | settle invoker =>
      rw [PollerState.callerStep] at taken
      split at taken
      · rename_i starting
        cases taken
        cases invoker with
        | request count =>
            exact .settle count rfl starting
        | invoke call | addObject call =>
            exact .same (by simp) (.modify_call (by simp))
      · rename_i canceling
        cases taken
        exact .same (by simp)
          (.modify_call (inv.requests_outside (by simp [canceling])))
      · cases taken
  | elapse invoker =>
      rw [PollerState.callerStep] at taken
      split at taken
      · cases taken
        exact .same (by simp) (.modify fun _ _ => ⟨rfl, rfl, rfl⟩)
      · cases taken
        exact .same (by simp) (.modify fun _ _ => ⟨rfl, rfl, rfl⟩)
      · cases taken
  | timeout invoker =>
      rw [PollerState.callerStep] at taken
      split at taken
      · rename_i waits
        cases taken
        exact .same (by simp)
          (.modify_call (inv.requests_outside (by simp [waits.1])))
      · cases taken
  | spurious invoker =>
      rw [PollerState.callerStep] at taken
      split at taken
      · rename_i waits
        cases taken
        exact .same (by simp)
          (.modify_call (inv.requests_outside (by simp [waits])))
      · rename_i waits
        cases taken
        exact .same (by simp)
          (.modify_call (inv.requests_outside (by simp [waits])))
      · cases taken
  | resume invoker =>
      rw [PollerState.callerStep] at taken
      split at taken
      · cases taken
      · split at taken
        · rename_i woken
          cases taken
          exact .same (by simp)
            (.cancel (inv.requests_outside (by simp [woken])))
        · rename_i woken
          cases taken
          exact .same (by simp)
            (.modify_call (inv.requests_outside (by simp [woken])))
        · cases taken
  | accept =>
      rw [PollerState.callerStep] at taken
      split at taken
      · cases taken
      · cases taken
        exact .same (by simp) { SameReplies.refl state with }
  | reply request json =>
      rw [PollerState.callerStep] at taken
      split at taken
      · rename_i allowed
        cases taken
        exact .reply request json rfl allowed.2.1
      · cases taken
  | dequeue | runBegin | runEnd | arrive | incoming | fetchBegin | fetchEnd
  | takeReturn | completeInvoke | pull =>
      cases taken

/-- A STATUS is no reply. -/
theorem SameReplies.status (state : PollerState) (seq : UInt16)
    (peer object code : UInt32) (serial : Option Nat) :
    SameReplies state
      (state.ubusCompleteDeferredRequest seq peer object code serial) := by
  refine { SameReplies.refl state with
    answers := fun other => ?_
    statuses := fun other none => ?_ }
  · rw [PollerState.answersOf, PollerState.ubusCompleteDeferredRequest,
      List.filterMap_append]
    exact List.append_nil _
  · rw [PollerState.statusesOf, PollerState.ubusCompleteDeferredRequest,
      List.filter_append] at none
    exact (List.append_eq_nil_iff.mp none).1

theorem SameReplies.incoming (state : PollerState) (msg : InvokeMsg)
    (alloc : Bool) : SameReplies state (state.ubusProcessInvoke msg alloc) := by
  rw [PollerState.ubusProcessInvoke]
  split
  · rw [PollerState.dummyDeferCb]
    dsimp only
    split
    · exact { SameReplies.refl state with }
    · split
      · exact { SameReplies.refl state with }
      · split
        · exact { SameReplies.refl state with }
        · split
          · exact { SameReplies.refl state with }
          · exact { SameReplies.status state msg.seq msg.peer msg.object
              ubusStatusUnknownError (some state.deferred.next) with }
  · exact .status state _ _ _ _ _

/-- The thread of a request does not wait, so nothing wakes it. -/
theorem PollerInv.wakeBy_request
    (inv : PollerInv state) (count : Nat) (newState : InvokableState) :
    Invoker.wakeBy (state.invokers (.request count)).caller newState =
      (state.invokers (.request count)).caller := by
  rcases (inv.locals (.request count)).request rfl with outside | starting
  · rw [outside]
    rfl
  · rw [starting]
    rfl

theorem Replying.runState
    (inv : PollerInv state) {connects parses : Bool} {start : StartOutcome}
    (isAction : action = .runBegin connects parses start)
    (taken : state.runState invoker connects parses start = some next) :
    Replying state action next := by
  have silent : ∀ request json, action ≠ .reply request json := by
    rw [isAction]
    simp
  rw [PollerState.runState] at taken
  split at taken
  · cases taken
    exact .same silent { SameReplies.refl state with }
  · rename_i queued
    cases invoker with
    | invoke call =>
        rw [PollerState.invokeNative] at taken
        dsimp only at taken
        split at taken
        · rw [Option.map_eq_some_iff] at taken
          obtain ⟨wrap, invokes, rfl⟩ := taken
          have calls : SameReplies state (state.modify (.invoke call) fun self =>
              { self with nativeCalls := self.nativeCalls + 1 }) :=
            .modify_call (by simp)
          exact .same silent { calls with }
        · cases taken
          have completes : SameReplies state (state.modify (.invoke call)
              (·.complete (.noSlot state.allTaken))) := .modify_call (by simp)
          exact .same silent { completes with }
    | addObject call =>
        rw [PollerState.invokeNative, Option.map_eq_some_iff] at taken
        obtain ⟨wrap, adds, rfl⟩ := taken
        exact .same silent { SameReplies.refl state with }
    | request count =>
        rw [PollerState.invokeNative] at taken
        cases taken
        exact .replied count connects parses start isAction queued
  · rename_i canceled
    obtain ⟨call, rfl⟩ := (inv.locals invoker).liveState (Or.inr canceled)
    rw [PollerState.jniAbort, Option.map_eq_some_iff] at taken
    obtain ⟨wrap, released, rfl⟩ := taken
    have completes : SameReplies state (state.modify (.invoke call) fun self =>
        { self.complete .jniAbort with releases := self.releases + 1 }) :=
      .modify_call (by simp)
    exact .same silent { completes with }
  · rename_i completed
    cases taken
    have completes : SameReplies state
        (state.modify invoker (·.complete .javaAbort)) := by
      refine .modify fun count isRequest => ⟨completed.symm, ?_, rfl⟩
      rw [isRequest]
      exact inv.wakeBy_request count .ubusCompletedState
    exact .same silent { completes with }
  · cases taken
    exact .same silent { SameReplies.refl state with }
  · cases taken
    exact .same silent { SameReplies.refl state with }

theorem SameReplies.runEnd
    {start : StartOutcome} (taken : state.runEnd start = some next) :
    SameReplies state next := by
  rw [PollerState.runEnd.eq_def] at taken
  split at taken
  · rename_i call index isPc
    rw [Option.map_eq_some_iff] at taken
    obtain ⟨wrap, returns, rfl⟩ := taken
    have binds : SameReplies state (state.modify (.invoke call) fun self =>
        { self with index := index }.setState .ubusPendingState) :=
      .modify_call (by simp)
    exact { binds with }
  · rename_i call index isPc
    rw [Option.map_eq_some_iff] at taken
    obtain ⟨wrap, returns, rfl⟩ := taken
    split
    · exact { SameReplies.refl state with }
    · have adds : SameReplies state (state.modify (.addObject call) fun self =>
          { self with objectIndex := state.wrap.nobject }.complete
            .addedObject) := .modify_call (by simp)
      exact { adds with }
  · cases taken

theorem SameReplies.takeReturn (state : PollerState)
    (entries : List (Int × ContextId)) :
    SameReplies state (state.takeReturn entries) := by
  rw [PollerState.takeReturn.eq_def]
  split
  · exact { SameReplies.refl state with }
  · split
    · split
      · exact { SameReplies.refl state with }
      · exact { SameReplies.refl state with }
    · exact { SameReplies.refl state with }

theorem PollerInv.pollerReplies
    (inv : PollerInv state) (taken : state.pollerStep action = some next) :
    Replying state action next := by
  cases action with
  | dequeue =>
      rw [PollerState.pollerStep] at taken
      split at taken
      · cases taken
        exact .same (by simp) { SameReplies.refl state with }
      · rename_i invoker rest _ _
        cases taken
        have marks : SameReplies state (state.modify invoker fun self =>
            { self with mQueued := false }) := .modify fun _ _ => ⟨rfl, rfl, rfl⟩
        exact .same (by simp) { marks with }
      · cases taken
  | runBegin connects parses start =>
      rw [PollerState.pollerStep] at taken
      split at taken
      · split at taken
        · cases taken
        · exact .runState inv rfl taken
      · cases taken
  | runEnd start =>
      exact .same (by simp) (.runEnd taken)
  | arrive msg =>
      rw [PollerState.pollerStep] at taken
      split at taken
      any_goals contradiction
      all_goals
        rw [Option.map_eq_some_iff] at taken
        obtain ⟨wrap, arrives, rfl⟩ := taken
        exact .same (by simp) { SameReplies.refl state with }
  | incoming msg alloc =>
      rw [PollerState.pollerStep] at taken
      split at taken
      · cases taken
        exact .same (by simp) (.incoming state msg alloc)
      · cases taken
  | fetchBegin =>
      rw [PollerState.pollerStep] at taken
      split at taken
      · rw [Option.map_eq_some_iff] at taken
        obtain ⟨wrap, fetches, rfl⟩ := taken
        exact .same (by simp) { SameReplies.refl state with }
      · cases taken
  | fetchEnd =>
      rw [PollerState.pollerStep] at taken
      split at taken
      · rw [Option.map_eq_some_iff] at taken
        obtain ⟨wrap, fetches, rfl⟩ := taken
        exact .same (by simp) { SameReplies.refl state with }
      · cases taken
  | takeReturn =>
      rw [PollerState.pollerStep] at taken
      split at taken
      · cases taken
        exact .same (by simp) (.takeReturn state _)
      · cases taken
  | completeInvoke =>
      rw [PollerState.pollerStep] at taken
      split at taken
      · rename_i call context entries isPc
        split at taken
        · cases taken
        · rw [PollerState.completeInvoke, Option.map_eq_some_iff] at taken
          obtain ⟨wrap, released, rfl⟩ := taken
          have completes : SameReplies state
              (state.modify (.invoke call) fun self =>
                { { self with
                    result :=
                      (state.wrap.wraps call).bind
                        WrapContext.result }.complete .completeInvoke with
                  releases := self.releases + 1 }) := .modify_call (by simp)
          exact .same (by simp) { completes with }
      · cases taken
  | pull =>
      rw [PollerState.pollerStep] at taken
      split at taken
      · split at taken
        · cases taken
        · cases taken
          cases first : state.ubusIncomingReqs with
          | nil =>
              rw [PollerState.pull, first]
              exact .same (by simp) { SameReplies.refl state with }
          | cons incoming rest =>
              exact .pulled rfl first
      · cases taken
  | start | settle | elapse | timeout | spurious | resume | accept | reply =>
      cases taken

theorem PollerInv.replying
    (inv : PollerInv state) (taken : poller.step state action = some next) :
    Replying state action next := by
  have isStep : state.step action = some next := taken
  rw [PollerState.step] at isStep
  split at isStep
  · cases isStep
  · rcases Option.or_eq_some_iff.mp isStep with calls | ⟨_, polls⟩
    · exact inv.callerReplies calls
    · exact inv.pollerReplies polls

end Replying

/-! ## The invariant of every run -/

/-- A request can be taken, or a call has taken it. -/
def TakenFits (object : Invoker) : Option String → Prop
  | none => object.caller = .outside ∧ object.starts = true
  | some _ =>
      object.caller = .starting ∨
        object.caller = .outside ∧ object.starts = false

structure AnswerInv (answering : Answering) : Prop where
  requests : RequestInv answering.poller
  fits : ∀ request,
    TakenFits (answering.poller.invokers (.request request))
      (answering.taken request)
  unanswered : ∀ serial, answering.poller.statusesOf serial = [] →
    answering.poller.answersOf serial = []

section Answers

variable {answers later : Answering} {action : PollerAction}

theorem AnswerInv.init : AnswerInv answering.init where
  requests := RequestInv.init
  fits := fun _ => ⟨rfl, rfl⟩
  unanswered := fun _ _ => rfl

/-- A request that was taken and is not completed is no longer pending, or the
thread that takes it is still inside. -/
theorem TakenFits.congr
    {object next : Invoker} {taken : Option String}
    (fits : TakenFits object taken)
    (invokable : next.invokable = object.invokable)
    (caller : next.caller = object.caller) : TakenFits next taken := by
  have starts : next.starts = object.starts := by
    rw [Invoker.starts, Invoker.starts, invokable]
  cases taken with
  | none =>
      exact ⟨caller.trans fits.1, starts.trans fits.2⟩
  | some first =>
      rw [TakenFits, caller, starts]
      exact fits

theorem Answering.SendsFirst.congr
    {request serial : Nat} (sends : answers.SendsFirst request serial)
    (taken : later.taken request = answers.taken request)
    (invokable : (later.poller.invokers (.request request)).invokable =
      (answers.poller.invokers (.request request)).invokable)
    (result : (later.poller.invokers (.request request)).result =
      (answers.poller.invokers (.request request)).result)
    (same : later.poller.answersOf serial = answers.poller.answersOf serial) :
    later.SendsFirst request serial := by
  rw [Answering.SendsFirst, taken, same, Invoker.isCompleted, invokable,
    result]
  exact sends

/-- Only `replyRequest` takes a request. -/
theorem Answering.takenAfter_silent
    (silent : ∀ request json, action ≠ .reply request json) :
    answers.takenAfter action = answers.taken := by
  cases action with
  | reply request json =>
      exact absurd rfl (silent request json)
  | _ =>
      rfl

/-- What `ubus_wrap_reply` sends. -/
theorem answersOf_ubusWrapReply
    {state : PollerState} {request : Nat} {incoming : Incoming}
    (isHeld : state.reqs request = some incoming) (json : Option String)
    (serial : Nat) :
    (state.ubusWrapReply request json).answersOf serial =
      state.answersOf serial ++
        if incoming.serial = serial then json.toList else [] := by
  cases json with
  | none =>
      rw [PollerState.ubusWrapReply, isHeld]
      refine ((SameReplies.status state incoming.seq incoming.peer
        incoming.object 0 (some incoming.serial)).answers serial).trans ?_
      rw [Option.toList_none, ite_self, List.append_nil]
  | some text =>
      rw [PollerState.ubusWrapReply, isHeld]
      refine ((SameReplies.status (state.ubusSendReply incoming text)
        incoming.seq incoming.peer incoming.object 0
        (some incoming.serial)).answers serial).trans ?_
      rw [PollerState.answersOf, PollerState.ubusSendReply,
        List.filterMap_append, PollerState.answersOf]
      congr 1
      by_cases same : incoming.serial = serial
      · simp [SentMsg.answer, same]
      · simp [SentMsg.answer, same]

/-- What `replyRequest` does to its request. -/
theorem invokers_replyRequest (state : PollerState) (request : Nat)
    (json : Option String) :
    ((state.replyRequest request json).invokers
          (.request request)).invokable =
        (state.invokers (.request request)).invokable ∧
      ((state.replyRequest request json).invokers
          (.request request)).result = some (replyText json) ∧
      ((state.replyRequest request json).invokers
          (.request request)).caller =
        if (state.invokers (.request request)).starts then .starting
        else (state.invokers (.request request)).caller := by
  rw [PollerState.replyRequest]
  split
  · rw [PollerState.invokers_modify_self, PollerState.invokers_add_self,
      PollerState.invokers_modify_self]
    exact ⟨rfl, rfl, rfl⟩
  · rw [PollerState.invokers_modify_self]
    exact ⟨rfl, rfl, rfl⟩

/-- It leaves the other requests and what was sent alone. -/
theorem invokers_replyRequest_of_ne (state : PollerState)
    {request other : Nat} (different : other ≠ request)
    (json : Option String) :
    (state.replyRequest request json).invokers (.request other) =
      state.invokers (.request other) := by
  have isOther : InvokerId.request other ≠ .request request :=
    mt InvokerId.request.inj different
  rw [PollerState.replyRequest]
  split
  · rw [PollerState.invokers_modify_of_ne _ isOther,
      PollerState.invokers_add_of_ne _ isOther,
      PollerState.invokers_modify_of_ne _ isOther]
  · rw [PollerState.invokers_modify_of_ne _ isOther]

theorem sent_replyRequest (state : PollerState) (request : Nat)
    (json : Option String) :
    (state.replyRequest request json).sent = state.sent ∧
      (state.replyRequest request json).deferred = state.deferred := by
  rw [PollerState.replyRequest]
  split
  · rw [PollerState.add]
    split
    · exact ⟨rfl, rfl⟩
    · exact ⟨rfl, rfl⟩
  · exact ⟨rfl, rfl⟩

theorem Answering.repeatsFirst_silent
    (silent : ∀ request json, action ≠ .reply request json) :
    answers.RepeatsFirst action :=
  fun request json _ isAction => absurd isAction (silent request json)

/-- A step that leaves the requests alone. -/
theorem AnswerInv.same
    (inv : AnswerInv answers) {next : PollerState}
    (requests : RequestInv next) (same : SameReplies answers.poller next) :
    AnswerInv ⟨next, answers.taken⟩ ∧
      (answers.FirstReplies →
        Answering.FirstReplies ⟨next, answers.taken⟩) := by
  constructor
  · refine ⟨requests, fun request => ?_, fun serial none => ?_⟩
    · exact (inv.fits request).congr (same.invokable request)
        (same.caller request)
    · exact (same.answers serial).trans
        (inv.unanswered serial (same.statuses serial none))
  · intro first request serial handed
    rw [same.handedOut] at handed
    exact (first request serial handed).congr rfl (same.invokable request)
      (same.result request) (same.answers serial)

/-- The thread inside `replyRequest` goes on to `setState`. -/
theorem AnswerInv.settle
    (inv : AnswerInv answers) {request : Nat}
    (starting : (answers.poller.invokers (.request request)).caller =
      .starting)
    (requests : RequestInv
      (answers.poller.modify (.request request) Invoker.replyStarted)) :
    AnswerInv
        ⟨answers.poller.modify (.request request) Invoker.replyStarted,
          answers.taken⟩ ∧
      (answers.FirstReplies →
        Answering.FirstReplies
          ⟨answers.poller.modify (.request request) Invoker.replyStarted,
            answers.taken⟩) := by
  have others : ∀ other, other ≠ request →
      (answers.poller.modify (.request request)
        Invoker.replyStarted).invokers (.request other) =
          answers.poller.invokers (.request other) := fun other different =>
    PollerState.invokers_modify_of_ne _
      (mt InvokerId.request.inj different) _
  have own := PollerState.invokers_modify_self answers.poller
    (.request request) Invoker.replyStarted
  obtain ⟨first, isTaken⟩ : ∃ first, answers.taken request = some first := by
    have fits := inv.fits request
    cases isTaken : answers.taken request with
    | none =>
        rw [isTaken, TakenFits, starting] at fits
        cases fits.1
    | some first =>
        exact ⟨first, rfl⟩
  have starts := (inv.requests.slots.locals (.request request)).starting
    starting
  constructor
  · refine ⟨requests, fun other => ?_, inv.unanswered⟩
    by_cases same : other = request
    · subst same
      dsimp only
      rw [own, isTaken]
      exact Or.inr ⟨rfl, rfl⟩
    · dsimp only
      rw [others other same]
      exact inv.fits other
  · intro replies other serial handed
    have sends := replies other serial handed
    by_cases same : other = request
    · subst same
      have pending := Invoker.isCompleted_of_starts starts
      rw [Answering.SendsFirst, isTaken] at sends ⊢
      dsimp only at sends ⊢
      rw [pending] at sends
      rw [own]
      exact sends
    · exact sends.congr rfl (congrArg _ (others other same))
        (congrArg _ (others other same)) rfl

/-- `pullRequest` hands a new request to the application. -/
theorem AnswerInv.pulled
    (inv : AnswerInv answers) {incoming : Incoming} {rest : List Incoming}
    (first : answers.poller.ubusIncomingReqs = incoming :: rest)
    (requests : RequestInv answers.poller.pull) :
    AnswerInv ⟨answers.poller.pull, answers.taken⟩ ∧
      (answers.FirstReplies →
        Answering.FirstReplies ⟨answers.poller.pull, answers.taken⟩) := by
  have handedOut := inv.requests.serve.handedOut_pull first
  have sent : answers.poller.pull.sent = answers.poller.sent := by
    rw [PollerState.pull, first]
    rfl
  have sameAnswers : ∀ serial, answers.poller.pull.answersOf serial =
      answers.poller.answersOf serial := by
    intro serial
    rw [PollerState.answersOf, PollerState.answersOf, sent]
  have fresh := inv.requests.slots.fresh answers.poller.reqCount
    (Nat.le_refl _)
  have untaken : answers.taken answers.poller.reqCount = none := by
    have fits := inv.fits answers.poller.reqCount
    rw [fresh] at fits
    cases isTaken : answers.taken answers.poller.reqCount with
    | none =>
        rfl
    | some text =>
        rw [isTaken] at fits
        rcases fits with isStarting | ⟨_, late⟩
        · cases isStarting
        · cases late
  have others : ∀ other, other ≠ answers.poller.reqCount →
      answers.poller.pull.invokers (.request other) =
        answers.poller.invokers (.request other) := by
    intro other different
    rw [PollerState.pull, first]
    dsimp only
    rw [PollerState.invokers_modify_of_ne _
      (mt InvokerId.request.inj different)]
  constructor
  · refine ⟨requests, fun other => ?_, fun serial none => ?_⟩
    · by_cases same : other = answers.poller.reqCount
      · subst same
        dsimp only
        rw [untaken, PollerState.pull, first]
        dsimp only
        rw [PollerState.invokers_modify_self, fresh]
        exact ⟨rfl, rfl⟩
      · dsimp only
        rw [others other same]
        exact inv.fits other
    · rw [sameAnswers]
      refine inv.unanswered serial ?_
      rw [PollerState.statusesOf, sent] at none
      exact none
  · intro replies other serial handed
    dsimp only at handed
    rw [handedOut] at handed
    by_cases same : other = answers.poller.reqCount
    · subst same
      rw [← inv.requests.serve.handed, List.getElem?_concat_length,
        Option.some.injEq] at handed
      rw [Answering.SendsFirst, untaken]
      refine (sameAnswers serial).trans (inv.unanswered serial ?_)
      rw [← handed]
      apply inv.requests.serve.unanswered
      rw [PollerState.Holds, first]
      exact Or.inl List.mem_cons_self
    · have inRange : other < answers.poller.deferred.handedOut.length := by
        have bound := (List.getElem?_eq_some_iff.mp handed).1
        rw [List.length_append, List.length_singleton,
          inv.requests.serve.handed] at bound
        rw [inv.requests.serve.handed]
        omega
      rw [List.getElem?_append_left inRange] at handed
      exact (replies other serial handed).congr rfl
        (congrArg _ (others other same)) (congrArg _ (others other same))
        (sameAnswers serial)

/-- The poller runs a request that is queued. -/
theorem AnswerInv.replied
    (inv : AnswerInv answers) {count : Nat}
    (queued : (answers.poller.invokers (.request count)).invokable =
      .ubusQueuedState) {next : PollerState}
    (isNext : next =
      ((answers.poller.ubusWrapReply count
        (answers.poller.invokers (.request count)).result).modify
          (.request count) (·.complete .replied)).goto .drain)
    (requests : RequestInv next) :
    AnswerInv ⟨next, answers.taken⟩ ∧
      (answers.FirstReplies →
        Answering.FirstReplies ⟨next, answers.taken⟩) := by
  obtain ⟨incoming, isHeld⟩ :=
    held_of_queued inv.requests.slots inv.requests.states queued
  have result :=
    answersOf_ubusWrapReply isHeld
      (answers.poller.invokers (.request count)).result
  have statuses :=
    statusesOf_ubusWrapReply isHeld
      (answers.poller.invokers (.request count)).result
  obtain ⟨deferred, _, _, invokers, _⟩ := ubusWrapReply_fields isHeld
    (answers.poller.invokers (.request count)).result
  have unanswered := inv.unanswered incoming.serial
    (inv.requests.serve.unanswered incoming (Or.inr ⟨count, isHeld⟩))
  have handedCount := inv.requests.serve.held count incoming isHeld
  have others : ∀ other, other ≠ count →
      next.invokers (.request other) =
        answers.poller.invokers (.request other) := by
    intro other different
    rw [isNext]
    exact (PollerState.invokers_modify_of_ne _
      (mt InvokerId.request.inj different) (·.complete .replied)).trans
        (congrFun invokers _)
  have own : next.invokers (.request count) =
      (answers.poller.invokers (.request count)).complete .replied := by
    rw [isNext]
    exact (PollerState.invokers_modify_self _ (.request count)
      (·.complete .replied)).trans
        (congrArg (·.complete .replied) (congrFun invokers _))
  have answersAfter : ∀ serial, next.answersOf serial =
      answers.poller.answersOf serial ++
        if incoming.serial = serial then
          (answers.poller.invokers (.request count)).result.toList
        else [] := by
    rw [isNext]
    exact result
  have notStarts : (answers.poller.invokers (.request count)).starts =
      false := by
    rw [Invoker.starts, queued]
    rfl
  obtain ⟨first, isTaken, outside⟩ : ∃ first,
      answers.taken count = some first ∧
        (answers.poller.invokers (.request count)).caller = .outside := by
    have fits := inv.fits count
    cases isTaken : answers.taken count with
    | none =>
        rw [isTaken, TakenFits, notStarts] at fits
        cases fits.2
    | some first =>
        rw [isTaken] at fits
        rcases fits with isStarting | ⟨outside, _⟩
        · have starts := (inv.requests.slots.locals
            (.request count)).starting isStarting
          rw [notStarts] at starts
          cases starts
        · exact ⟨first, rfl, outside⟩
  constructor
  · refine ⟨requests, fun other => ?_, fun serial none => ?_⟩
    · by_cases same : other = count
      · subst same
        dsimp only
        rw [own, isTaken]
        refine Or.inr ⟨?_, rfl⟩
        show Invoker.wakeBy _ _ = _
        rw [outside]
        rfl
      · dsimp only
        rw [others other same]
        exact inv.fits other
    · have before : answers.poller.statusesOf serial = [] ∧
          incoming.serial ≠ serial := by
        rw [isNext] at none
        have empty := (statuses serial).symm.trans none
        refine ⟨(List.append_eq_nil_iff.mp empty).1, fun same => ?_⟩
        have second := (List.append_eq_nil_iff.mp empty).2
        rw [if_pos same] at second
        cases second
      rw [answersAfter, inv.unanswered serial before.1, if_neg before.2]
      rfl
  · intro replies other serial handed
    have wasHanded :
        answers.poller.deferred.handedOut[other]? = some serial := by
      rw [isNext] at handed
      exact (congrArg (fun ledger => ledger.handedOut[other]?)
        deferred).symm.trans handed
    have sends := replies other serial wasHanded
    by_cases same : other = count
    · subst same
      rw [handedCount, Option.some.injEq] at wasHanded
      subst wasHanded
      have pending : (answers.poller.invokers
          (.request other)).isCompleted = false := by
        rw [Invoker.isCompleted, queued]
        rfl
      rw [Answering.SendsFirst, isTaken] at sends ⊢
      dsimp only at sends ⊢
      rw [pending] at sends
      rw [own, answersAfter, if_pos rfl, unanswered, sends.2]
      rfl
    · have different : incoming.serial ≠ serial := by
        rintro rfl
        have inRange := (List.getElem?_eq_some_iff.mp wasHanded).1
        exact same ((List.getElem?_inj inRange
          inv.requests.serve.balanced.handedOut_nodup).mp
            (wasHanded.trans handedCount.symm))
      have answersSame : next.answersOf serial =
          answers.poller.answersOf serial := by
        rw [answersAfter, if_neg different, List.append_nil]
      exact sends.congr rfl (congrArg _ (others other same))
        (congrArg _ (others other same)) answersSame

/-- A thread of the application calls `replyRequest`. -/
theorem AnswerInv.reply
    (inv : AnswerInv answers) {request : Nat} {json : Option String}
    (outside : (answers.poller.invokers (.request request)).caller =
      .outside)
    (requests : RequestInv (answers.poller.replyRequest request json)) :
    AnswerInv
        ⟨answers.poller.replyRequest request json,
          answers.takenAfter (.reply request json)⟩ ∧
      (answers.FirstReplies →
        (Answering.FirstReplies
            ⟨answers.poller.replyRequest request json,
              answers.takenAfter (.reply request json)⟩ ↔
          answers.RepeatsFirst (.reply request json))) := by
  obtain ⟨invokable, result, caller⟩ :=
    invokers_replyRequest answers.poller request json
  obtain ⟨sent, deferred⟩ := sent_replyRequest answers.poller request json
  have others := @invokers_replyRequest_of_ne answers.poller request
  have sameAnswers : ∀ serial,
      (answers.poller.replyRequest request json).answersOf serial =
        answers.poller.answersOf serial := by
    intro serial
    rw [PollerState.answersOf, PollerState.answersOf, sent]
  have takenOther : ∀ other, other ≠ request →
      answers.takenAfter (.reply request json) other =
        answers.taken other := by
    intro other different
    rw [Answering.takenAfter]
    split
    · exact Function.update_of_ne different _ _
    · rfl
  have sameStarts :
      ((answers.poller.replyRequest request json).invokers
        (.request request)).starts =
      (answers.poller.invokers (.request request)).starts := by
    rw [Invoker.starts, Invoker.starts, invokable]
  have sameCompleted :
      ((answers.poller.replyRequest request json).invokers
        (.request request)).isCompleted =
      (answers.poller.invokers (.request request)).isCompleted := by
    rw [Invoker.isCompleted, Invoker.isCompleted, invokable]
  have fits := inv.fits request
  constructor
  · refine ⟨requests, fun other => ?_, fun serial none => ?_⟩
    · by_cases same : other = request
      · subst same
        dsimp only
        rw [Answering.takenAfter]
        by_cases starts :
            (answers.poller.invokers (.request other)).starts = true
        · rw [if_pos starts, Function.update_self]
          rw [if_pos starts] at caller
          exact Or.inl caller
        · rw [if_neg starts]
          rw [if_neg starts] at caller
          exact fits.congr invokable caller
      · dsimp only
        rw [takenOther other same, others same json]
        exact inv.fits other
    · rw [sameAnswers]
      refine inv.unanswered serial ?_
      rw [PollerState.statusesOf, sent] at none
      exact none
  · intro replies
    have otherSends : ∀ other serial, other ≠ request →
        answers.poller.deferred.handedOut[other]? = some serial →
          Answering.SendsFirst
            ⟨answers.poller.replyRequest request json,
              answers.takenAfter (.reply request json)⟩ other serial := by
      intro other serial different handed
      exact (replies other serial handed).congr (takenOther other different)
        (congrArg _ (others different json))
        (congrArg _ (others different json)) (sameAnswers serial)
    by_cases starts :
        (answers.poller.invokers (.request request)).starts = true
    · have untaken : answers.taken request = none := by
        cases isTaken : answers.taken request with
        | none =>
            rfl
        | some first =>
            rw [isTaken, TakenFits, outside, starts] at fits
            simp at fits
      have pending : (answers.poller.invokers
          (.request request)).isCompleted = false :=
        Invoker.isCompleted_of_starts starts
      refine iff_of_true (fun other serial handed => ?_) ?_
      · dsimp only at handed
        rw [deferred] at handed
        by_cases same : other = request
        · subst same
          have sends := replies other serial handed
          rw [Answering.SendsFirst, untaken] at sends
          have isTaken : answers.takenAfter (.reply other json) other =
              some (replyText json) := by
            rw [Answering.takenAfter, if_pos starts, Function.update_self]
          rw [Answering.SendsFirst]
          dsimp only
          rw [isTaken]
          dsimp only
          rw [sameCompleted, pending, sameAnswers]
          exact ⟨sends, result⟩
        · exact otherSends other serial same handed
      · rintro other otherJson first isAction isTaken _
        obtain ⟨rfl, rfl⟩ := PollerAction.reply.inj isAction
        rw [untaken] at isTaken
        cases isTaken
    · have sameTaken : answers.takenAfter (.reply request json) =
          answers.taken := by
        rw [Answering.takenAfter, if_neg starts]
      have touched : request < answers.poller.reqCount :=
        inv.requests.slots.request_lt fun untouched => starts (by
          rw [untouched]
          rfl)
      obtain ⟨own, isOwn⟩ : ∃ own,
          answers.poller.deferred.handedOut[request]? = some own :=
        ⟨_, List.getElem?_eq_getElem
          (Nat.lt_of_lt_of_eq touched inv.requests.serve.handed.symm)⟩
      rw [sameTaken] at otherSends ⊢
      constructor
      · rintro later other otherJson first isAction isTaken pending
        obtain ⟨rfl, rfl⟩ := PollerAction.reply.inj isAction
        have sends := later request own
          ((congrArg (fun ledger => ledger.handedOut[request]?)
            deferred).trans isOwn)
        rw [Answering.SendsFirst] at sends
        dsimp only at sends
        rw [isTaken] at sends
        dsimp only at sends
        rw [sameCompleted, pending, result] at sends
        exact Option.some.inj sends.2
      · intro repeats other serial handed
        dsimp only at handed
        rw [deferred] at handed
        by_cases same : other = request
        · subst same
          have sends := replies other serial handed
          rw [Answering.SendsFirst] at sends ⊢
          dsimp only
          cases isTaken : answers.taken other with
          | none =>
              rw [isTaken] at sends
              exact (sameAnswers serial).trans sends
          | some first =>
              rw [isTaken] at sends
              dsimp only at sends ⊢
              rw [sameCompleted, sameAnswers, result]
              split
              · rename_i completed
                rw [if_pos completed] at sends
                exact sends
              · rename_i pending
                rw [if_neg pending] at sends
                have isFirst := repeats other json first rfl isTaken
                  (Bool.eq_false_iff.mpr pending)
                exact ⟨sends.1, congrArg some isFirst⟩
        · exact otherSends other serial same handed

/-- A step keeps the invariant, and keeps the first replies if and only if it
repeats them. -/
theorem AnswerInv.step
    (inv : AnswerInv answers)
    (taken : answering.step answers action = some later) :
    AnswerInv later ∧
      (answers.FirstReplies →
        (later.FirstReplies ↔ answers.RepeatsFirst action)) := by
  obtain ⟨next, isStep, rfl⟩ := Option.map_eq_some_iff.mp taken
  have requests : RequestInv next := (inv.requests.step isStep).1
  have quiet : (∀ request json, action ≠ .reply request json) →
      AnswerInv ⟨next, answers.taken⟩ ∧
          (answers.FirstReplies →
            Answering.FirstReplies ⟨next, answers.taken⟩) →
        AnswerInv ⟨next, answers.takenAfter action⟩ ∧
          (answers.FirstReplies →
            (Answering.FirstReplies ⟨next, answers.takenAfter action⟩ ↔
              answers.RepeatsFirst action)) := by
    rintro silent ⟨nextInv, keeps⟩
    rw [Answering.takenAfter_silent silent]
    exact ⟨nextInv, fun replies =>
      iff_of_true (keeps replies) (Answering.repeatsFirst_silent silent)⟩
  cases inv.requests.slots.replying isStep with
  | same silent same =>
      exact quiet silent (inv.same requests same)
  | reply request json isAction outside =>
      subst isAction
      exact inv.reply outside requests
  | settle request isAction starting =>
      refine quiet ?_ (inv.settle starting requests)
      rw [isAction]
      nofun
  | pulled isAction first =>
      refine quiet ?_ (inv.pulled first requests)
      rw [isAction]
      nofun
  | replied count connects parses start isAction queued =>
      refine quiet ?_ (inv.replied queued rfl requests)
      rw [isAction]
      nofun

/-- In every state of a run each request has sent, or will send as it stands,
the argument of the call that took it out of its pending state, once, if and
only if every later call that came before the poller ran the request had the
same argument. -/
theorem answering_firstReplies_iff
    {actions : List PollerAction} {final : Answering}
    (reached : answering.run actions = some final) :
    answering.Always Answering.FirstReplies answering.init actions ↔
      answering.Meets Answering.RepeatsFirst answering.init actions :=
  Machine.always_iff_meets AnswerInv.init nofun
    (fun _ _ _ inv _ taken => (inv.step taken).1)
    (fun _ _ _ inv replies taken => (inv.step taken).2 replies) reached

/-- A request that is pulled, accepted and taken. -/
def takenRequest : List PollerAction :=
  [.dequeue, .fetchBegin,
    .incoming ⟨5, 6, 7, ["get"], "get", false, some "{}"⟩ true,
    .fetchEnd, .takeReturn, .pull, .accept, .reply 0 (some "1"),
    .settle (.request 0)]

/-- The second call comes when the first reply is sent. -/
theorem answering_firstReplies_iff_twice :
    ∃ final,
      answering.run
          (takenRequest ++
            [.pull, .dequeue, .runBegin true true .sent,
              .reply 0 (some "2")]) = some final ∧
      (answering.Always Answering.FirstReplies answering.init
          (takenRequest ++
            [.pull, .dequeue, .runBegin true true .sent,
              .reply 0 (some "2")]) ↔
        answering.Meets Answering.RepeatsFirst answering.init
          (takenRequest ++
            [.pull, .dequeue, .runBegin true true .sent,
              .reply 0 (some "2")])) :=
  ⟨_, rfl, answering_firstReplies_iff rfl⟩

/-- The second call comes before the poller runs the request: its argument is
what is sent. -/
theorem answering_second_sent :
    ∃ final,
      answering.run
          (takenRequest ++
            [.reply 0 (some "2"), .pull, .dequeue,
              .runBegin true true .sent]) = some final ∧
      final.taken 0 = some "1" ∧ final.poller.answersOf 0 = ["2"] ∧
      ¬ answering.Always Answering.FirstReplies answering.init
        (takenRequest ++
          [.reply 0 (some "2"), .pull, .dequeue,
            .runBegin true true .sent]) := by
  refine ⟨_, rfl, rfl, rfl, fun always => ?_⟩
  have sends := always.last rfl 0 0 rfl
  have isSecond : ["2"] = ["1"] := sends
  exact absurd isSecond (by decide)

end Answers

end LibubusJni.Poller
