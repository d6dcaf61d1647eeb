import LibubusJni.Poller.Invoker
import LibubusJni.Wrapper.Context

/-!
# `UbusPoller.java` over the wrapper

The threads are the poller, the callers inside `remoteInvoke`, and the threads
of the application that accept requests and reply to them.  An action is one
piece of a thread between two points where another thread can run: a monitor
that is taken and left, a wait, or a wait for messages inside a native call.
While the poller is inside `UbusJNI.invoke` it holds the monitor of that
invoker.

The native context of `ubusInvoke` call `n` is the wrapper's context `n`.
Threads are not interrupted, and memory of the JVM does not run out.
`deferred`, `sent`, `completedReturns`, `javaAccepted`, `clearedOther` and
`nullReply` record what has happened.
-/

namespace LibubusJni.Poller

open LibubusJni.Lib LibubusJni.Libubox LibubusJni.Wrapper

/-- `MAX_INVOKE`. -/
def maxInvoke : Nat := 100

/-- An INVOKE for an object of the wrapper, with a `UBUS_ATTR_METHOD`: the
header, the names of the methods of the object, and `UBUS_ATTR_DATA` as
`blobmsg_format_json` prints it. -/
structure InvokeMsg where
  seq : UInt16
  peer : UInt32
  object : UInt32
  methods : List String
  method : String
  noReply : Bool
  data : Option String
  deriving DecidableEq, Repr

/-- `struct ubus_incoming_context`, with the number of its INVOKE. -/
structure Incoming where
  object : UInt32
  peer : UInt32
  seq : UInt16
  method : String
  json : String
  serial : Nat
  deriving DecidableEq, Repr

/-- A message given to `ubus_send_msg` in answer to an INVOKE. -/
inductive SentMsg where
  | data (seq : UInt16) (peer object : UInt32) (json : String)
      (serial : Option Nat)
  | status (seq : UInt16) (peer object : UInt32) (code : UInt32)
      (serial : Option Nat)
  deriving DecidableEq, Repr

def ubusStatusMethodNotFound : UInt32 := 3

def ubusStatusUnknownError : UInt32 := 9

/-- Where the thread of the poller is in `loop`. -/
inductive PollerPc where
  /-- Before `synchronized (mInvokableQueue)`. -/
  | drain
  /-- Before the synchronized block of `run`. -/
  | run (invoker : InvokerId)
  /-- In `UbusJNI.invoke` or `UbusJNI.addObject`. -/
  | native (invoker : InvokerId) (index : Int)
  /-- Before `UbusJNI.fetchReturn`. -/
  | fetch
  /-- In its `uloop_run`. -/
  | uloop
  /-- In the loop over the fetched indices, each with the context it came
  from. -/
  | returns (entries : List (Int × ContextId))
  /-- Before the synchronized block of `completeInvoke`. -/
  | completing (call : Nat) (fetched : ContextId)
      (entries : List (Int × ContextId))
  /-- Before `req.pullRequest()`. -/
  | pulling
  /-- An exception ended the thread. -/
  | died
  deriving DecidableEq, Repr

structure PollerState where
  invokers : InvokerId → Invoker
  mInvokableQueue : List InvokerId
  mPendingInvoke : Int → Option Nat
  mLastIndex : Nat
  mRequestQueue : List Nat
  /-- The number of requests pulled; the next one is the local `req`. -/
  reqCount : Nat
  pc : PollerPc
  wrap : WrapMain
  ubusIncomingReqs : List Incoming
  acceptIncoming : Int
  /-- `upp->req` in the native context of a request. -/
  reqs : Nat → Option Incoming
  /-- An assertion failed or a missing payload was read. -/
  crashed : Bool
  deferred : Ledger InvokeMsg
  sent : List SentMsg
  completedReturns : List (ContextId × Nat)
  javaAccepted : List Nat
  clearedOther : Bool
  nullReply : Bool

inductive PollerAction where
  /-- `remoteInvoke` up to `add` in `invokeStart`. -/
  | start (invoker : InvokerId)
  /-- The rest of `invokeStart` or of `JNICancel`, up to the next wait. -/
  | settle (invoker : InvokerId)
  /-- 4000 ms have passed since `wait(4000)` began. -/
  | elapse (invoker : InvokerId)
  /-- `wait(4000)` times out. -/
  | timeout (invoker : InvokerId)
  /-- A wait ends for no reason. -/
  | spurious (invoker : InvokerId)
  /-- A woken thread has the monitor again and goes on to its next wait. -/
  | resume (invoker : InvokerId)
  /-- `acceptRequest` returns a request. -/
  | accept
  /-- `replyRequest` up to `add` in `invokeStart`. -/
  | reply (request : Nat) (json : Option String)
  | dequeue
  /-- `run` up to the wait of a native call. -/
  | runBegin (connects parses : Bool) (start : StartOutcome)
  /-- The native call returns and `run` goes on. -/
  | runEnd (start : StartOutcome)
  /-- libubus processes a message that belongs to a request. -/
  | arrive (msg : ReqMsg)
  /-- libubus processes an INVOKE; whether `calloc` succeeds. -/
  | incoming (msg : InvokeMsg) (alloc : Bool)
  | fetchBegin
  | fetchEnd
  /-- One trip through the loop over the fetched indices, up to
  `completeInvoke`. -/
  | takeReturn
  | completeInvoke
  /-- `req.pullRequest()` and the body of its loop. -/
  | pull
  deriving DecidableEq, Repr

/-- `ubusInvoke` and `ubusAddObject` call `remoteInvoke` on their objects. -/
def InvokerId.isCall : InvokerId → Bool
  | .invoke _ | .addObject _ => true
  | .request _ => false

namespace PollerState

def modify (state : PollerState) (invoker : InvokerId)
    (change : Invoker → Invoker) : PollerState :=
  { state with
    invokers :=
      Function.update state.invokers invoker
        (change (state.invokers invoker)) }

def goto (state : PollerState) (pc : PollerPc) : PollerState :=
  { state with pc := pc }

/-- `UbusPoller.add`. -/
def add (state : PollerState) (invoker : InvokerId) : PollerState :=
  if (state.invokers invoker).mQueued then state
  else
    { state.modify invoker fun self => { self with mQueued := true } with
      mInvokableQueue := listAddTail invoker state.mInvokableQueue }

/-- The poller is in a native call inside `run` of the invoker. -/
def pollerHolds (state : PollerState) (invoker : InvokerId) : Bool :=
  match state.pc with
  | .native other _ => other == invoker
  | _ => false

/-! ### The wrapper's replies -/

/-- `ubus_complete_deferred_request`. -/
def ubusCompleteDeferredRequest (state : PollerState) (seq : UInt16)
    (peer object : UInt32) (ret : UInt32) (serial : Option Nat) :
    PollerState :=
  { state with sent := state.sent ++ [.status seq peer object ret serial] }

/-- `ubus_send_reply`. -/
def ubusSendReply (state : PollerState) (req : Incoming) (json : String) :
    PollerState :=
  { state with
    sent := state.sent ++
      [.data req.seq req.peer req.object json (some req.serial)] }

/-- `ubus_wrap_reply`. -/
def ubusWrapReply (state : PollerState) (request : Nat)
    (json : Option String) : PollerState :=
  match state.reqs request with
  | none => { state with nullReply := true, crashed := true }
  | some req =>
      let replied :=
        match json with
        | none => state
        | some text => state.ubusSendReply req text
      { replied.ubusCompleteDeferredRequest req.seq req.peer req.object 0
          (some req.serial) with
        reqs := Function.update state.reqs request none
        acceptIncoming := state.acceptIncoming - 1 }

/-- `dummy_defer_cb` and what `ubus_process_invoke` does behind it. -/
def dummyDeferCb (state : PollerState) (msg : InvokeMsg) (alloc : Bool) :
    PollerState :=
  let serial := state.deferred.next
  let reached := { state with deferred := state.deferred.issue msg }
  if state.acceptIncoming ≥ 100 then { reached with crashed := true }
  else
    match msg.data with
    | none => { reached with crashed := true }
    | some json =>
        if msg.method ∈ msg.methods ∧ alloc = true then
          { reached with
            ubusIncomingReqs :=
              listAddTail
                ⟨msg.object, msg.peer, msg.seq, msg.method, json, serial⟩
                state.ubusIncomingReqs
            deferred := reached.deferred.complete serial }
        else
          let refused :=
            { reached with deferred := reached.deferred.drop serial }
          if msg.noReply then refused
          else
            refused.ubusCompleteDeferredRequest msg.seq msg.peer msg.object
              ubusStatusUnknownError (some serial)

/-- `ubus_process_invoke`. -/
def ubusProcessInvoke (state : PollerState) (msg : InvokeMsg) (alloc : Bool) :
    PollerState :=
  if msg.method ∈ msg.methods then state.dummyDeferCb msg alloc
  else
    state.ubusCompleteDeferredRequest msg.seq msg.peer msg.object
      ubusStatusMethodNotFound none

/-! ### `UbusInvoker` on the thread of the poller -/

/-- `findEmptyInvokeSlot`; minus one when no slot is empty. -/
def findEmptyInvokeSlot (state : PollerState) : Int :=
  let empty := fun index : Nat => (state.mPendingInvoke index).isNone
  match
      ((List.range' state.mLastIndex (maxInvoke - state.mLastIndex)).find?
        empty).or ((List.range state.mLastIndex).find? empty) with
  | some index => index
  | none => -1

/-- All slots are taken. -/
def allTaken (state : PollerState) : Bool :=
  (List.range maxInvoke).all fun index =>
    (state.mPendingInvoke (index : Nat)).isSome

/-- `setInvokeSlot(index, null)`, called for `owner`. -/
def clearSlot (state : PollerState) (owner : Option Nat) (index : Int) :
    PollerState :=
  { state with
    mPendingInvoke := Function.update state.mPendingInvoke index none
    clearedOther := state.clearedOther ||
      (state.mPendingInvoke index).any fun other => some other ≠ owner }

/-- `invokeNative`, which the subclasses override. -/
def invokeNative (state : PollerState) (invoker : InvokerId)
    (connects parses : Bool) (start : StartOutcome) : Option PollerState :=
  match invoker with
  | .invoke call =>
      let index := state.findEmptyInvokeSlot
      if index ≠ -1 then
        (state.wrap.step (.invoke call index connects start)).map fun wrap =>
          { state.modify invoker fun self =>
              { self with nativeCalls := self.nativeCalls + 1 } with
            mLastIndex := index.toNat
            wrap := wrap
            pc := .native invoker index }
      else
        some
          ((state.modify invoker (·.complete (.noSlot state.allTaken))).goto
            .drain)
  | .addObject _ =>
      (state.wrap.step (.addObject parses connects start)).map fun wrap =>
        { state with wrap := wrap, pc := .native invoker 0 }
  | .request count =>
      some
        (((state.ubusWrapReply count (state.invokers invoker).result).modify
          invoker (·.complete .replied)).goto .drain)

/-- `JNIAbort`, which `UbusRequest` overrides. -/
def jniAbort (state : PollerState) (invoker : InvokerId) :
    Option PollerState :=
  match invoker with
  | .invoke call =>
      (state.wrap.step (.release call)).map fun wrap =>
        ((({ state with wrap := wrap }.clearSlot (some call)
          (state.invokers invoker).index).modify invoker fun self =>
            { self.complete .jniAbort with
              releases := self.releases + 1 }).goto .drain)
  | .addObject _ =>
      -- its context was never allocated, so `UbusJNI.release` does nothing
      some
        (((state.clearSlot none (state.invokers invoker).index).modify invoker
          (·.complete .jniAbort)).goto .drain)
  | .request count =>
      some
        (((state.ubusWrapReply count (some "\x7b\x7d")).modify invoker
          (·.complete .jniAbort)).goto .drain)

/-- `invokable.run(this)`. -/
def runState (state : PollerState) (invoker : InvokerId)
    (connects parses : Bool) (start : StartOutcome) : Option PollerState :=
  match (state.invokers invoker).invokable with
  | .ubusInitializeState => some (state.goto .died)
  | .ubusQueuedState => state.invokeNative invoker connects parses start
  | .ubusCanceledState => state.jniAbort invoker
  | .ubusCompletedState =>
      some ((state.modify invoker (·.complete .javaAbort)).goto .drain)
  | .ubusPendingState | .ubusPendingRequestState => some (state.goto .drain)

/-- `UbusJNI.invoke` returns: at once when it failed early. -/
def nativeReturn (wrap : WrapMain) (start : StartOutcome) : Option WrapMain :=
  match wrap.phase with
  | .idle => some wrap
  | _ => wrap.step (.invokeEnd start)

/-- `invokeNative` behind the native call. -/
def runEnd (state : PollerState) (start : StartOutcome) :
    Option PollerState :=
  match state.pc with
  | .native (.invoke call) index =>
      (nativeReturn state.wrap start).map fun wrap =>
        { state.modify (.invoke call) fun self =>
            { self with index := index }.setState .ubusPendingState with
          wrap := wrap
          mPendingInvoke :=
            Function.update state.mPendingInvoke index (some call)
          pc := .drain }
  | .native (.addObject call) _ =>
      (state.wrap.step .addObjectEnd).map fun wrap =>
        if wrap.crashed then { state with wrap := wrap }
        else
          { state.modify (.addObject call) fun self =>
              { self with
                objectIndex := state.wrap.nobject }.complete .addedObject with
            wrap := wrap
            pc := .drain }
  | _ => none

/-- The indices that the last fetch added, and where the loop goes on. -/
def fetched (state : PollerState) (wrap : WrapMain) : PollerState :=
  { state with
    wrap := wrap
    pc :=
      match wrap.phase with
      | .uloop _ => .uloop
      | _ => .returns (wrap.returned.drop state.wrap.returned.length) }

/-- The next fetched index: `ret` is cleared from its slot. -/
def takeReturn (state : PollerState) :
    List (Int × ContextId) → PollerState
  | [] => state.goto .pulling
  | (index, context) :: entries =>
      if 0 ≤ index ∧ index < maxInvoke then
        match state.mPendingInvoke index with
        | none => state.goto (.returns entries)
        | some call =>
            { state with
              mPendingInvoke :=
                Function.update state.mPendingInvoke index none
              pc := .completing call context entries }
      else state.goto .died

/-- `completeInvoke`. -/
def completeInvoke (state : PollerState) (call : Nat) (context : ContextId)
    (entries : List (Int × ContextId)) : Option PollerState :=
  let result := (state.wrap.wraps call).bind WrapContext.result
  (state.wrap.step (.release call)).map fun wrap =>
    { ({ state with wrap := wrap }.clearSlot (some call)
        (state.invokers (.invoke call)).index).modify (.invoke call)
        fun self =>
          { { self with result := result }.complete .completeInvoke with
            releases := self.releases + 1 } with
      completedReturns := state.completedReturns ++ [(context, call)]
      pc := .returns entries }

/-- `pullRequest` on the local `req` and the body of its loop. -/
def pull (state : PollerState) : PollerState :=
  match state.ubusIncomingReqs with
  | [] => state.goto .drain
  | incoming :: rest =>
      { state.modify (.request state.reqCount) fun self =>
          { self with
            params := some incoming.json
            method := some incoming.method }.setState
              .ubusPendingRequestState with
        ubusIncomingReqs := rest
        reqs := Function.update state.reqs state.reqCount (some incoming)
        acceptIncoming := state.acceptIncoming + 1
        deferred := state.deferred.handOut
        mRequestQueue := state.mRequestQueue ++ [state.reqCount]
        reqCount := state.reqCount + 1 }

/-! ### The threads of the callers and of the application -/

/-- `invokable.cancel(this)` and the loop behind it. -/
def cancel (state : PollerState) (invoker : InvokerId) : PollerState :=
  match (state.invokers invoker).invokable with
  | .ubusQueuedState => state.modify invoker Invoker.javaCanceled
  | .ubusPendingState | .ubusPendingRequestState =>
      (state.add invoker).modify invoker fun self =>
        { self with
          caller := .canceling
          abandons := self.abandons ++ [self.elapsed] }
  | _ => state.modify invoker Invoker.waitLoop

/-- `replyRequest` up to `add`. -/
def replyRequest (state : PollerState) (request : Nat)
    (json : Option String) : PollerState :=
  let answered :=
    state.modify (.request request) fun self =>
      { self with result := some (json.getD "\x7b\x7d") }
  if (state.invokers (.request request)).starts then
    (answered.add (.request request)).modify (.request request) fun self =>
      { self with caller := .starting }
  else answered

/-- The thread of a caller or of the application. -/
def callerStep (state : PollerState) : PollerAction → Option PollerState
  | .start invoker =>
      if invoker.isCall && (state.invokers invoker).caller == .outside &&
          (state.invokers invoker).starts then
        some
          ((state.add invoker).modify invoker fun self =>
            { self with caller := .starting })
      else none
  | .settle invoker =>
      match (state.invokers invoker).caller with
      | .starting =>
          some
            (state.modify invoker
              (if invoker.isCall then Invoker.started
                else Invoker.replyStarted))
      | .canceling => some (state.modify invoker Invoker.jniCanceled)
      | _ => none
  | .elapse invoker =>
      match (state.invokers invoker).caller with
      | .timedWait | .timedWoken _ =>
          some (state.modify invoker fun self => { self with elapsed := true })
      | _ => none
  | .timeout invoker =>
      if (state.invokers invoker).caller = .timedWait ∧
          (state.invokers invoker).elapsed = true then
        some
          (state.modify invoker fun self =>
            { self with caller := .timedWoken .timeout })
      else none
  | .spurious invoker =>
      match (state.invokers invoker).caller with
      | .timedWait =>
          some
            (state.modify invoker fun self =>
              { self with caller := .timedWoken .spurious })
      | .untimedWait =>
          some
            (state.modify invoker fun self =>
              { self with caller := .untimedWoken })
      | _ => none
  | .resume invoker =>
      if state.pollerHolds invoker then none
      else
        match (state.invokers invoker).caller with
        | .timedWoken _ => some (state.cancel invoker)
        | .untimedWoken => some (state.modify invoker Invoker.waitLoop)
        | _ => none
  | .accept =>
      match state.mRequestQueue with
      | [] => none
      | request :: rest =>
          some
            { state with
              mRequestQueue := rest
              javaAccepted := state.javaAccepted ++ [request] }
  | .reply request json =>
      if request ∈ state.javaAccepted ∧
          (state.invokers (.request request)).caller = .outside ∧
          state.pollerHolds (.request request) = false then
        some (state.replyRequest request json)
      else none
  | _ => none

/-! ### The thread of the poller -/

/-- The INVOKE messages are dispatched in `uloop_run`, and by the pending timer
at the end of `ubus_complete_request`. -/
def dispatches (state : PollerState) : Bool :=
  match state.pc, state.wrap.phase with
  | .uloop, _ => true
  | .native _ _, .sync _ _ (some _) => true
  | _, _ => false

def pollerStep (state : PollerState) : PollerAction → Option PollerState
  | .dequeue =>
      match state.pc, state.mInvokableQueue with
      | .drain, [] => some (state.goto .fetch)
      | .drain, invoker :: rest =>
          some
            { state.modify invoker fun self =>
                { self with mQueued := false } with
              mInvokableQueue := rest
              pc := .run invoker }
      | _, _ => none
  | .runBegin connects parses start =>
      match state.pc with
      | .run invoker =>
          if (state.invokers invoker).monitorTaken then none
          else state.runState invoker connects parses start
      | _ => none
  | .runEnd start => state.runEnd start
  | .arrive msg =>
      match state.pc with
      | .native _ _ | .uloop =>
          (state.wrap.step (.arrive msg)).map fun wrap =>
            { state with wrap := wrap }
      | _ => none
  | .incoming msg alloc =>
      if state.dispatches then some (state.ubusProcessInvoke msg alloc)
      else none
  | .fetchBegin =>
      match state.pc with
      | .fetch => (state.wrap.step (.fetchReturn 100)).map state.fetched
      | _ => none
  | .fetchEnd =>
      match state.pc with
      | .uloop => (state.wrap.step .uloopEnd).map state.fetched
      | _ => none
  | .takeReturn =>
      match state.pc with
      | .returns entries => some (state.takeReturn entries)
      | _ => none
  | .completeInvoke =>
      match state.pc with
      | .completing call context entries =>
          if (state.invokers (.invoke call)).monitorTaken then none
          else state.completeInvoke call context entries
      | _ => none
  | .pull =>
      match state.pc with
      | .pulling =>
          if (state.invokers (.request state.reqCount)).monitorTaken then none
          else some state.pull
      | _ => none
  | _ => none

def step (state : PollerState) (action : PollerAction) : Option PollerState :=
  if state.crashed || state.wrap.crashed || state.wrap.fault.isSome then none
  else (state.callerStep action).or (state.pollerStep action)

end PollerState

/-- A new `UbusPoller` behind `UbusJNI.init()`. -/
def poller : Machine PollerState PollerAction where
  init :=
    { invokers := fun _ => .new
      mInvokableQueue := []
      mPendingInvoke := fun _ => none
      mLastIndex := 0
      mRequestQueue := []
      reqCount := 0
      pc := .drain
      wrap := wrapper.init
      ubusIncomingReqs := []
      acceptIncoming := 0
      reqs := fun _ => none
      crashed := false
      deferred := .empty
      sent := []
      completedReturns := []
      javaAccepted := []
      clearedOther := false
      nullReply := false }
  step := PollerState.step

end LibubusJni.Poller
