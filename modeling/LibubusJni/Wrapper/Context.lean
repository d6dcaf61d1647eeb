import Mathlib.Logic.Function.Basic
import LibubusJni.Lib.Ledger
import LibubusJni.Lib.Machine
import LibubusJni.Libubox.List

/-!
# `ubus_wrapper.c`: invokes, returns and releases

One thread calls the wrapper.  `ubus_wrap_invoke`, `ubus_wrap_add_object` and
`ubus_wrap_fetch_return` wait for messages in the middle, and the callbacks of
every outstanding request can run there, so each of these calls is cut at its
wait.

A `ContextId` names a `struct ubus_jni_context`, and an entry of a list the
`struct ubus_wrap_context` behind its pointer.  `ledger` numbers the invokes
and records what becomes of each; `received` records the payloads libubus found
a request for.  The texts of `object`, `method` and `params` only end up in the
messages sent.
-/

namespace LibubusJni.Wrapper

open LibubusJni.Lib LibubusJni.Libubox

abbrev ContextId := Nat

/-- `struct ubus_wrap_context`, with the number of its last invoke.  The two
flags are the bits `FLAG_REQ_PENDING` and `FLAG_RET_PENDING`. -/
structure WrapContext where
  index : Int
  result : Option String
  retval : Int32
  isReturn : Bool
  flagReqPending : Bool
  flagRetPending : Bool
  invocation : Nat
  deriving DecidableEq, Repr

/-- The memory from `calloc`. -/
def WrapContext.zero : WrapContext := ⟨0, none, 0, false, false, false, 0⟩

/-- Where a `struct ubus_request` lies: on the stack of the synchronous call or
in a wrapper context. -/
inductive RequestOwner where
  | sync
  | wrap (ctx : ContextId)
  deriving DecidableEq, Repr

structure UbusRequest where
  owner : RequestOwner
  seq : UInt16
  peer : UInt32
  deriving DecidableEq, Repr

/-- The synchronous requests the wrapper makes. -/
inductive SyncCall where
  /-- `ubus_lookup_id` in `ubus_wrap_invoke`. -/
  | lookupId (ctx : ContextId)
  /-- `ubus_add_object` in `ubus_wrap_add_object`. -/
  | addObject
  deriving DecidableEq, Repr

/-- Where the thread of the wrapper is. -/
inductive WrapPhase where
  | idle
  /-- In `ubus_complete_request`: the object id received so far, and the
  status once it has arrived. -/
  | sync (call : SyncCall) (id : UInt32) (status : Option Int32)
  /-- In the `uloop_run` of `ubus_wrap_fetch_return`. -/
  | uloop (size : Int)
  deriving DecidableEq, Repr

/-- What must not happen. -/
inductive WrapFault where
  /-- `assert(upp->flags == 0)` fails. -/
  | assertFlags
  /-- `list_add_tail` of an entry that is on a list. -/
  | relinked
  /-- `list_del` of an entry that is on no list. -/
  | unlinked
  /-- `ubus_start_request` clears a request that is on a list. -/
  | clearedLinked
  /-- A callback or a list entry of freed memory or of a call that returned. -/
  | dangling
  /-- `assert (ubus->bus_handle != NULL)` fails. -/
  | assertBus
  deriving DecidableEq, Repr

/-- The static state of `ubus_wrapper.c` and of its `struct ubus_context`. -/
structure WrapMain where
  busHandle : Bool
  requestSeq : UInt16
  requests : List UbusRequest
  returnReqs : List ContextId
  wraps : ContextId → Option WrapContext
  nobject : Nat
  phase : WrapPhase
  fault : Option WrapFault
  /-- A failed assertion of `ubus_wrap_add_object`, or a payload missing where
  `blobmsg_format_json` reads it. -/
  crashed : Bool
  ledger : Ledger Int
  returned : List (Int × ContextId)
  received : List (ContextId × String)

/-- A message that belongs to a request. -/
inductive ReqMsg where
  /-- `UBUS_MSG_DATA` with its `UBUS_ATTR_OBJID`, and its `UBUS_ATTR_DATA` as
  `blobmsg_format_json` prints it. -/
  | data (seq : UInt16) (peer : UInt32) (objid : Option UInt32)
      (json : Option String)
  /-- `UBUS_MSG_STATUS`; the code is `UBUS_STATUS_INVALID_ARGUMENT` when the
  attribute is missing. -/
  | status (seq : UInt16) (peer : UInt32) (code : Int32)
  deriving DecidableEq, Repr

/-- How `ubus_start_request` goes. -/
inductive StartOutcome where
  /-- The message is longer than `UBUS_MAX_MSGLEN`. -/
  | tooLong
  /-- `ubus_send_msg` fails. -/
  | sendFailed
  | sent
  deriving DecidableEq, Repr

inductive WrapAction where
  /-- `ubus_wrap_invoke` up to the wait of `ubus_lookup_id`. -/
  | invoke (ctx : ContextId) (index : Int) (connects : Bool)
      (start : StartOutcome)
  /-- `ubus_lookup_id` returns and `ubus_wrap_invoke` goes on. -/
  | invokeEnd (start : StartOutcome)
  /-- `ubus_wrap_add_object` up to the wait of `ubus_add_object`. -/
  | addObject (parses : Bool) (connects : Bool) (start : StartOutcome)
  | addObjectEnd
  /-- libubus processes a message. -/
  | arrive (msg : ReqMsg)
  /-- `ubus_wrap_fetch_return`, up to `uloop_run` when nothing has returned. -/
  | fetchReturn (size : Int)
  /-- `uloop_run` ends. -/
  | uloopEnd
  /-- `ubus_wrap_release`. -/
  | release (ctx : ContextId)
  deriving DecidableEq, Repr

namespace WrapMain

def fail (main : WrapMain) (kind : WrapFault) : WrapMain :=
  { main with fault := some kind }

def crash (main : WrapMain) : WrapMain := { main with crashed := true }

def setWrap (main : WrapMain) (ctx : ContextId) (upp : WrapContext) :
    WrapMain :=
  { main with wraps := Function.update main.wraps ctx (some upp) }

/-- The request of the context is on `ctx->requests`. -/
def Linked (main : WrapMain) (ctx : ContextId) : Prop :=
  RequestOwner.wrap ctx ∈ main.requests.map UbusRequest.owner

instance (main : WrapMain) (ctx : ContextId) : Decidable (main.Linked ctx) :=
  inferInstanceAs (Decidable (_ ∈ _))

/-- `ubus_start_request`, whose result is negative when it fails. -/
def ubusStartRequest (main : WrapMain) : StartOutcome → WrapMain × Int32
  | .tooLong => (main, -1)
  | .sendFailed => ({ main with requestSeq := main.requestSeq + 1 }, -1)
  | .sent => ({ main with requestSeq := main.requestSeq + 1 }, 0)

/-- `ubus_complete_request_async` for the request just started. -/
def ubusCompleteRequestAsync (main : WrapMain) (owner : RequestOwner)
    (peer : UInt32) : WrapMain :=
  { main with
    requests := listAdd ⟨owner, main.requestSeq, peer⟩ main.requests }

/-- `list_add_tail(&upp->entry, &_ubus_return_reqs)` with the context as it is
stored around it. -/
def addReturn (main : WrapMain) (ctx : ContextId) (upp : WrapContext) :
    WrapMain :=
  if ctx ∈ main.returnReqs then main.fail .relinked
  else
    { main.setWrap ctx upp with
      returnReqs := listAddTail ctx main.returnReqs
      ledger := main.ledger.complete upp.invocation }

/-- `ubus_sync_req_cb`. -/
def ubusSyncReqCb (main : WrapMain) (ctx : ContextId) (ret : Int32) :
    WrapMain :=
  match main.wraps ctx with
  | none => main.fail .dangling
  | some upp =>
      main.addReturn ctx
        { upp with
          isReturn := true
          retval := ret
          flagReqPending := false
          flagRetPending := true }

/-- `recv_cb_json_out`. -/
def recvCbJsonOut (main : WrapMain) (ctx : ContextId) (json : Option String) :
    WrapMain :=
  match json with
  | none => main.crash
  | some text =>
      match main.wraps ctx with
      | none => main.fail .dangling
      | some upp =>
          { main.setWrap ctx { upp with result := some text } with
            received := main.received ++ [(ctx, text)] }

/-- The label `invoke_fail` of `ubus_wrap_invoke`. -/
def invokeFail (main : WrapMain) (ctx : ContextId) : WrapMain :=
  match main.wraps ctx with
  | none => main.fail .dangling
  | some upp =>
      { main with phase := .idle }.addReturn ctx
        { upp with isReturn := true, retval := -1, flagRetPending := true }

/-- `WRAP_CONTEXT`. -/
def wrapContext (main : WrapMain) (ctx : ContextId) : WrapContext :=
  (main.wraps ctx).getD .zero

/-- `ubus_wrap_init`; a connection once made stays. -/
def ubusWrapInit (main : WrapMain) (connects : Bool) : WrapMain :=
  { main with busHandle := main.busHandle || connects }

/-- The context gets its index, and the invoke its number. -/
def beginInvoke (main : WrapMain) (ctx : ContextId) (index : Int) : WrapMain :=
  { main.setWrap ctx
      { main.wrapContext ctx with
        index := index
        invocation := main.ledger.next } with
    phase := .sync (.lookupId ctx) 0 none
    ledger := main.ledger.issue index }

/-- A synchronous request is sent and waited for; `failed` is the code behind
it when it cannot be sent. -/
def ubusCompleteRequest (main : WrapMain) (call : SyncCall)
    (start : StartOutcome) (failed : WrapMain → WrapMain) : WrapMain :=
  let started := main.ubusStartRequest start
  if started.2 < 0 then failed started.1
  else
    { started.1.ubusCompleteRequestAsync .sync 0 with
      phase := .sync call 0 none }

/-- `ubus_wrap_invoke` up to the wait of `ubus_lookup_id`. -/
def ubusWrapInvoke (main : WrapMain) (ctx : ContextId) (index : Int)
    (connects : Bool) (start : StartOutcome) : WrapMain :=
  if (main.wrapContext ctx).flagReqPending ||
      (main.wrapContext ctx).flagRetPending then
    main.fail .assertFlags
  else
    let ready := (main.beginInvoke ctx index).ubusWrapInit connects
    if ready.busHandle then
      ready.ubusCompleteRequest (.lookupId ctx) start (·.invokeFail ctx)
    else ready.invokeFail ctx

/-- `ubus_wrap_invoke` behind `ubus_lookup_id`. -/
def ubusWrapInvokeEnd (main : WrapMain) (ctx : ContextId) (id : UInt32)
    (ret : Int32) (start : StartOutcome) : WrapMain :=
  if ret ≠ 0 then main.invokeFail ctx
  else if main.Linked ctx then main.fail .clearedLinked
  else
    let started := main.ubusStartRequest start
    if started.2 < 0 then started.1.invokeFail ctx
    else
      match main.wraps ctx with
      | none => main.fail .dangling
      | some upp =>
          { (started.1.setWrap ctx
              { upp with flagReqPending := true }).ubusCompleteRequestAsync
                (.wrap ctx) id with
            phase := .idle }

/-- `ubus_wrap_add_object` up to the wait of `ubus_add_object`. -/
def ubusWrapAddObject (main : WrapMain) (parses connects : Bool)
    (start : StartOutcome) : WrapMain :=
  let ready := main.ubusWrapInit connects
  if main.nobject + 1 < 100 && parses && ready.busHandle then
    ready.ubusCompleteRequest .addObject start crash
  else ready.crash

/-- `ubus_wrap_add_object` behind `ubus_complete_request`. -/
def ubusWrapAddObjectEnd (main : WrapMain) (id : UInt32) (ret : Int32) :
    WrapMain :=
  if ret = 0 ∧ id ≠ 0 then
    { main with nobject := main.nobject + 1, phase := .idle }
  else main.crash

/-- `ubus_find_request`: the first request of the list that fits. -/
def ubusFindRequest (main : WrapMain) (seq : UInt16) (peer : UInt32) :
    Option UbusRequest :=
  main.requests.find? fun req => req.seq == seq && req.peer == peer

/-- `ubus_lookup_id_cb` and `ubus_add_object_cb`. -/
def syncDataCb (main : WrapMain) (objid : Option UInt32) : WrapMain :=
  match main.phase with
  | .sync call id none =>
      { main with phase := .sync call (objid.getD id) none }
  | _ => main.fail .dangling

/-- The status of the synchronous request. -/
def syncStatus (main : WrapMain) (ret : Int32) : WrapMain :=
  match main.phase with
  | .sync call id none => { main with phase := .sync call id (some ret) }
  | _ => main.fail .dangling

/-- `ubus_process_req_msg`. -/
def ubusProcessReqMsg (main : WrapMain) : ReqMsg → WrapMain
  | .data seq peer objid json =>
      match main.ubusFindRequest seq peer with
      | none => main
      | some req =>
          match req.owner with
          | .sync => main.syncDataCb objid
          | .wrap ctx => main.recvCbJsonOut ctx json
  | .status seq peer code =>
      match main.ubusFindRequest seq peer with
      | none => main
      | some req =>
          let removed := { main with requests := main.requests.erase req }
          match req.owner with
          | .sync => removed.syncStatus code
          | .wrap ctx => removed.ubusSyncReqCb ctx code

/-- One trip through the loop of `ubus_wrap_fetch_return`. -/
def takeReturn (main : WrapMain) (curr : ContextId) : WrapMain :=
  match main.wraps curr with
  | none => main.fail .dangling
  | some upp =>
      { main.setWrap curr { upp with flagRetPending := false } with
        returnReqs := main.returnReqs.erase curr
        returned := main.returned ++ [(upp.index, curr)]
        ledger := main.ledger.handOut }

/-- `list_for_each_safe` over `_ubus_return_reqs`. -/
def fetchLoop (size : Int) : Int → List ContextId → WrapMain → WrapMain
  | _, [], main => main
  | count, curr :: next, main =>
      if count ≥ size then main
      else fetchLoop size (count + 1) next (main.takeReturn curr)

/-- `ubus_wrap_fetch_return` behind `uloop_run`. -/
def ubusWrapFetchReturnEnd (main : WrapMain) (size : Int) : WrapMain :=
  fetchLoop size 0 main.returnReqs { main with phase := .idle }

/-- `ubus_wrap_fetch_return`. -/
def ubusWrapFetchReturn (main : WrapMain) (size : Int) : WrapMain :=
  if main.returnReqs = [] then { main with phase := .uloop size }
  else main.ubusWrapFetchReturnEnd size

/-- `ubus_abort_request`. -/
def ubusAbortRequest (main : WrapMain) (ctx : ContextId) : WrapMain :=
  { main with
    requests := main.requests.filter fun req => req.owner ≠ .wrap ctx }

/-- The context is freed; an invoke that has not been fetched is given up. -/
def freeWrap (main : WrapMain) (ctx : ContextId) (upp : WrapContext) :
    WrapMain :=
  { main with
    wraps := Function.update main.wraps ctx none
    ledger :=
      if upp.flagReqPending || upp.flagRetPending then
        main.ledger.drop upp.invocation
      else main.ledger }

/-- `ubus_wrap_release`. -/
def ubusWrapRelease (main : WrapMain) (ctx : ContextId) : WrapMain :=
  match main.wraps ctx with
  | none => main
  | some upp =>
      if upp.flagReqPending && !main.busHandle then main.fail .assertBus
      else
        let aborted :=
          if upp.flagReqPending then main.ubusAbortRequest ctx else main
        if upp.flagRetPending then
          if ctx ∈ aborted.returnReqs then
            { aborted with
              returnReqs := aborted.returnReqs.erase ctx }.freeWrap ctx upp
          else aborted.fail .unlinked
        else aborted.freeWrap ctx upp

def step (main : WrapMain) (action : WrapAction) : Option WrapMain :=
  if main.fault.isSome || main.crashed then none
  else
    match action, main.phase with
    | .invoke ctx index connects start, .idle =>
        some (main.ubusWrapInvoke ctx index connects start)
    | .invokeEnd start, .sync (.lookupId ctx) id (some ret) =>
        some (main.ubusWrapInvokeEnd ctx id ret start)
    | .addObject parses connects start, .idle =>
        some (main.ubusWrapAddObject parses connects start)
    | .addObjectEnd, .sync .addObject id (some ret) =>
        some (main.ubusWrapAddObjectEnd id ret)
    | .arrive msg, .sync _ _ none | .arrive msg, .uloop _ =>
        some (main.ubusProcessReqMsg msg)
    | .fetchReturn size, .idle => some (main.ubusWrapFetchReturn size)
    | .uloopEnd, .uloop size => some (main.ubusWrapFetchReturnEnd size)
    | .release ctx, .idle => some (main.ubusWrapRelease ctx)
    | _, _ => none

end WrapMain

/-- The wrapper before its first call. -/
def wrapper : Machine WrapMain WrapAction where
  init := ⟨false, 0, [], [], fun _ => none, 0, .idle, none, false, .empty, [],
    []⟩
  step := WrapMain.step

end LibubusJni.Wrapper
