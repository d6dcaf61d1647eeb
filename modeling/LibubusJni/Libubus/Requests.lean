import Mathlib.Logic.Function.Basic
import LibubusJni.Lib.Machine
import LibubusJni.Libubox.List
import LibubusJni.Wire

/-!
# Requests: `libubus-req.c`

A request is named by the number of the `ubus_start_request` that set it up;
memory that is used for a second request has a new name.  The callbacks and the
loops of `ubus_complete_request` that are active on the thread form a stack.
Application code (a callback, an object handler, or code outside of them) may
call into the library at any time, and `ubus_handle_event` may be one of these
calls, so messages can arrive at any time too.

Every STATUS and DATA message answers one of the requests that were sent, and
carries its sequence number.  `calloc` in `ubus_process_req_data` succeeds, and
no file descriptor comes with a message.  `log` records what has happened.
-/

namespace LibubusJni.Libubus

open LibubusJni.Lib LibubusJni.Libubox

def ubusStatusInvalidArgument : UInt32 := 2

def ubusStatusTimeout : UInt32 := 7

/-- `UBUS_MAX_NOTIFY_PEERS`. -/
def ubusMaxNotifyPeers : Nat := 16

/-- A value of `req->complete_cb`: the function of the application (for a
notification `ubus_notify_complete_cb`, which calls it) or the one that
`ubus_complete_request` puts in its place. -/
inductive CompleteCb where
  | application
  | ubusSyncReqCb
  deriving DecidableEq, Repr

/-- `struct ubus_request`, with the fields of `struct ubus_notify_request`
around it.  Of the callbacks of the application it counts whether they are
set. -/
structure UbusRequest where
  pending : List (List UInt8)
  statusCode : UInt32
  statusMsg : Bool
  blocked : Bool
  cancelled : Bool
  notify : Bool
  peer : UInt32
  seq : UInt16
  rawDataCb : Bool
  dataCb : Bool
  completeCb : Option CompleteCb
  statusCb : Bool
  notifyPending : UInt32
  notifyId : Nat → UInt32

/-- What the caller of `ubus_start_request` stores in the request behind it. -/
structure UbusHandlers where
  rawDataCb : Bool
  dataCb : Bool
  completeCb : Bool
  statusCb : Bool
  deriving DecidableEq, Repr

/-- The attributes of a STATUS message that a context reads: of SUBSCRIBERS one
entry for each attribute in it, `none` where `blob_check_type` fails. -/
structure StatusAttrs where
  status : Option UInt32
  subscribers : Option (List (Option UInt32))
  deriving DecidableEq, Repr

/-- One active call. -/
inductive RequestCall where
  /-- `req->raw_data_cb` on one DATA message. -/
  | rawDataCb (req : Nat) (data : List UInt8)
  /-- `req->data_cb` on one DATA message. -/
  | dataCb (req : Nat) (data : List UInt8)
  /-- `nreq->status_cb`, called by `ubus_process_notify_status`. -/
  | statusCb (req : Nat)
  /-- `complete_cb` of the application. -/
  | completeCb (req : Nat)
  /-- The loop of `ubus_complete_request`, with its local `complete_cb` and
  whether `req_timeout` is not zero. -/
  | completeRequest (req : Nat) (completeCb : Option CompleteCb)
      (reqTimeout : Bool)
  deriving DecidableEq, Repr

inductive RequestEvent where
  /-- `ubus_find_request` returned `req` for an answer to start `answers`. -/
  | found (answers req : Nat)
  /-- A DATA message was given to `ubus_process_req_data`. -/
  | data (req : Nat) (data : List UInt8)
  | rawDataCb (req : Nat) (data : List UInt8)
  | dataCb (req : Nat) (data : List UInt8)
  /-- `req_data_cb` returned for one message. -/
  | dataDone (req : Nat) (data : List UInt8)
  | statusCb (req : Nat)
  | completeCb (req : Nat)
  /-- `ubus_abort_request` returned. -/
  | aborted (req : Nat)
  deriving DecidableEq, Repr

/-- The part of `struct ubus_context` about requests.  `spent` lists the
requests that were handed over to be completed, or aborted. -/
structure RequestContext where
  requestSeq : UInt16
  starts : Nat
  requests : List Nat
  request : Nat → UbusRequest
  calls : List RequestCall
  spent : List Nat
  log : List RequestEvent

/-- What a message for a request carries besides its header. -/
inductive AnswerBody where
  | status (attrs : StatusAttrs)
  | data (data : List UInt8)
  deriving DecidableEq, Repr

inductive RequestAction where
  /-- `ubus_start_request`, and the callbacks the caller sets behind it. -/
  | startRequest (msg : Option (List UInt8)) (peer : UInt32)
      (handlers : UbusHandlers)
  /-- `__ubus_notify_async` for an object. -/
  | notifyAsync (msg : List UInt8) (obj : UInt32) (handlers : UbusHandlers)
  | completeRequestAsync (req : Nat)
  | completeRequest (req : Nat) (reqTimeout : Bool)
  | abortRequest (req : Nat)
  /-- A STATUS or DATA message that answers a request arrives. -/
  | receive (answers : Nat) (peer : UInt32) (body : AnswerBody)
  /-- The innermost callback returns. -/
  | returns
  /-- The innermost `ubus_complete_request` sees that its time is over. -/
  | timeout
  /-- The innermost `ubus_complete_request` sees `status_msg`. -/
  | statusSeen
  deriving DecidableEq

/-- `ubus_find_notify_id`. -/
def ubusFindNotifyId (n : UbusRequest) (objid : UInt32) : Option Nat :=
  (List.range 32).find? fun i =>
    n.notifyPending.toBitVec.getLsbD i && n.notifyId i == objid

/-- The tests of `ubus_find_request` on the peer. -/
def UbusRequest.awaits (req : UbusRequest) (peer : UInt32) : Bool :=
  if req.notify then (ubusFindNotifyId req peer).isSome
  else peer == req.peer

/-- `idx` and the following entries of the loop over SUBSCRIBERS. -/
def addNotifyPeers : Nat → List (Option UInt32) → UbusRequest → UbusRequest
  | _, [], n => n
  | idx, none :: rest, n => addNotifyPeers idx rest n
  | idx, some objid :: rest, n =>
      let n :=
        { n with
          notifyPending := n.notifyPending ||| (1 <<< UInt32.ofNat idx)
          notifyId := Function.update n.notifyId idx objid }
      if idx = ubusMaxNotifyPeers then n else addNotifyPeers (idx + 1) rest n

namespace RequestContext

def modify (ctx : RequestContext) (req : Nat)
    (change : UbusRequest → UbusRequest) : RequestContext :=
  { ctx with
    request := Function.update ctx.request req (change (ctx.request req)) }

def call (ctx : RequestContext) (frame : RequestCall)
    (event : RequestEvent) : RequestContext :=
  { ctx with calls := frame :: ctx.calls, log := ctx.log ++ [event] }

def note (ctx : RequestContext) (event : RequestEvent) : RequestContext :=
  { ctx with log := ctx.log ++ [event] }

/-- `ubus_start_request`; where it returns -1 before anything is sent there is
no request. -/
def ubusStartRequest (ctx : RequestContext) (msg : Option (List UInt8))
    (peer : UInt32) (handlers : UbusHandlers) : RequestContext :=
  if msg.any (fun msg => ubusMaxMsglen < blobPadLen msg) then ctx
  else
    let seq := ctx.requestSeq + 1
    let req : UbusRequest :=
      { pending := []
        statusCode := 0
        statusMsg := false
        blocked := false
        cancelled := false
        notify := false
        peer := peer
        seq := seq
        rawDataCb := handlers.rawDataCb
        dataCb := handlers.dataCb
        completeCb :=
          if handlers.completeCb then some .application else none
        statusCb := handlers.statusCb
        notifyPending := 0
        notifyId := fun _ => 0 }
    { ctx with
      requestSeq := seq
      starts := ctx.starts + 1
      request := Function.update ctx.request (ctx.starts + 1) req }

/-- `__ubus_notify_async`. -/
def ubusNotifyAsync (ctx : RequestContext) (msg : List UInt8) (obj : UInt32)
    (handlers : UbusHandlers) : RequestContext :=
  let started := ctx.ubusStartRequest (some msg) obj handlers
  if started.starts = ctx.starts then ctx
  else
    started.modify started.starts fun req =>
      { req with
        notify := true
        notifyPending := 1
        notifyId := Function.update req.notifyId 0 obj
        completeCb := some .application }

/-- `ubus_req_complete_cb`. -/
def ubusReqCompleteCb (ctx : RequestContext) (req : Nat) : RequestContext :=
  match (ctx.request req).completeCb with
  | none => ctx
  | some .application =>
      (ctx.modify req fun req => { req with completeCb := none }).call
        (.completeCb req) (.completeCb req)
  | some .ubusSyncReqCb =>
      ctx.modify req fun req =>
        { req with completeCb := none, statusMsg := true }

/-- `ubus_set_req_status`. -/
def ubusSetReqStatus (ctx : RequestContext) (req : Nat) (ret : UInt32) :
    RequestContext :=
  let ctx :=
    { ctx with requests := listDel req ctx.requests }.modify req fun req =>
      { req with statusMsg := true, statusCode := ret }
  if (ctx.request req).blocked then ctx else ctx.ubusReqCompleteCb req

/-- `req_data_cb` up to the first callback that it calls. -/
def reqDataCb (ctx : RequestContext) (req : Nat) (data : List UInt8) :
    RequestContext :=
  if (ctx.request req).rawDataCb then
    ctx.call (.rawDataCb req data) (.rawDataCb req data)
  else if (ctx.request req).dataCb then
    ctx.call (.dataCb req data) (.dataCb req data)
  else ctx

/-- `__ubus_process_req_data` on the messages in `pending`, up to the first
callback, and the end of `ubus_process_req_data` behind it. -/
def ubusProcessReqDataRest (ctx : RequestContext) (req : Nat) :
    List (List UInt8) → RequestContext
  | [] =>
      let ctx := ctx.modify req fun req =>
        { req with pending := [], blocked := false }
      if (ctx.request req).statusMsg then ctx.ubusReqCompleteCb req else ctx
  | data :: rest =>
      if !(ctx.request req).cancelled &&
          ((ctx.request req).rawDataCb || (ctx.request req).dataCb) then
        (ctx.modify req fun req => { req with pending := rest }).reqDataCb
          req data
      else ctx.ubusProcessReqDataRest req rest

/-- `ubus_process_req_data`. -/
def ubusProcessReqData (ctx : RequestContext) (req : Nat)
    (data : List UInt8) : RequestContext :=
  let ctx := ctx.note (.data req data)
  if !(ctx.request req).blocked then
    (ctx.modify req fun req => { req with blocked := true }).reqDataCb
      req data
  else
    ctx.modify req fun req =>
      { req with pending := listAdd data req.pending }

/-- `ubus_process_req_status`. -/
def ubusProcessReqStatus (ctx : RequestContext) (req : Nat) (peer : UInt32)
    (attrs : StatusAttrs) : RequestContext :=
  (ctx.modify req fun req => { req with peer := peer }).ubusSetReqStatus req
    (attrs.status.getD ubusStatusInvalidArgument)

/-- The end of `ubus_process_notify_status`. -/
def notifyStatusRest (ctx : RequestContext) (req : Nat) : RequestContext :=
  if (ctx.request req).notifyPending = 0 then ctx.ubusSetReqStatus req 0
  else ctx

/-- `ubus_process_notify_status` up to the callback. -/
def ubusProcessNotifyStatus (ctx : RequestContext) (req id : Nat)
    (attrs : StatusAttrs) : RequestContext :=
  let ctx := ctx.modify req fun n =>
    { n with
      notifyPending := n.notifyPending &&& ~~~(1 <<< UInt32.ofNat id) }
  if id = 0 then
    (ctx.modify req (addNotifyPeers 1 (attrs.subscribers.getD
      []))).notifyStatusRest req
  else if (ctx.request req).statusCb then
    ctx.call (.statusCb req) (.statusCb req)
  else ctx.notifyStatusRest req

/-- `ubus_find_request`: the request, and the index that
`ubus_find_notify_id` found. -/
def ubusFindRequest (ctx : RequestContext) (seq : UInt16) (peer : UInt32) :
    Option (Nat × Option Nat) :=
  (ctx.requests.find? fun req =>
    seq == (ctx.request req).seq && (ctx.request req).awaits peer).map
    fun req =>
      (req,
        if (ctx.request req).notify then
          ubusFindNotifyId (ctx.request req) peer
        else none)

/-- `ubus_process_req_msg`. -/
def ubusProcessReqMsg (ctx : RequestContext) (answers : Nat) (peer : UInt32)
    (body : AnswerBody) : RequestContext :=
  match ctx.ubusFindRequest (ctx.request answers).seq peer with
  | none => ctx
  | some (req, id) =>
      let ctx := ctx.note (.found answers req)
      match body, id with
      | .status attrs, some id => ctx.ubusProcessNotifyStatus req id attrs
      | .status attrs, none => ctx.ubusProcessReqStatus req peer attrs
      | .data data, _ =>
          if (ctx.request req).dataCb || (ctx.request req).rawDataCb then
            ctx.ubusProcessReqData req data
          else ctx

/-- `ubus_abort_request`: `req_data_cb` is not called for a request that is
cancelled, so `__ubus_process_req_data` only empties `pending`. -/
def ubusAbortRequest (ctx : RequestContext) (req : Nat) : RequestContext :=
  if req ∈ ctx.requests then
    { ctx with requests := listDel req ctx.requests }.modify req fun req =>
      { req with cancelled := true, pending := [] }
  else ctx

/-- `ubus_complete_request_async`. -/
def ubusCompleteRequestAsync (ctx : RequestContext) (req : Nat) :
    RequestContext :=
  if req ∈ ctx.requests then ctx
  else { ctx with requests := listAdd req ctx.requests }

/-- `ubus_complete_request` up to its loop. -/
def ubusCompleteRequest (ctx : RequestContext) (req : Nat)
    (reqTimeout : Bool) : RequestContext :=
  let completeCb := (ctx.request req).completeCb
  let ctx := (ctx.ubusCompleteRequestAsync req).modify req fun req =>
    { req with completeCb := some .ubusSyncReqCb }
  { ctx with
    calls := .completeRequest req completeCb reqTimeout :: ctx.calls }

/-- `ubus_complete_request` behind its loop. -/
def completeRequestEnd (ctx : RequestContext) (req : Nat)
    (completeCb : Option CompleteCb) : RequestContext :=
  let ctx := ctx.modify req fun req => { req with completeCb := completeCb }
  match completeCb with
  | none => ctx
  | some .application => ctx.call (.completeCb req) (.completeCb req)
  | some .ubusSyncReqCb =>
      ctx.modify req fun req => { req with statusMsg := true }

/-- The innermost callback returns to the function that called it. -/
def returnFrom (ctx : RequestContext) (outer : List RequestCall) :
    RequestCall → Option RequestContext
  | .rawDataCb req data =>
      let ctx := { ctx with calls := outer }
      if (ctx.request req).dataCb then
        some (ctx.call (.dataCb req data) (.dataCb req data))
      else
        some ((ctx.note (.dataDone req data)).ubusProcessReqDataRest req
          (ctx.request req).pending)
  | .dataCb req data =>
      some (({ ctx with calls := outer }.note
        (.dataDone req data)).ubusProcessReqDataRest req
          (ctx.request req).pending)
  | .statusCb req => some ({ ctx with calls := outer }.notifyStatusRest req)
  | .completeCb _ => some { ctx with calls := outer }
  | .completeRequest _ _ _ => none

def step (ctx : RequestContext) : RequestAction → Option RequestContext
  | .startRequest msg peer handlers =>
      some (ctx.ubusStartRequest msg peer handlers)
  | .notifyAsync msg obj handlers =>
      some (ctx.ubusNotifyAsync msg obj handlers)
  | .completeRequestAsync req =>
      -- a request is handed over once
      if 0 < req ∧ req ≤ ctx.starts ∧ req ∉ ctx.spent then
        some { ctx.ubusCompleteRequestAsync req with spent := req :: ctx.spent }
      else none
  | .completeRequest req reqTimeout =>
      -- handed over here, or waiting for its answer
      if 0 < req ∧ req ≤ ctx.starts ∧
          (req ∉ ctx.spent ∨ req ∈ ctx.requests) then
        some
          { ctx.ubusCompleteRequest req reqTimeout with
            spent := req :: ctx.spent }
      else none
  | .abortRequest req =>
      if 0 < req ∧ req ≤ ctx.starts then
        some
          ({ ctx.ubusAbortRequest req with
              spent := req :: ctx.spent }.note (.aborted req))
      else none
  | .receive answers peer body =>
      if 0 < answers ∧ answers ≤ ctx.starts then
        some (ctx.ubusProcessReqMsg answers peer body)
      else none
  | .returns =>
      match ctx.calls with
      | [] => none
      | frame :: outer => ctx.returnFrom outer frame
  | .timeout =>
      match ctx.calls with
      | .completeRequest req _ true :: _ =>
          if (ctx.request req).statusMsg then none
          else some (ctx.ubusSetReqStatus req ubusStatusTimeout)
      | _ => none
  | .statusSeen =>
      match ctx.calls with
      | .completeRequest req completeCb _ :: outer =>
          if (ctx.request req).statusMsg then
            some ({ ctx with calls := outer }.completeRequestEnd req completeCb)
          else none
      | _ => none

end RequestContext

/-- A request that was not set up. -/
def noRequest : UbusRequest :=
  { pending := []
    statusCode := 0
    statusMsg := false
    blocked := false
    cancelled := false
    notify := false
    peer := 0
    seq := 0
    rawDataCb := false
    dataCb := false
    completeCb := none
    statusCb := false
    notifyPending := 0
    notifyId := fun _ => 0 }

/-- The requests of a context behind `ubus_connect_ctx`. -/
def requester : Machine RequestContext RequestAction where
  init := ⟨0, 0, [], fun _ => noRequest, [], [], []⟩
  step := RequestContext.step

end LibubusJni.Libubus
