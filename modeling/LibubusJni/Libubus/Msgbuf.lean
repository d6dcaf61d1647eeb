import LibubusJni.Lib.Heap
import LibubusJni.Libubus.Dispatch

/-!
# The memory of messages: `ctx->msgbuf`

Every message is read into `ctx->msgbuf.data`.  `ubus_process_obj_msg` takes the
buffer away from the context while a handler runs; `ubus_queue_msg` and
`ubus_process_req_data` copy the message into blocks of their own;
`req_data_cb` passes the buffer itself.

What the attributes of a message say, and which request or object it belongs
to, is decided by the action.  The copies for all requests are in one list,
`parked`, and a request is named by the number of the `ubus_start_request` that
set it up.  `calloc_a` in `ubus_queue_msg` is not checked by the source and
succeeds here.
-/

namespace LibubusJni.Libubus

open LibubusJni.Lib LibubusJni.Libubox

/-- `UBUS_MSG_CHUNK_SIZE`. -/
def ubusMsgChunkSize : Nat := 65536

/-- `UBUS_MSGBUF_REDUCTION_INTERVAL`. -/
def ubusMsgbufReductionInterval : Nat := 16

/-- `struct ubus_pending_msg`. -/
structure UbusPendingMsg where
  message : Message
  data : Nat

/-- `struct ubus_pending_data` of a request, with the bytes copied into it. -/
structure UbusPendingData where
  req : Nat
  data : Nat
  bytes : List UInt8

/-- The fields of `struct ubus_request` that decide what becomes of a DATA
message. -/
structure DataRequest where
  rawDataCb : Bool
  dataCb : Bool
  blocked : Bool
  cancelled : Bool

/-- One active call. -/
inductive MsgbufFrame where
  /-- `ubus_handle_data` is about to read the next message. -/
  | handleData
  /-- The handler called by `ubus_process_obj_msg` on a message at `data`;
  whether the message came from `ctx->msgbuf`. -/
  | objCallback (data : Nat) (bytes : List UInt8) (prevData : Bool)
  /-- `raw_data_cb` or `data_cb`, called by `req_data_cb` on a message at
  `data`; whether that is a copy. -/
  | dataCallback (req : Nat) (raw : Bool) (data : Nat) (bytes : List UInt8)
      (copy : Bool)
  /-- A callback that is given no message. -/
  | callback
  /-- The loop of `ubus_complete_request`, with its local `registered`. -/
  | completeRequest (registered : Bool)
  /-- `complete_cb`, called by `ubus_complete_request` behind its loop. -/
  | completeCallback (registered : Bool)
  /-- The loop of `ubus_process_pending_msg`. -/
  | processPending

/-- The part of `struct ubus_context` that has to do with the memory of
messages. -/
structure MsgbufContext where
  heap : Heap
  /-- `msgbuf.data`. -/
  data : Option Nat
  msgbufDataLen : Nat
  msgbufReductionCounter : Nat
  stackDepth : Nat
  sockRegistered : Bool
  pendingTimer : Bool
  pending : List UbusPendingMsg
  parked : List UbusPendingData
  starts : Nat
  request : Nat → DataRequest
  frames : List MsgbufFrame

inductive MsgbufAction where
  /-- `ubus_add_uloop`. -/
  | addUloop
  /-- `ubus_start_request`, with the callbacks the caller sets behind it. -/
  | startRequest (rawDataCb dataCb : Bool)
  /-- `ubus_handle_data` is called. -/
  | handleData
  /-- `get_next_msg` reads a message, of whose payload `count` bytes arrive;
  the rest is missing because `recv_retry` returned 0 (`stops`) or -1.  If
  `realloc` is called, `moves` is `none` where it fails; `found` is what
  `ubus_find_request` returns, `calls` whether another callback is called for
  the message, and `alloc` whether `calloc` succeeds. -/
  | receive (message : { message : Message // message.WellFormed })
      (moves : Option Bool) (count : Nat) (stops : Bool) (found : Option Nat)
      (calls alloc : Bool)
  /-- `ubus_complete_request` is called. -/
  | completeRequest
  /-- The status of the request has arrived or its timeout is over. -/
  | requestDone
  /-- `ubus_abort_request` of a request that is on `ctx->requests`. -/
  | abortRequest (req : Nat)
  /-- The pending timer expires in `uloop_run`. -/
  | timerExpired
  /-- One trip through the loop of `ubus_process_pending_msg`; whether a handler
  is called. -/
  | processPending (calls : Bool)
  /-- The innermost callback or `ubus_handle_data` returns; whether
  `complete_cb` is called behind the last data callback. -/
  | returns (calls : Bool)

namespace MsgbufFrame

/-- Application code is running. -/
def appRuns : List MsgbufFrame → Bool
  | [] | .objCallback .. :: _ | .dataCallback .. :: _ | .callback :: _
  | .completeCallback _ :: _ => true
  | .handleData :: _ | .completeRequest _ :: _ | .processPending :: _ => false

/-- The message that a callback was given: where it lies, and its bytes. -/
def given : MsgbufFrame → Option (Nat × List UInt8)
  | .objCallback data bytes _ | .dataCallback _ _ data bytes _ =>
      some (data, bytes)
  | .handleData | .callback | .completeRequest _ | .completeCallback _
  | .processPending => none

/-- A data callback runs on `ctx->msgbuf` itself. -/
def onMsgbuf : MsgbufFrame → Bool
  | .dataCallback _ _ _ _ copy => !copy
  | .objCallback .. | .handleData | .callback | .completeRequest _
  | .completeCallback _ | .processPending => false

end MsgbufFrame

namespace MsgbufContext

def call (ctx : MsgbufContext) (frame : MsgbufFrame) : MsgbufContext :=
  { ctx with frames := frame :: ctx.frames }

def free (ctx : MsgbufContext) (ptr : Nat) : MsgbufContext :=
  { ctx with heap := ctx.heap.free ptr }

/-- `calloc` and the `memcpy` of a message behind it. -/
def copyMsg (ctx : MsgbufContext) (bytes : List UInt8) : Nat × Heap :=
  ctx.heap.malloc bytes.length fun addr => bytes.getD addr 0

/-! ## Reading -/

/-- The length that `alloc_msg_buf` rounds up to. -/
def roundedLen (len : Nat) : Nat :=
  let rem := len % ubusMsgChunkSize
  if 0 < rem then len + (ubusMsgChunkSize - rem) else len

/-- `alloc_msg_buf`. -/
def allocMsgBuf (ctx : MsgbufContext) (len : Nat) (moves : Option Bool) :
    Bool × MsgbufContext :=
  let bufLen := if ctx.data.isNone then 0 else ctx.msgbufDataLen
  let len := roundedLen len
  let counter := ctx.msgbufReductionCounter + 1
  let (bufLen, counter) :=
    if len < bufLen then
      if ubusMsgbufReductionInterval < counter then (0, 0)
      else (bufLen, counter)
    else (bufLen, ctx.msgbufReductionCounter)
  let ctx := { ctx with msgbufReductionCounter := counter }
  if len ≤ bufLen then (true, ctx)
  else
    match moves with
    | none => (false, ctx)
    | some moves =>
        let (ptr, heap) := ctx.heap.realloc ctx.data len moves
        (true, { ctx with heap := heap, data := some ptr })

/-- `get_next_msg` behind the header: where the message lies and what it is,
if it returns true; also a message whose rest failed with -1 is returned. -/
def getNextMsg (ctx : MsgbufContext) (message : Message)
    (moves : Option Bool) (count : Nat) (stops : Bool) :
    Option (Nat × Message) × MsgbufContext :=
  let len := (blobRawLen message.data).toNat
  let (allocated, ctx) := ctx.allocMsgBuf len moves
  if allocated then
    match ctx.data with
    | none => (none, ctx)
    | some ptr =>
        let heap := ctx.heap.store ptr (message.data.take (4 + count))
        let ctx := { ctx with heap := heap }
        if stops && 4 + count < len then (none, ctx)
        else (some (ptr, ⟨message.hdr, heap.contents ptr len⟩), ctx)
  else (none, ctx)

/-! ## Object messages -/

/-- `ubus_queue_msg`. -/
def ubusQueueMsg (ctx : MsgbufContext) (message : Message) : MsgbufContext :=
  let (ptr, heap) := ctx.copyMsg message.data
  { ctx with
    heap := heap
    pending := listAdd ⟨message, ptr⟩ ctx.pending
    pendingTimer := ctx.sockRegistered || ctx.pendingTimer }

/-- `ubus_process_obj_msg` up to the handler, for the message in
`ctx->msgbuf` or in a copy. -/
def ubusProcessObjMsg (ctx : MsgbufContext) (ptr : Nat) (bytes : List UInt8)
    (isMsgbuf : Bool) : MsgbufContext :=
  if isMsgbuf then
    { ctx with data := none }.call (.objCallback ptr bytes true)
  else ctx.call (.objCallback ptr bytes false)

/-- The end of `ubus_process_obj_msg`; behind it `ubus_process_pending_msg`
frees a copy. -/
def objCallbackReturn (ctx : MsgbufContext) (ptr : Nat) (prevData : Bool) :
    MsgbufContext :=
  if prevData then
    match ctx.data with
    | some _ => ctx.free ptr
    | none => { ctx with data := some ptr }
  else ctx.free ptr

/-! ## Data messages -/

def setRequest (ctx : MsgbufContext) (req : Nat)
    (change : DataRequest → DataRequest) : MsgbufContext :=
  { ctx with
    request := Function.update ctx.request req (change (ctx.request req)) }

/-- `req_data_cb` up to the first callback; one of them is set. -/
def reqDataCb (ctx : MsgbufContext) (req ptr : Nat) (bytes : List UInt8)
    (copy : Bool) : MsgbufContext :=
  ctx.call (.dataCallback req (ctx.request req).rawDataCb ptr bytes copy)

/-- The loop of `__ubus_process_req_data` over the copies of a request, and the
end of `ubus_process_req_data`; `calls` says whether `complete_cb` is called. -/
def ubusProcessReqDataRest (req : Nat) (calls : Bool) :
    List UbusPendingData → MsgbufContext → MsgbufContext
  | [], ctx =>
      let ctx := ctx.setRequest req fun req => { req with blocked := false }
      if calls then ctx.call .callback else ctx
  | entry :: rest, ctx =>
      let ctx :=
        { ctx with parked := ctx.parked.eraseP fun other =>
            other.data = entry.data }
      if !(ctx.request req).cancelled &&
          ((ctx.request req).rawDataCb || (ctx.request req).dataCb) then
        ctx.reqDataCb req entry.data entry.bytes true
      else ubusProcessReqDataRest req calls rest (ctx.free entry.data)

/-- `ubus_process_req_data`. -/
def ubusProcessReqData (ctx : MsgbufContext) (req ptr : Nat)
    (bytes : List UInt8) (alloc : Bool) : MsgbufContext :=
  if !(ctx.request req).blocked then
    (ctx.setRequest req fun req => { req with blocked := true }).reqDataCb req
      ptr bytes false
  else if alloc then
    let (ptr, heap) := ctx.copyMsg bytes
    { ctx with
      heap := heap
      parked := listAdd ⟨req, ptr, bytes⟩ ctx.parked }
  else ctx

/-- The copies of a request, in the order of its list. -/
def parkedOf (ctx : MsgbufContext) (req : Nat) : List UbusPendingData :=
  ctx.parked.filter (·.req = req)

/-- A callback of `req_data_cb` returns. -/
def dataCallbackReturn (ctx : MsgbufContext) (req : Nat) (raw : Bool)
    (ptr : Nat) (bytes : List UInt8) (copy calls : Bool) : MsgbufContext :=
  if raw && (ctx.request req).dataCb then
    ctx.call (.dataCallback req false ptr bytes copy)
  else
    let ctx := if copy then ctx.free ptr else ctx
    ubusProcessReqDataRest req calls (ctx.parkedOf req) ctx

/-- `ubus_abort_request`: the copies are freed without a callback. -/
def ubusAbortRequest (ctx : MsgbufContext) (req : Nat) : MsgbufContext :=
  let ctx := ctx.setRequest req fun req => { req with cancelled := true }
  let freed := (ctx.parkedOf req).foldl (fun ctx entry => ctx.free entry.data)
    ctx
  { freed with parked := ctx.parked.filter (·.req ≠ req) }

/-! ## Messages -/

/-- `ubus_process_msg` of a message in `ctx->msgbuf`. -/
def ubusProcessMsg (ctx : MsgbufContext) (message : Message) (ptr : Nat)
    (found : Option Nat) (calls alloc : Bool) : MsgbufContext :=
  if msgType message = some UbusMsgType.status.code then
    if calls then ctx.call .callback else ctx
  else if msgType message = some UbusMsgType.data.code then
    match found with
    | none => ctx
    | some req =>
        if (ctx.request req).dataCb || (ctx.request req).rawDataCb then
          ctx.ubusProcessReqData req ptr message.data alloc
        else ctx
  else if isObjMsg message then
    if ctx.stackDepth ≠ 0 then ctx.ubusQueueMsg message
    else if calls then ctx.ubusProcessObjMsg ptr message.data true
    else ctx
  else ctx

/-- The end of `ubus_complete_request` behind `complete_cb`. -/
def completeRequestReturn (ctx : MsgbufContext) (registered : Bool) :
    MsgbufContext :=
  if registered then ctx
  else if ctx.stackDepth = 0 then
    { ctx with sockRegistered := false }.call .processPending
  else { ctx with sockRegistered := false }

def step (ctx : MsgbufContext) : MsgbufAction → Option MsgbufContext
  | .addUloop =>
      if MsgbufFrame.appRuns ctx.frames then
        some { ctx with sockRegistered := true }
      else none
  | .startRequest rawDataCb dataCb =>
      if MsgbufFrame.appRuns ctx.frames then
        some
          { ctx with
            starts := ctx.starts + 1
            request := Function.update ctx.request (ctx.starts + 1)
              ⟨rawDataCb, dataCb, false, false⟩ }
      else none
  | .handleData =>
      match ctx.frames with
      | .completeRequest _ :: _ => some (ctx.call .handleData)
      | frames =>
          if MsgbufFrame.appRuns frames then some (ctx.call .handleData)
          else none
  | .receive message moves count stops found calls alloc =>
      match ctx.frames with
      | .handleData :: outer =>
          match ctx.getNextMsg message.val moves count stops with
          | (none, ctx) => some { ctx with frames := outer }
          | (some (ptr, received), ctx) =>
              some (ctx.ubusProcessMsg received ptr found calls alloc)
      | _ => none
  | .completeRequest =>
      if MsgbufFrame.appRuns ctx.frames then
        some
          { ctx with
            sockRegistered := true
            stackDepth := ctx.stackDepth + 1
            frames := .completeRequest ctx.sockRegistered :: ctx.frames }
      else none
  | .requestDone =>
      match ctx.frames with
      | .completeRequest registered :: outer =>
          some
            { ctx with
              stackDepth := ctx.stackDepth - 1
              frames := .completeCallback registered :: outer }
      | _ => none
  | .abortRequest req =>
      if MsgbufFrame.appRuns ctx.frames then some (ctx.ubusAbortRequest req)
      else none
  | .timerExpired =>
      if ctx.pendingTimer && MsgbufFrame.appRuns ctx.frames then
        some ({ ctx with pendingTimer := false }.call .processPending)
      else none
  | .processPending calls =>
      match ctx.frames with
      | .processPending :: outer =>
          if ctx.stackDepth ≠ 0 then some { ctx with frames := outer }
          else
            match ctx.pending with
            | [] => some { ctx with frames := outer }
            | entry :: pending =>
                let ctx := { ctx with pending := pending }
                if calls then
                  some (ctx.ubusProcessObjMsg entry.data entry.message.data
                    false)
                else some (ctx.free entry.data)
      | _ => none
  | .returns calls =>
      match ctx.frames with
      | .handleData :: outer | .callback :: outer =>
          some { ctx with frames := outer }
      | .completeCallback registered :: outer =>
          some ({ ctx with frames := outer }.completeRequestReturn registered)
      | .objCallback ptr _ prevData :: outer =>
          some ({ ctx with frames := outer }.objCallbackReturn ptr prevData)
      | .dataCallback req raw ptr bytes copy :: outer =>
          some ({ ctx with frames := outer }.dataCallbackReturn req raw ptr
            bytes copy calls)
      | .completeRequest _ :: _ | .processPending :: _ | [] => none

end MsgbufContext

/-- A context behind `ubus_connect_ctx`. -/
def receiver : Machine MsgbufContext MsgbufAction where
  init :=
    let (ptr, heap) := Heap.empty.malloc ubusMsgChunkSize fun _ => 0
    { heap := heap
      data := some ptr
      msgbufDataLen := ubusMsgChunkSize
      msgbufReductionCounter := 0
      stackDepth := 0
      sockRegistered := false
      pendingTimer := false
      pending := []
      parked := []
      starts := 0
      request := fun _ => ⟨false, false, false, false⟩
      frames := [] }
  step := MsgbufContext.step

end LibubusJni.Libubus
