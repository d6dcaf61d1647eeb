import LibubusJni.Messages

/-!
# `ubus wait_for`

`ubus_cli_wait_for` asks ubusd for all objects and then registers for the event
`ubus.object.add`, while other clients add and remove objects.  Between ubusd
and the command messages stay in order: `request` is what the command has
written and ubusd has not handled, `inbox` what ubusd has sent and the command
has not read.

The status messages that answer events are left out: ubusd changes nothing on
account of them, and they match none of the requests of the command.
-/

namespace LibubusJni.WaitFor

open LibubusJni.Lib (Machine)
open LibubusJni.Libubox LibubusJni.Ubusd

/-- Where `ubus_cli_wait_for` is. -/
inductive WaitCall where
  /-- `ubus_lookup` -/
  | lookup
  /-- `ubus_add_object`, in `ubus_register_event_handler` -/
  | addObject
  /-- `ubus_invoke`, in `ubus_register_event_handler` -/
  | register
  | uloopRun
  /-- The command has returned, or its process has died. -/
  | returned
  deriving DecidableEq, Repr

/-- `req->peer` of the request that a call waits for; in `uloop_run` and behind
it `ctx->stack_depth` is zero. -/
def WaitCall.peer : WaitCall → Option UInt32
  | .lookup | .addObject => some 0
  | .register => some ubusSystemObjectEvent
  | .uloopRun | .returned => none

/-- `struct cli_wait_data`, with what libubus keeps for the command. -/
structure WaitData where
  call : WaitCall
  /-- `pending`, as far as `n_pending` counts -/
  pending : List (List UInt8)
  /-- `ev.obj.id`, once the object is in `ctx->objects` -/
  objid : Option UInt32
  /-- `ctx->request_seq` -/
  requestSeq : UInt16
  request : Option BusRequest
  /-- `ctx->pending` -/
  queued : List BusMsg
  deriving DecidableEq, Repr

namespace WaitData

variable (data : WaitData) (msg : BusMsg)

/-- `wait_check_object`.  Of a path that is given several times all places go.
Only in `uloop_run` does `uloop_end` have a lasting effect. -/
def waitCheckObject (path : List UInt8) : WaitData :=
  let pending := data.pending.filter (· ≠ path)
  { data with
    pending := pending
    call :=
      if pending.isEmpty && data.call == .uloopRun then .returned
      else data.call }

/-- `wait_event_cb`. -/
def waitEventCb (type bytes : List UInt8) (msg : Nat) : WaitData :=
  if type ≠ ascii "ubus.object.add" then data
  else
    let mem := memoryOf bytes
    match (blobmsgParse mem [waitPolicy] (msg + 4)
        (blobLen (attrAt mem msg))).2 with
    | [some attr] => data.waitCheckObject (cString bytes (blobmsgData mem attr))
    | _ => data

/-- `ubus_process_obj_msg`.  The object of the event handler is the only one,
its method has no name, and it has no callback for notifications. -/
def ubusProcessObjMsg : WaitData :=
  let buf := received msg
  if msg.hdr.type ≠ UbusMsgType.invoke.code then data
  else if buf.objid.isNone || buf.objid ≠ data.objid then data
  else
    match buf.method, buf.attrbuf .data with
    | none, _ => data
    | some type, none =>
        -- `wait_event_cb` follows a null pointer for the event it waits for
        if type = ascii "ubus.object.add" then { data with call := .returned }
        else data
    | some type, some msg => data.waitEventCb type buf.data msg

/-- `raw_data_cb` of the request in hand: `ubus_lookup_cb` with `wait_list_cb`,
or `ubus_add_object_cb` of an object without a type. -/
def rawDataCb : WaitData :=
  let buf := received msg
  match data.call with
  | .lookup =>
      match buf.attrbuf .objid, buf.attrbuf .objpath, buf.attrbuf .objtype with
      | some _, some objpath, some _ =>
          data.waitCheckObject (cString buf.data (objpath + 4))
      | _, _, _ => data
  | .addObject =>
      match buf.objid with
      | none => data
      | some objid => { data with objid := some objid }
  | .register | .uloopRun | .returned => data

/-- `ubus_start_request`. -/
def ubusStartRequest (call : WaitCall) (type : UbusMsgType)
    (attrs : List (List UInt8)) : WaitData :=
  { data with
    call := call
    requestSeq := data.requestSeq + 1
    request := some
      ⟨⟨0, type.code, data.requestSeq + 1, call.peer.getD 0⟩,
        Bus.msgFromBlob attrs⟩ }

/-- What `ubus_register_event_handler` asks `register` of the event object. -/
def registerAttrs (objid : UInt32) : List (List UInt8) :=
  [blobPutInt32 UbusMsgAttr.objid.id ubusSystemObjectEvent,
    blobPutString UbusMsgAttr.method.id (ascii "register"),
    blobNest UbusMsgAttr.data.id
      [blobmsgAddField BlobmsgType.int32.id (ascii "object") (be32Bytes objid),
        blobmsgAddField BlobmsgType.string.id (ascii "pattern")
          (ascii "ubus.object.add" ++ [0])]]

/-- The call returns this status, and the command goes on. -/
def callReturns (ret : UInt32) : WaitData :=
  match data.call with
  | .lookup =>
      if ret ≠ 0 || data.pending.isEmpty then { data with call := .returned }
      else data.ubusStartRequest .addObject .addObject []
  | .addObject =>
      let objid := data.objid.getD 0
      if ret ≠ 0 || objid = 0 then { data with call := .returned }
      else data.ubusStartRequest .register .invoke (registerAttrs objid)
  | .register =>
      { data with call := if ret = 0 then .uloopRun else .returned }
  | .uloopRun | .returned => data

/-- What `ubus_process_req_status` makes of a message. -/
def statusOf : UInt32 :=
  match (received msg).attrbuf .status with
  | none => ubusStatusInvalidArgument
  | some attr => blobGetU32 (received msg).mem attr

/-- `ubus_find_request` finds the request in hand. -/
def answered : Bool :=
  msg.hdr.seq == data.requestSeq && some msg.hdr.peer == data.call.peer

/-- `ubus_process_msg`.  The message that completes a request is the last one
that `ubus_handle_data` takes before the call returns. -/
def ubusProcessMsg : WaitData :=
  match UbusMsgType.ofCode? msg.hdr.type with
  | some .status =>
      if data.answered msg then data.callReturns (statusOf msg) else data
  | some .data => if data.answered msg then data.rawDataCb msg else data
  | some .invoke | some .unsubscribe | some .notify =>
      if data.call.peer.isSome then
        { data with queued := listAdd msg data.queued }
      else data.ubusProcessObjMsg msg
  | _ => data

/-- `ubus_process_pending_msg`. -/
def ubusProcessPendingMsg : WaitData :=
  data.queued.foldl ubusProcessMsg { data with queued := [] }

end WaitData

/-- The command with these arguments, up to its first request. -/
def ubusCliWaitFor (argv : List (List UInt8)) : WaitData :=
  let data : WaitData :=
    { call := .returned
      pending := argv
      objid := none
      requestSeq := 0
      request := none
      queued := [] }
  if argv.isEmpty then data else data.ubusStartRequest .lookup .lookup []

/-- ubusd and the command.  `lookedUp` is no state of either: it records the
paths that were registered when ubusd handled the lookup. -/
structure WaitSystem where
  bus : Bus
  data : WaitData
  inbox : List BusMsg
  lookedUp : List (List UInt8)

/-- The path belongs to an object that is registered. -/
def Registered (store : ObjStore) (path : List UInt8) : Prop :=
  ∃ obj ∈ store.path, store.pathKey obj = path

instance (store : ObjStore) (path : List UInt8) :
    Decidable (Registered store path) :=
  inferInstanceAs (Decidable (∃ obj ∈ store.path, _))

inductive WaitAction where
  /-- ubusd handles a request of another client. -/
  | other (client : Ptr) (ub : BusRequest) (urandom : List UInt32)
  /-- ubusd handles the request of the command. -/
  | serve (urandom : List UInt32)
  /-- The command takes the next message. -/
  | handleData
  /-- `pending_timer` runs out. -/
  | processPending
  /-- `wait_timeout`. -/
  | waitTimeout
  deriving DecidableEq, Repr

/-- A request of another client to add or remove an object. -/
def AddsOrRemoves (ub : BusRequest) : Prop :=
  ub.Whole ∧ (UbusMsgType.ofCode? ub.hdr.type = some .addObject ∨
    UbusMsgType.ofCode? ub.hdr.type = some .removeObject)

instance (ub : BusRequest) : Decidable (AddsOrRemoves ub) :=
  inferInstanceAs (Decidable (_ ∧ (_ ∨ _)))

namespace WaitSystem

variable (system : WaitSystem) (cl : Ptr)

/-- ubusd lives and handles a message, and what it sends to the command is on
its way. -/
def busStep (action : BusAction) : Option WaitSystem :=
  match ubusd.step system.bus action with
  | none => none
  | some bus =>
      if bus.fault = none then
        some { system with
          bus := bus
          inbox := system.inbox ++ bus.sent.filter fun msg => msg.client = cl }
      else none

def step : WaitAction → Option WaitSystem
  | .other client ub urandom =>
      if client ≠ cl ∧ AddsOrRemoves ub then
        system.busStep cl (.receive client ub urandom)
      else none
  | .serve urandom =>
      match system.data.request with
      | none => none
      | some ub =>
          let lookedUp :=
            if system.data.call = .lookup then
              system.bus.store.path.map system.bus.store.pathKey
            else system.lookedUp
          { system with
            data := { system.data with request := none }
            lookedUp := lookedUp }.busStep cl (.receive cl ub urandom)
  | .handleData =>
      match system.inbox with
      | [] => none
      | msg :: rest =>
          -- behind a message that `ubus_validate_hdr` refuses nothing is read
          if msg.Validates ∧ system.data.call ≠ .returned then
            some { system with
              data := system.data.ubusProcessMsg msg
              inbox := rest }
          else none
  | .processPending =>
      if system.data.call = .uloopRun then
        some { system with data := system.data.ubusProcessPendingMsg }
      else none
  | .waitTimeout =>
      if system.data.call = .uloopRun then
        some { system with data := { system.data with call := .returned } }
      else none

end WaitSystem

/-- The client `cl` runs the command. -/
def waitFor (bus : Bus) (cl : Ptr) (argv : List (List UInt8)) :
    Machine WaitSystem WaitAction where
  init :=
    { bus := bus
      data := ubusCliWaitFor argv
      inbox := []
      lookedUp := [] }
  step := fun system action => system.step cl action

/-- `uloop_run`, with all messages processed. -/
structure WaitSystem.CaughtUp (system : WaitSystem) : Prop where
  call : system.data.call = .uloopRun
  inbox : system.inbox = []
  queued : system.data.queued = []

/-- When ubusd handles the registration for events, the awaited paths that are
registered were registered when it handled the lookup. -/
def NoneBetween (argv : List (List UInt8)) (system : WaitSystem) :
    WaitAction → Prop
  | .serve _ =>
      system.data.call = .register →
        ∀ path ∈ argv, Registered system.bus.store path →
          path ∈ system.lookedUp
  | _ => True

end LibubusJni.WaitFor
