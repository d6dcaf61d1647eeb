import LibubusJni.Lib.Machine
import LibubusJni.Ubusd.Object

/-!
# The handlers of `ubusd_proto.c`

A handler returns a status, or `none` for the return value `-1` of those that
answer for themselves.  Once `fault` is set the process is gone: whatever the
model computes behind it is of no account, and no step follows.
-/

namespace LibubusJni.Ubusd

open LibubusJni.Lib LibubusJni.Libubox

/-- A received `struct ubus_msg_buf`; `bytes` is the memory at `ub->data`, with
what lies behind the message. -/
structure BusRequest where
  hdr : UbusMsghdr
  bytes : List UInt8
  deriving DecidableEq, Repr

namespace BusRequest

def mem (ub : BusRequest) : Memory := memoryOf ub.bytes

/-- The table of attributes. -/
def attr (ub : BusRequest) : AttrTable := ubusParseMsg ub.mem

end BusRequest

namespace Bus

variable (bus : Bus) (cl : Ptr) (ub : BusRequest)

/-- `ubusd_send_pong`. -/
def ubusdSendPong : Bus × Option UInt32 :=
  (bus.ubusMsgSend (some cl) { ub.hdr with type := UbusMsgType.data.code }
    (msgData ub.bytes), some ubusStatusOk)

/-- The object id that an attribute names, if there is such an object. -/
def findObjectOf (attr : Nat) : Option Ptr :=
  bus.store.ubusdFindObject (blobGetU32 ub.mem attr)

/-- `ubusd_handle_remove_object`. -/
def ubusdHandleRemoveObject : Bus × Option UInt32 :=
  match ub.attr .objid with
  | none => (bus, some ubusStatusInvalidArgument)
  | some objid =>
      match bus.findObjectOf ub objid with
      | none => (bus, some ubusStatusNotFound)
      | some obj =>
          let object := bus.store.objectAt obj
          if object.client ≠ some cl then
            (bus, some ubusStatusPermissionDenied)
          else
            -- the type goes with its last object
            let objtype :=
              match object.type with
              | none => []
              | some type =>
                  if (bus.store.typeAt type).refcount = 1 then
                    [blobPutInt32 UbusMsgAttr.objtype.id
                      (bus.store.typeAt type).id]
                  else []
            let bus := bus.blobBufInit
              (blobPutInt32 UbusMsgAttr.objid.id object.id :: objtype)
            -- messages that are sent while the object is freed replace the
            -- attributes in `b`
            ((bus.ubusdFreeObject obj).ubusSendMsgFromBlob (some cl) ub.hdr
              .data, some ubusStatusOk)

/-- `ubusd_handle_add_object`. -/
def ubusdHandleAddObject : Bus × Option UInt32 :=
  match bus.ubusdCreateObject cl ub.bytes ub.attr with
  | (bus, none) => (bus, some ubusStatusInvalidArgument)
  | (bus, some obj) =>
      let object := bus.store.objectAt obj
      let objid := blobPutInt32 UbusMsgAttr.objid.id object.id
      match ub.attr .signature, object.type with
      | none, _ =>
          ((bus.blobBufInit [objid]).ubusSendMsgFromBlob (some cl) ub.hdr .data,
            some ubusStatusOk)
      | some _, none => (bus.crash .nullType, some ubusStatusOk)
      | some _, some type =>
          let objtype :=
            blobPutInt32 UbusMsgAttr.objtype.id (bus.store.typeAt type).id
          ((bus.blobBufInit [objid, objtype]).ubusSendMsgFromBlob (some cl)
            ub.hdr .data, some ubusStatusOk)

/-- What `ubusd_send_obj` puts into its message; nothing if a method copies a
negative length. -/
def objAttrs (object : UbusObject) (type : UbusObjectType) :
    Option (List (List UInt8)) :=
  (type.methods.mapM blobmsgAddBlob).map fun methods =>
    (match object.path with
      | none => []
      | some key => [blobPutString UbusMsgAttr.objpath.id key]) ++
    [blobPutInt32 UbusMsgAttr.objid.id object.id,
      blobPutInt32 UbusMsgAttr.objtype.id type.id,
      blobNest UbusMsgAttr.signature.id methods]

/-- `ubusd_send_obj`. -/
def ubusdSendObj (bus : Bus) (cl : Ptr) (ub : BusRequest) (obj : Ptr) : Bus :=
  let object := bus.store.objectAt obj
  match object.type with
  | none => bus.crash .nullType
  | some type =>
      match objAttrs object (bus.store.typeAt type) with
      | none => bus.crash .overrun
      | some attrs =>
          (bus.blobBufInit attrs).ubusSendMsgFromBlob (some cl) ub.hdr .data

/-- The objects that `ubusd_handle_lookup` reports for an `OBJPATH`. -/
def lookupPath (objpath : Nat) : List Ptr :=
  let string := cString ub.bytes (objpath + 4)
  let key (obj : Ptr) : List UInt8 := (bus.store.objectAt obj).path.getD []
  -- of an empty string, `objpath[len - 1]` is the byte before it
  if ub.mem (objpath + 4 + string.length - 1) ≠ 0x2a then
    (avlFind avlStrcmp key string bus.store.path).toList
  else
    let stem := string.dropLast
    (avlFindGreaterequal avlStrcmp key stem bus.store.path).takeWhile fun obj =>
      -- and `strncmp` runs over the whole string if `len` is negative
      if string = [] then (key obj).isEmpty else stem.isPrefixOf (key obj)

/-- `ubusd_handle_lookup`. -/
def ubusdHandleLookup : Bus × Option UInt32 :=
  match ub.attr .objpath with
  | none =>
      (bus.store.path.foldl (fun bus obj => bus.ubusdSendObj cl ub obj) bus,
        some ubusStatusOk)
  | some objpath =>
      let found := bus.lookupPath ub objpath
      (found.foldl (fun bus obj => bus.ubusdSendObj cl ub obj) bus,
        some (if found.isEmpty then ubusStatusNotFound else ubusStatusOk))

/-- The string of an attribute: `blob_data` read as `const char *`. -/
def stringOf (attr : Nat) : List UInt8 := cString ub.bytes (attr + 4)

/-- What `ubusd_forward_invoke` puts behind the attributes that are already in
the buffer; nothing if it copies a negative length. -/
def invokeAttrs (object : UbusObject) (method : Nat) :
    Option (List (List UInt8)) :=
  let named :=
    [blobPutInt32 UbusMsgAttr.objid.id object.id,
      blobPutString UbusMsgAttr.method.id (stringOf ub method)]
  match ub.attr .data with
  | none => some named
  | some data =>
      (blobPutPayload UbusMsgAttr.data.id ub.bytes data).map
        fun copied => named ++ [copied]

/-- `ubusd_forward_invoke`, with `ub->hdr.peer` set to the client's id by its
callers. -/
def ubusdForwardInvoke (bus : Bus) (cl : Ptr) (ub : BusRequest)
    (front : List (List UInt8)) (obj : Ptr) (method : Nat) : Bus :=
  let object := bus.store.objectAt obj
  match invokeAttrs ub object method with
  | none => bus.crash .overrun
  | some attrs =>
      (bus.blobBufInit (front ++ attrs)).ubusSendMsgFromBlob object.client
        { ub.hdr with peer := (bus.store.clientAt cl).id } .invoke

/-- `ubusd_handle_invoke`. -/
def ubusdHandleInvoke : Bus × Option UInt32 :=
  match ub.attr .method, ub.attr .objid with
  | some method, some objid =>
      match bus.findObjectOf ub objid with
      | none => (bus, some ubusStatusNotFound)
      | some obj =>
          let object := bus.store.objectAt obj
          if object.client.isNone then
            if object.recvMsg then
              let received :=
                bus.ubusdEventRecv cl (stringOf ub method) ub.bytes
                  (ub.attr .data)
              (received.1, some received.2)
            else (bus.crash .nullRecvMsg, some ubusStatusOk)
          else (bus.ubusdForwardInvoke cl ub [] obj method, none)
  | _, _ => (bus, some ubusStatusInvalidArgument)

/-- `no_reply` of `ubusd_handle_notify`. -/
def noReply : Bool :=
  match ub.attr .noReply with
  | none => false
  | some attr => blobGetU8 ub.mem attr ≠ 0

/-- The first half of `ubusd_handle_notify`: the list of subscribers. -/
def sendSubscribers (obj : Ptr) : Bus :=
  let object := bus.store.objectAt obj
  let ids := object.subscribers.map fun s =>
    blobPutInt32 0
      (bus.store.objectAt (bus.store.subscriptionAt s).subscriber).id
  (bus.blobBufInit
    [blobPutInt32 UbusMsgAttr.objid.id object.id,
      blobNest UbusMsgAttr.subscribers.id ids,
      blobPutInt32 UbusMsgAttr.status.id 0]).ubusSendMsgFromBlob (some cl)
        ub.hdr .status

/-- `ubusd_handle_notify`. -/
def ubusdHandleNotify : Bus × Option UInt32 :=
  match ub.attr .method, ub.attr .objid with
  | some method, some objid =>
      match bus.findObjectOf ub objid with
      | none => (bus, some ubusStatusNotFound)
      | some obj =>
          let object := bus.store.objectAt obj
          if object.client ≠ some cl then
            (bus, some ubusStatusPermissionDenied)
          else
            let front :=
              if noReply ub then [blobPutInt8 UbusMsgAttr.noReply.id 1] else []
            let bus := if noReply ub then bus else bus.sendSubscribers cl ub obj
            (object.subscribers.foldl
              (fun bus s =>
                bus.ubusdForwardInvoke cl ub front
                  (bus.store.subscriptionAt s).subscriber method)
              bus, none)
  | _, _ => (bus, some ubusStatusInvalidArgument)

/-- The attributes without which `ubusd_handle_response` drops a message. -/
def responseComplete : Bool :=
  !(ub.hdr.type == UbusMsgType.status.code && (ub.attr .status).isNone) &&
    !(ub.hdr.type == UbusMsgType.data.code && (ub.attr .data).isNone)

/-- `ubusd_handle_response`. -/
def ubusdHandleResponse : Bus × Option UInt32 :=
  match ub.attr .objid with
  | none => (bus, none)
  | some objid =>
      if responseComplete ub then
        match bus.findObjectOf ub objid with
        | none => (bus, none)
        | some obj =>
            if (bus.store.objectAt obj).client ≠ some cl then (bus, none)
            else
              match bus.store.findClient ub.hdr.peer with
              | none => (bus, none)
              | some receiver =>
                  (bus.ubusMsgSend (some receiver)
                    { ub.hdr with peer := blobGetU32 ub.mem objid }
                    (msgData ub.bytes), none)
      else (bus, none)

/-- `ubusd_handle_add_watch`. -/
def ubusdHandleAddWatch : Bus × Option UInt32 :=
  match ub.attr .objid, ub.attr .target with
  | some objid, some targetAttr =>
      match bus.findObjectOf ub objid with
      | none => (bus, some ubusStatusNotFound)
      | some obj =>
          if (bus.store.objectAt obj).client ≠ some cl then
            (bus, some ubusStatusInvalidArgument)
          else
            match bus.findObjectOf ub targetAttr with
            | none => (bus, some ubusStatusNotFound)
            | some target =>
                if (bus.store.objectAt target).client = some cl then
                  (bus, some ubusStatusInvalidArgument)
                else (bus.ubusSubscribe obj target, some ubusStatusOk)
  | _, _ => (bus, some ubusStatusInvalidArgument)

/-- `ubusd_handle_remove_watch`. -/
def ubusdHandleRemoveWatch : Bus × Option UInt32 :=
  match ub.attr .objid, ub.attr .target with
  | some objid, some targetAttr =>
      match bus.findObjectOf ub objid with
      | none => (bus, some ubusStatusNotFound)
      | some obj =>
          if (bus.store.objectAt obj).client ≠ some cl then
            (bus, some ubusStatusInvalidArgument)
          else
            let id := blobGetU32 ub.mem targetAttr
            match (bus.store.objectAt obj).targetList.find? fun s =>
                (bus.store.objectAt (bus.store.subscriptionAt s).target).id == id
              with
            | none => (bus, some ubusStatusNotFound)
            | some s => (bus.ubusUnsubscribe s, some ubusStatusOk)
  | _, _ => (bus, some ubusStatusInvalidArgument)

/-- `handlers[type]`, called with the parsed message. -/
def handle : UbusMsgType → Bus × Option UInt32
  | .hello => (bus, some ubusStatusInvalidCommand)
  | .ping => bus.ubusdSendPong cl ub
  | .addObject => bus.ubusdHandleAddObject cl ub
  | .removeObject => bus.ubusdHandleRemoveObject cl ub
  | .lookup => bus.ubusdHandleLookup cl ub
  | .invoke => bus.ubusdHandleInvoke cl ub
  | .status | .data => bus.ubusdHandleResponse cl ub
  | .subscribe => bus.ubusdHandleAddWatch cl ub
  | .unsubscribe => bus.ubusdHandleRemoveWatch cl ub
  | .notify => bus.ubusdHandleNotify cl ub

/-- The status message that `retmsg` becomes. -/
def sendStatus (ret : UInt32) : Bus :=
  bus.ubusMsgSend (some cl)
    ⟨0, UbusMsgType.status.code, ub.hdr.seq, ub.hdr.peer⟩ (statusData ret)

/-- `ubusd_proto_receive_message`. -/
def ubusdProtoReceiveMessage : Bus :=
  let handled :=
    match UbusMsgType.ofCode? ub.hdr.type with
    | none => (bus, some ubusStatusInvalidCommand)
    | some type => bus.handle cl ub type
  match handled.2 with
  | none => handled.1
  | some ret => handled.1.sendStatus cl ub ret

/-- `ubusd_proto_new_client`. -/
def ubusdProtoNewClient : Bus :=
  match ubusAllocId (fun id => (bus.store.findClient id).isSome) bus.urandom
    with
  | (none, urandom) => { bus with urandom := urandom }
  | (some id, urandom) =>
      { bus with
        urandom := urandom
        store := bus.store.addClient id
        b := [] }.ubusMsgSend (some bus.store.allocs)
          ⟨0, UbusMsgType.hello.code, 0, id⟩ (msgFromBlob [])

/-- `ubusd_proto_free_client`. -/
def ubusdProtoFreeClient : Bus :=
  let bus := (bus.store.clientAt cl).objects.foldl ubusdFreeObject bus
  { bus with store := bus.store.removeClient cl }

end Bus

/-- What happens to ubusd, and what `/dev/urandom` returns meanwhile. -/
inductive BusAction where
  | connect (urandom : List UInt32)
  | receive (cl : Ptr) (ub : BusRequest) (urandom : List UInt32)
  | disconnect (cl : Ptr)
  deriving DecidableEq, Repr

/-- The messages that `client_cb` hands over: they come from a connected client,
are complete, and are not longer than it allows. -/
def BusAction.enabled (store : ObjStore) : BusAction → Bool
  | .connect _ => true
  | .receive cl ub _ =>
      store.clients.contains cl && blobPadLen ub.bytes ≤ ubusMaxMsglen &&
        max 4 (blobRawLen ub.bytes).toNat ≤ ub.bytes.length
  | .disconnect cl => store.clients.contains cl

namespace Bus

/-- The step of an enabled action. -/
def act (bus : Bus) : BusAction → Bus
  | .connect urandom =>
      { bus with urandom := urandom, sent := [] }.ubusdProtoNewClient
  | .receive cl ub urandom =>
      { bus with urandom := urandom, sent := [] }.ubusdProtoReceiveMessage cl ub
  | .disconnect cl => { bus with sent := [] }.ubusdProtoFreeClient cl

def step (bus : Bus) (action : BusAction) : Option Bus :=
  if bus.fault.isNone && action.enabled bus.store then some (bus.act action)
  else none

/-- No clients and no objects. -/
def blank : Bus where
  store :=
    { clients := []
      objTypes := []
      objects := []
      path := []
      patterns := []
      clientAt := fun _ => ⟨0, []⟩
      typeAt := fun _ => ⟨0, 0, []⟩
      objectAt := fun _ => ⟨0, [], [], [], none, none, none, false⟩
      subscriptionAt := fun _ => ⟨0, 0⟩
      sourceAt := fun _ => ⟨0, [], false⟩
      eventObj := 0
      allocs := 0 }
  invokeSeq := fun _ => 0
  eventSeen := fun _ => 0
  eventSeq := 0
  objEventSeq := 1
  urandom := []
  b := [blobPutInt32 UbusMsgAttr.status.id 0]
  sent := []
  fault := none

/-- `ubusd_event_init`: the object `event_obj` with its `recv_msg`. -/
def ubusdEventInit (bus : Bus) : Bus :=
  let store := bus.store.addObject ubusSystemObjectEvent none
  let obj := bus.store.allocs
  { bus with
    store :=
      { store.modifyObject obj fun object => { object with recvMsg := true } with
        eventObj := obj } }

end Bus

/-- ubusd from `ubusd_obj_init` on. -/
def ubusd : Machine Bus BusAction where
  init := Bus.blank.ubusdEventInit
  step := Bus.step

end LibubusJni.Ubusd
