import LibubusJni.Libubox.BlobBuf
import LibubusJni.Ubusd.Policy
import LibubusJni.Ubusd.Status
import LibubusJni.Ubusd.Store

/-!
# The state of ubusd between and inside of requests

`sent` lists the calls of `ubus_msg_send` since the request in hand began;
whether a message is written at once or queued is the subject of the modules on
message buffers.  Where the code follows a null pointer, or copies a negative
length, `fault` is set: the process dies there.  Allocation succeeds.
-/

namespace LibubusJni.Ubusd

open LibubusJni.Libubox

/-- Where the process dies. -/
inductive Fault where
  /-- `ubus_msg_send` of a null client. -/
  | nullClient
  /-- `obj->type->id` or `obj->type->methods` of an object without a type. -/
  | nullType
  /-- `obj->recv_msg` of an object that has none. -/
  | nullRecvMsg
  /-- `blob_data` and `blob_len` of a missing `UBUS_ATTR_DATA`. -/
  | noData
  /-- `memcpy` of a negative length. -/
  | overrun
  deriving DecidableEq, Repr

/-- A message handed to `ubus_msg_send`. -/
structure BusMsg where
  client : Ptr
  hdr : UbusMsghdr
  data : List UInt8
  deriving DecidableEq, Repr

/-- The global state.  `invoke_seq` and `event_seen` are fields of
`struct ubus_object`; they number messages and link nothing. -/
structure Bus where
  store : ObjStore
  invokeSeq : Ptr → UInt32
  eventSeen : Ptr → Nat
  eventSeq : Nat
  objEventSeq : Nat
  /-- What the next reads of `/dev/urandom` return. -/
  urandom : List UInt32
  /-- The attributes in the global buffer `b`. -/
  b : List (List UInt8)
  sent : List BusMsg
  fault : Option Fault

/-- `ubus_alloc_id` for a new identifier: values are read until one is free. -/
def ubusAllocId (taken : UInt32 → Bool) :
    List UInt32 → Option UInt32 × List UInt32
  | [] => (none, [])
  | id :: rest =>
      -- `continue` below `UBUS_SYSTEM_OBJECT_MAX` leads to the condition of the
      -- loop, which is `avl_insert`, so a small value is taken like any other
      if taken id then ubusAllocId taken rest else (some id, rest)

namespace Bus

def crash (bus : Bus) (fault : Fault) : Bus :=
  { bus with fault := some (bus.fault.getD fault) }

/-- `ubus_msg_send`. -/
def ubusMsgSend (bus : Bus) (client : Option Ptr) (hdr : UbusMsghdr)
    (data : List UInt8) : Bus :=
  match client with
  | none => bus.crash .nullClient
  | some cl => { bus with sent := bus.sent ++ [⟨cl, hdr, data⟩] }

/-- What is sent of a buffer is `ub->len`, the raw length of its attribute. -/
def msgData (bytes : List UInt8) : List UInt8 :=
  bytes.take (blobRawLen bytes).toNat

/-- `blob_buf_init(&b, 0)` and the attributes put behind it. -/
def blobBufInit (bus : Bus) (attrs : List (List UInt8)) : Bus :=
  { bus with b := attrs }

/-- `ubus_msg_new(b.head, blob_raw_len(b.head), _)`. -/
def msgFromBlob (attrs : List (List UInt8)) : List UInt8 :=
  msgData (blobNest 0 attrs)

/-- `ubus_send_msg_from_blob` in answer to a message with this header: whatever
`b` holds is sent. -/
def ubusSendMsgFromBlob (bus : Bus) (client : Option Ptr) (hdr : UbusMsghdr)
    (type : UbusMsgType) : Bus :=
  bus.ubusMsgSend client ⟨0, type.code, hdr.seq, hdr.peer⟩ (msgFromBlob bus.b)

/-- `++obj->invoke_seq`. -/
def nextInvokeSeq (bus : Bus) (obj : Ptr) : Bus :=
  { bus with
    invokeSeq :=
      Function.update bus.invokeSeq obj (bus.invokeSeq obj + 1) }

/-- `ubus_notify_subscription`. -/
def ubusNotifySubscription (bus : Bus) (obj : Ptr) : Bus :=
  let object := bus.store.objectAt obj
  let active : UInt8 := if object.subscribers.isEmpty then 0 else 1
  let bus := (bus.nextInvokeSeq obj).blobBufInit
    [blobPutInt32 UbusMsgAttr.objid.id object.id,
      blobPutInt8 UbusMsgAttr.active.id active]
  bus.ubusMsgSend object.client
    ⟨0, UbusMsgType.notify.code, (bus.invokeSeq obj).toUInt16, 0⟩
    (msgFromBlob bus.b)

/-- The message of `ubus_notify_unsubscribe`. -/
def sendUnsubscribe (bus : Bus) (s : Ptr) : Bus :=
  let subscription := bus.store.subscriptionAt s
  let subscriber := bus.store.objectAt subscription.subscriber
  let bus := (bus.nextInvokeSeq subscription.subscriber).blobBufInit
    [blobPutInt32 UbusMsgAttr.objid.id subscriber.id,
      blobPutInt32 UbusMsgAttr.target.id
        (bus.store.objectAt subscription.target).id]
  bus.ubusMsgSend subscriber.client
    ⟨0, UbusMsgType.unsubscribe.code,
      (bus.invokeSeq subscription.subscriber).toUInt16, 0⟩
    (msgFromBlob bus.b)

/-- `ubus_subscribe`. -/
def ubusSubscribe (bus : Bus) (obj target : Ptr) : Bus :=
  let first := (bus.store.objectAt target).subscribers.isEmpty
  let bus := { bus with store := bus.store.addSubscription obj target }
  if first then bus.ubusNotifySubscription target else bus

/-- `ubus_unsubscribe`. -/
def ubusUnsubscribe (bus : Bus) (s : Ptr) : Bus :=
  let obj := (bus.store.subscriptionAt s).target
  let bus := { bus with store := bus.store.unlinkSubscription s }
  if (bus.store.objectAt obj).subscribers.isEmpty then
    bus.ubusNotifySubscription obj
  else bus

/-- `ubus_notify_unsubscribe`. -/
def ubusNotifyUnsubscribe (bus : Bus) (s : Ptr) : Bus :=
  (bus.sendUnsubscribe s).ubusUnsubscribe s

end Bus

end LibubusJni.Ubusd
