import LibubusJni.Ubusd.State

/-!
# `ubusd_event.c`

Events are sent along the tree of patterns.  The event object receives the
methods `register` and `send` of every client.
-/

namespace LibubusJni.Ubusd

open LibubusJni.Libubox

/-- The bytes of an ASCII string. -/
def ascii (text : String) : List UInt8 := text.toList.map fun c => c.toNat.toUInt8

/-- `strmatch_len`: whether the strings are equal, and how many of their first
bytes are. -/
def strmatchLen : List UInt8 → List UInt8 → Bool × Nat
  | [], [] => (true, 0)
  | c1 :: s1, c2 :: s2 =>
      if c1 = c2 then ((strmatchLen s1 s2).1, (strmatchLen s1 s2).2 + 1)
      else (false, 0)
  | _, _ => (false, 0)

/-- `UBUS_SYSTEM_OBJECT_MAX`. -/
def ubusSystemObjectMax : UInt32 := 1024

/-- `UBUS_SYSTEM_OBJECT_EVENT`. -/
def ubusSystemObjectEvent : UInt32 := 1

def ubusStatusOk : UInt32 := 0

def ubusStatusInvalidArgument : UInt32 := 2

def ubusStatusNotFound : UInt32 := 4

def ubusStatusPermissionDenied : UInt32 := 6

namespace Bus

/-- `ubusd_send_event_msg`; `attrs` is what `fill_cb` puts behind the object
id, or nothing if it copies a negative length. -/
def ubusdSendEventMsg (bus : Bus) (cl : Option Ptr) (obj : Ptr)
    (attrs : Option (List (List UInt8))) : Bus :=
  if (bus.store.objectAt obj).client = cl then bus
  else if bus.eventSeen obj = bus.objEventSeq then bus
  else
    match attrs with
    | none => bus.crash .overrun
    | some attrs =>
        -- the message is made once, in `b`, and its object id written each time
        let bus :=
          { bus with
            eventSeen := Function.update bus.eventSeen obj bus.objEventSeq
            eventSeq := bus.eventSeq + 1
            b :=
              blobPutInt32 UbusMsgAttr.objid.id (bus.store.objectAt obj).id ::
                attrs }
        bus.ubusMsgSend (bus.store.objectAt obj).client
          ⟨0, UbusMsgType.invoke.code, bus.eventSeq.toUInt16, 0⟩
          (msgFromBlob bus.b)

/-- The loop of `ubusd_send_event` over the rest of the tree. -/
def sendEventFrom (cl : Option Ptr) (id : List UInt8)
    (attrs : Option (List (List UInt8))) :
    List Ptr → (matchLen : Nat) → Bus → Bus
  | [], _, bus => bus
  | ev :: rest, matchLen, bus =>
      let source := bus.store.sourceAt ev
      let curMatchLen := (strmatchLen id source.key).2
      if curMatchLen < matchLen then bus
      else if (strmatchLen id source.key).1 ||
          (source.isPartial && curMatchLen == source.key.length) then
        sendEventFrom cl id attrs rest curMatchLen
          (bus.ubusdSendEventMsg cl source.obj attrs)
      else
        sendEventFrom cl id attrs rest curMatchLen bus

/-- `ubusd_send_event`. -/
def ubusdSendEvent (bus : Bus) (cl : Option Ptr) (id : List UInt8)
    (attrs : Option (List (List UInt8))) : Bus :=
  let bus := { bus with objEventSeq := bus.objEventSeq + 1 }
  sendEventFrom cl id attrs bus.store.patterns 0 bus

/-- `ubusd_send_obj_event`. -/
def ubusdSendObjEvent (bus : Bus) (obj : Ptr) (add : Bool) : Bus :=
  let id := if add then ascii "ubus.object.add" else ascii "ubus.object.remove"
  let object := bus.store.objectAt obj
  bus.ubusdSendEvent none id
    (some
      [blobPutString UbusMsgAttr.method.id id,
        blobNest UbusMsgAttr.data.id
          [blobmsgAddField BlobmsgType.int32.id (ascii "id") (be32Bytes object.id),
            blobmsgAddField BlobmsgType.string.id (ascii "path")
              (object.path.getD [] ++ [0])]])

end Bus

/-- `struct blobmsg_policy`. -/
structure BlobmsgPolicy where
  name : List UInt8
  type : BlobmsgType
  deriving DecidableEq, Repr

/-- Whether an attribute is of the type that a policy asks for; attributes
without a type are let through. -/
def policyType (mem : Memory) (attr : Nat) (policy : BlobmsgPolicy) : Bool :=
  let id := BlobmsgType.ofId? (blobId (attrAt mem attr))
  id == some .unspec || id == some policy.type

/-- The body of `blobmsg_parse` for one attribute and one entry: `none` is the
return inside of it. -/
def blobmsgParseEntry (bytes : List UInt8) (attr : Nat)
    (policy : BlobmsgPolicy) (stored : Option Nat) : Option (Option Nat) :=
  let mem := memoryOf bytes
  if !policyType mem attr policy then some stored
  else if (blobmsgNamelen mem (attr + 4)).toNat ≠ policy.name.length then
    some stored
  else if !blobmsgCheckAttr mem attr true then none
  else if stored.isSome then some stored
  else if cString bytes (attr + 6) ≠ policy.name then some stored
  else some (some attr)

/-- The loop of `blobmsg_parse` with a policy of two entries.  The return inside
of it leaves in the table what is stored so far. -/
def blobmsgParseFrom (bytes : List UInt8) (first second : BlobmsgPolicy) :
    List Nat → Option Nat × Option Nat → Option Nat × Option Nat
  | [], stored => stored
  | attr :: rest, (stored, other) =>
      match blobmsgParseEntry bytes attr first stored with
      | none => (stored, other)
      | some stored =>
          match blobmsgParseEntry bytes attr second other with
          | none => (stored, other)
          | some other =>
              blobmsgParseFrom bytes first second rest (stored, other)

/-- `blobmsg_parse` of the payload of an attribute.  Its remainder is
unsigned. -/
def blobmsgParse (bytes : List UInt8) (first second : BlobmsgPolicy)
    (msg : Nat) : Option Nat × Option Nat :=
  let mem := memoryOf bytes
  let len := (blobLen (attrAt mem msg)).toNat
  blobmsgParseFrom bytes first second (attrsFrom mem len (msg + 4) len)
    (none, none)

/-- `blobmsg_get_u32`. -/
def blobmsgGetU32 (mem : Memory) (attr : Nat) : UInt32 :=
  blobIdLen (attrAt mem (blobmsgData mem attr))

namespace Bus

/-- `ubusd_alloc_event_pattern`. -/
def ubusdAllocEventPattern (bus : Bus) (cl : Ptr) (bytes : List UInt8)
    (msg : Nat) : Bus × UInt32 :=
  let mem := memoryOf bytes
  match blobmsgParse bytes ⟨ascii "pattern", .string⟩ ⟨ascii "object", .int32⟩
      msg with
  | (some pattern, some object) =>
      let id := blobmsgGetU32 mem object
      if id < ubusSystemObjectMax then (bus, ubusStatusPermissionDenied)
      else
        match bus.store.ubusdFindObject id with
        | none => (bus, ubusStatusNotFound)
        | some obj =>
            if (bus.store.objectAt obj).client ≠ some cl then
              (bus, ubusStatusPermissionDenied)
            else
              let data := blobmsgData mem pattern
              let string := cString bytes data
              -- of an empty string, `pattern[len - 1]` is the byte before it
              let isPartial := mem (data + string.length - 1) == 0x2a
              let key := if isPartial then string.dropLast else string
              ({ bus with store := bus.store.addSource obj key isPartial },
                ubusStatusOk)
  | _ => (bus, ubusStatusInvalidArgument)

/-- What `ubusd_create_event_from_msg` puts behind the object id. -/
def eventAttrs (bytes : List UInt8) (id : List UInt8) (data : Nat) :
    Option (List (List UInt8)) :=
  let mem := memoryOf bytes
  (memcpyFrom bytes (blobmsgData mem data) (blobmsgDataLen mem data)).map
    fun payload =>
      [blobPutString UbusMsgAttr.method.id id,
        blobPut UbusMsgAttr.data.id payload]

/-- `ubusd_forward_event`. -/
def ubusdForwardEvent (bus : Bus) (cl : Ptr) (bytes : List UInt8)
    (msg : Nat) : Bus × UInt32 :=
  let mem := memoryOf bytes
  match blobmsgParse bytes ⟨ascii "id", .string⟩ ⟨ascii "data", .table⟩ msg with
  | (some idAttr, some data) =>
      let id := cString bytes (blobmsgData mem idAttr)
      if (ascii "ubus.").isPrefixOf id then (bus, ubusStatusPermissionDenied)
      else
        (bus.ubusdSendEvent (some cl) id (eventAttrs bytes id data),
          ubusStatusOk)
  | _ => (bus, ubusStatusInvalidArgument)

/-- `ubusd_event_recv`. -/
def ubusdEventRecv (bus : Bus) (cl : Ptr) (method bytes : List UInt8)
    (msg : Option Nat) : Bus × UInt32 :=
  if method = ascii "register" then
    match msg with
    | none => (bus.crash .noData, ubusStatusOk)
    | some msg => bus.ubusdAllocEventPattern cl bytes msg
  else if method = ascii "send" then
    match msg with
    | none => (bus.crash .noData, ubusStatusOk)
    | some msg => bus.ubusdForwardEvent cl bytes msg
  else (bus, ubusStatusInvalidCommand)

end Bus

end LibubusJni.Ubusd
