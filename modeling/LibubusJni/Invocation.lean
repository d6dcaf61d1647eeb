import LibubusJni.Libubox.Tables
import LibubusJni.Messages
import LibubusJni.Ubusd.Answers
import LibubusJni.Ubusd.Identity

/-!
# An invocation from one client to another and back

`ubus_invoke_async` of a client, `ubus_process_invoke`, `ubus_send_reply` and
`ubus_complete_deferred_request` of another one, and ubusd between the two, which
handles any other messages meanwhile.
-/

namespace LibubusJni

open LibubusJni.Lib (Machine)
open LibubusJni.Libubox LibubusJni.Ubusd
open LibubusJni.Libubus (UbusRequestData RequestContext InvokeContext)

/-! ## Messages of libubus -/

/-- The attributes that `ubus_invoke_async` puts. -/
def callPuts (obj : UInt32) (method : List UInt8) (msg : Option (List UInt8)) :
    List PutAttr :=
  [⟨UbusMsgAttr.objid.id, be32Bytes obj⟩,
    ⟨UbusMsgAttr.method.id, method ++ [0]⟩] ++
      (msg.map fun msg => ⟨UbusMsgAttr.data.id, msg⟩).toList

/-- What `ubus_invoke_async` sends; `msg` is the payload of its argument. -/
def ubusInvokeAsync (seq : UInt16) (obj : UInt32) (method : List UInt8)
    (msg : Option (List UInt8)) : BusRequest :=
  ⟨⟨0, UbusMsgType.invoke.code, seq, obj⟩,
    blobNest 0
      ([blobPutInt32 UbusMsgAttr.objid.id obj,
        blobPutString UbusMsgAttr.method.id method] ++
          (msg.map (blobPut UbusMsgAttr.data.id)).toList)⟩

/-- The attributes that `ubus_send_reply` puts. -/
def replyPuts (obj : UInt32) (msg : List UInt8) : List PutAttr :=
  [⟨UbusMsgAttr.objid.id, be32Bytes obj⟩, ⟨UbusMsgAttr.data.id, msg⟩]

/-- What `ubus_send_reply` sends. -/
def ubusSendReply (req : UbusRequestData) (msg : List UInt8) : BusRequest :=
  ⟨⟨0, UbusMsgType.data.code, req.seq, req.peer⟩,
    blobNest 0
      [blobPutInt32 UbusMsgAttr.objid.id req.object,
        blobPut UbusMsgAttr.data.id msg]⟩

/-- The attributes that `ubus_complete_deferred_request` puts. -/
def completionPuts (ret obj : UInt32) : List PutAttr :=
  [⟨UbusMsgAttr.status.id, be32Bytes ret⟩,
    ⟨UbusMsgAttr.objid.id, be32Bytes obj⟩]

/-- What `ubus_complete_deferred_request` sends. -/
def completion (req : UbusRequestData) (ret : UInt32) : BusRequest :=
  ⟨⟨0, UbusMsgType.status.code, req.seq, req.peer⟩,
    blobNest 0
      [blobPutInt32 UbusMsgAttr.status.id ret,
        blobPutInt32 UbusMsgAttr.objid.id req.object]⟩

theorem sent_ubusCompleteDeferredRequest (ctx : InvokeContext) (invoke : Nat)
    (req : UbusRequestData) (ret : UInt32) :
    (ctx.ubusCompleteDeferredRequest invoke req ret).sent = ctx.sent ++
      [⟨(completion req ret).hdr, (completion req ret).bytes, some invoke⟩] :=
  rfl

theorem bytes_ubusInvokeAsync (seq : UInt16) (obj : UInt32)
    (method : List UInt8) (msg : Option (List UInt8)) :
    (ubusInvokeAsync seq obj method msg).bytes =
      blobPut 0 (PutAttr.concat (callPuts obj method msg)) := by
  cases msg with
  | none =>
      rfl
  | some msg =>
      rfl

/-- `ubus_get_status`. -/
def ubusGetStatus (buf : Libubus.UbusMsghdrBuf) : Option UInt32 :=
  (buf.attrbuf .status).map (blobGetU32 buf.mem)

/-- What a handler is given of `UBUS_ATTR_DATA`: `blob_data` and `blob_len`. -/
def payloadOf (buf : Libubus.UbusMsghdrBuf) : Option (List UInt8) :=
  (buf.attrbuf .data).map fun attr =>
    (buf.data.drop (attr + 4)).take (blobLen (attrAt buf.mem attr)).toNat

/-! ## Reading them -/

section Payload

variable {bytes : List UInt8} {pos : Nat} {attr : PutAttr}
  (plain : Plain (memoryOf bytes) pos attr)
  (inside : pos + 4 + attr.payload.length ≤ bytes.length)

include plain inside

theorem take_of_plain :
    (bytes.drop (pos + 4)).take (blobLen (attrAt (memoryOf bytes) pos)).toNat =
      attr.payload := by
  rw [plain.len]
  refine List.ext_getElem ?_ fun index _ isIndex => ?_
  · rw [List.length_take, List.length_drop]
    omega
  · have held := plain.payload index isIndex
    rw [memoryOf, List.getD_eq_getElem?_getD,
      List.getElem?_eq_getElem (by omega), Option.getD_some] at held
    rw [List.getElem_take, List.getElem_drop, held]

theorem blobPutPayload_of_plain (id : Nat)
    (small : attr.payload.length < 2147483648) :
    blobPutPayload id bytes pos = some (blobPut id attr.payload) := by
  have less : blobLen (attrAt (memoryOf bytes) pos) < 0x80000000 := by
    rw [UInt32.lt_iff_toNat_lt, plain.len]
    exact small
  rw [blobPutPayload, memcpyFrom, if_pos less, take_of_plain plain inside]
  rfl

end Payload

section Read

variable {bytes : List UInt8} {attrs : List PutAttr}
  {policy : Nat → BlobAttrType}

theorem plain_of_puts (isBytes : bytes = blobPut 0 (PutAttr.concat attrs))
    (small : (PutAttr.concat attrs).length < 8388608) :
    Plain (memoryOf bytes) 0 ⟨0, PutAttr.concat attrs⟩ := by
  rw [isBytes]
  refine plain_of_holds (holds_memoryOf _) (show 0 < 128 by decide) ?_
  rw [PutAttr.size]
  dsimp only
  omega

variable
  (isBytes : bytes = blobPut 0 (PutAttr.concat attrs))
  (known : ∀ attr ∈ attrs, attr.id < 128)
  (small : (PutAttr.concat attrs).length < 8388608)

include isBytes known small

/-- The last attribute of its kind. -/
theorem found_of_puts {front back : List PutAttr} {attr : PutAttr}
    (place : attrs = front ++ attr :: back)
    (accepted : attr.Accepted policy ubusAttrMax)
    (only : ∀ other ∈ back, other.id ≠ attr.id) :
    ∃ pos,
      blobParse (memoryOf bytes) 0 policy ubusAttrMax attr.id = some pos ∧
        Plain (memoryOf bytes) pos attr ∧
          pos + 4 + attr.payload.length ≤ bytes.length := by
  have less := Nat.lt_trans small (show 8388608 < 16777216 by decide)
  have plain := plain_of_puts isBytes small
  obtain ⟨found, here⟩ := blobParse_last plain known less place accepted
    fun other member same => absurd same (only other member)
  refine ⟨_, found, here, ?_⟩
  have length := @length_blobPut 0 _ (length_concat_mod attrs)
  rw [← isBytes, place, PutAttr.concat, List.map_append, List.flatten_append,
    List.length_append, List.map_cons, List.flatten_cons, List.length_append,
    PutAttr.length_bytes, PutAttr.size] at length
  rw [length, PutAttr.concat]
  omega

theorem absent_of_puts {kind : Nat}
    (none : ∀ attr ∈ attrs, attr.id ≠ kind) :
    blobParse (memoryOf bytes) 0 policy ubusAttrMax kind = .none := by
  have less := Nat.lt_trans small (show 8388608 < 16777216 by decide)
  have plain := plain_of_puts isBytes small
  exact blobParse_none plain known less
    fun attr member same => absurd same (none attr member)

end Read

/-! ## Invocations -/

section Call

variable {bytes method : List UInt8} {obj : UInt32} {msg : Option (List UInt8)}
  {policy : Nat → BlobAttrType}

/-- What is read of an invocation. -/
structure CallRead (policy : Nat → BlobAttrType) (bytes : List UInt8)
    (obj : UInt32) (method : List UInt8) (msg : Option (List UInt8)) : Prop where
  objid : ∃ pos, blobParse (memoryOf bytes) 0 policy ubusAttrMax
      UbusMsgAttr.objid.id = some pos ∧
    blobGetU32 (memoryOf bytes) pos = obj
  method : ∃ pos, blobParse (memoryOf bytes) 0 policy ubusAttrMax
      UbusMsgAttr.method.id = some pos ∧ cString bytes (pos + 4) = method
  noData : msg = none → blobParse (memoryOf bytes) 0 policy ubusAttrMax
    UbusMsgAttr.data.id = none
  data : ∀ payload, msg = some payload → payload.length < 2147483648 ∧
    ∃ pos, blobParse (memoryOf bytes) 0 policy ubusAttrMax
        UbusMsgAttr.data.id = some pos ∧
      Plain (memoryOf bytes) pos ⟨UbusMsgAttr.data.id, payload⟩ ∧
        pos + 4 + payload.length ≤ bytes.length
  noReply : blobParse (memoryOf bytes) 0 policy ubusAttrMax
    UbusMsgAttr.noReply.id = none

theorem known_callPuts : ∀ attr ∈ callPuts obj method msg, attr.id < 128 := by
  cases msg <;> simp [callPuts, UbusMsgAttr.id]

theorem length_payload_lt {attrs : List PutAttr} {attr : PutAttr}
    (member : attr ∈ attrs) :
    attr.payload.length < (PutAttr.concat attrs).length := by
  obtain ⟨front, back, place⟩ := List.append_of_mem member
  rw [place, PutAttr.concat, List.map_append, List.flatten_append,
    List.length_append, List.map_cons, List.flatten_cons, List.length_append,
    PutAttr.length_bytes, PutAttr.size]
  omega

theorem callRead (isInt : policy 3 = .int32) (isString : policy 4 = .string)
    (isUnspec : policy 7 = .unspec) (clean : (0 : UInt8) ∉ method)
    (isBytes : bytes = blobPut 0 (PutAttr.concat (callPuts obj method msg)))
    (small : (PutAttr.concat (callPuts obj method msg)).length < 8388608) :
    CallRead policy bytes obj method msg := by
  refine
    { objid := ?_, method := ?_, noData := ?_, data := ?_, noReply := ?_ }
  · obtain ⟨pos, found, plain, _⟩ := @found_of_puts _ _ policy isBytes
      known_callPuts small [] _ _ rfl (accepted_int32 (by decide) isInt obj)
      (by cases msg <;> simp [UbusMsgAttr.id])
    exact ⟨pos, found, blobGetU32_of_plain plain⟩
  · obtain ⟨pos, found, plain, _⟩ := @found_of_puts _ _ policy isBytes
      known_callPuts small [_] _ _ rfl
      (accepted_string (by decide) isString method)
      (by cases msg <;> simp [UbusMsgAttr.id])
    exact ⟨pos, found, cString_of_plain plain clean⟩
  · intro none
    refine absent_of_puts isBytes known_callPuts small ?_
    simp [none, callPuts, UbusMsgAttr.id]
  · intro payload given
    have place : callPuts obj method msg =
        [⟨UbusMsgAttr.objid.id, be32Bytes obj⟩,
          ⟨UbusMsgAttr.method.id, method ++ [0]⟩] ++
            ⟨UbusMsgAttr.data.id, payload⟩ :: [] := by
      rw [given]
      rfl
    have member : (⟨UbusMsgAttr.data.id, payload⟩ : PutAttr) ∈
        callPuts obj method msg := by
      rw [place]
      exact List.mem_append_right _ List.mem_cons_self
    have shorter := length_payload_lt member
    dsimp only at shorter
    exact ⟨by omega, @found_of_puts _ _ policy isBytes known_callPuts small _ _ _
      place (accepted_unspec (by decide) isUnspec payload) (by simp)⟩
  · refine absent_of_puts isBytes known_callPuts small ?_
    cases msg <;> simp [callPuts, UbusMsgAttr.id]

end Call

/-! ## At ubusd -/

section Bus

variable {bus next : Bus} {cl owner obj : Ptr} {ub : BusRequest}

/-- One message is sent, and nothing else has changed for the clients. -/
structure Delivered (bus next : Bus) (msg : BusMsg) : Prop where
  sent : next.sent = [msg]
  store : next.store = bus.store
  running : next.fault = none

/-- A message of attributes is sent as it is. -/
theorem msgData_puts {attrs : List PutAttr}
    (small : (PutAttr.concat attrs).length < 8388608) :
    Bus.msgData (blobPut 0 (PutAttr.concat attrs)) =
      blobPut 0 (PutAttr.concat attrs) := by
  have sent := msgFromBlob_puts small
  rw [Bus.msgFromBlob, blobNest, ← PutAttr.concat] at sent
  exact sent

theorem enabled_puts {attrs : List PutAttr}
    (isBytes : ub.bytes = blobPut 0 (PutAttr.concat attrs))
    (fits : (PutAttr.concat attrs).length + 4 ≤ 1048576)
    (connected : cl ∈ bus.store.clients) (urandom : List UInt32) :
    (BusAction.receive cl ub urandom).enabled bus.store = true := by
  have length := @length_blobPut 0 _ (length_concat_mod attrs)
  have raw := toNat_blobRawLen_blobPut 0 (PutAttr.concat attrs)
  have most : ubusMaxMsglen.toNat = 1048576 := rfl
  rw [← isBytes] at length raw
  simp only [BusAction.enabled, Bool.and_eq_true, decide_eq_true_eq,
    UInt32.le_iff_toNat_le, blobPadLen_toNat, List.contains_iff_mem]
  refine ⟨⟨connected, ?_⟩, ?_⟩
  · rw [raw, most]
    omega
  · rw [raw, length]
    omega

theorem step_receive (running : bus.fault = none) {urandom : List UInt32}
    (enabled : (BusAction.receive cl ub urandom).enabled bus.store = true) :
    ubusd.step bus (.receive cl ub urandom) =
      some ({ bus with
        urandom := urandom, sent := [] }.ubusdProtoReceiveMessage cl ub) := by
  have taken : ubusd.step bus (.receive cl ub urandom) =
      if bus.fault.isNone && (BusAction.receive cl ub urandom).enabled bus.store
        then some (bus.act (.receive cl ub urandom)) else none := rfl
  rw [taken, enabled, Option.isNone_iff_eq_none.mpr running]
  rfl

/-- The attributes of the copy. -/
theorem invokeAttrs_call {object : Ubusd.UbusObject} {pos : Nat}
    {objid : UInt32} {method : List UInt8} {msg : Option (List UInt8)}
    (read : CallRead Ubusd.ubusPolicy ub.bytes objid method msg)
    (isMethod : ub.attr .method = some pos) :
    Bus.invokeAttrs ub object pos =
      some ((callPuts object.id method msg).map PutAttr.bytes) := by
  obtain ⟨other, found, isName⟩ := read.method
  have same : other = pos := Option.some.inj (found.symm.trans isMethod)
  rw [same] at isName
  have named : Bus.stringOf ub pos = method := isName
  rw [Bus.invokeAttrs, named]
  cases given : msg with
  | none =>
      have noData : ub.attr .data = none := read.noData given
      rw [noData]
      rfl
  | some payload =>
      obtain ⟨small, place, isData, plain, inside⟩ := read.data payload given
      have hasData : ub.attr .data = some place := isData
      rw [hasData]
      dsimp only
      rw [blobPutPayload_of_plain plain inside _ small]
      rfl

/-- An invocation of an object of a client is passed on as it is. -/
theorem receive_ubusInvokeAsync (linked : Linked none none bus.store)
    (live : obj ∈ bus.store.objects)
    (owned : (bus.store.objectAt obj).client = some owner) {seq : UInt16}
    {method : List UInt8} {msg : Option (List UInt8)}
    (clean : (0 : UInt8) ∉ method)
    (small : (PutAttr.concat (callPuts (bus.store.objectAt obj).id method
      msg)).length < 8388608) :
    let ub := ubusInvokeAsync seq (bus.store.objectAt obj).id method msg
    bus.ubusdProtoReceiveMessage cl ub =
      { bus with
        b := (callPuts (bus.store.objectAt obj).id method msg).map
          PutAttr.bytes
        sent := bus.sent ++ [⟨owner, ⟨0, UbusMsgType.invoke.code, seq,
          (bus.store.clientAt cl).id⟩, ub.bytes⟩] } := by
  intro ub
  have isBytes := bytes_ubusInvokeAsync seq (bus.store.objectAt obj).id method
    msg
  have read := @callRead ub.bytes method (bus.store.objectAt obj).id msg
    Ubusd.ubusPolicy rfl rfl rfl clean isBytes small
  obtain ⟨methodPos, hasMethod, _⟩ := read.method
  obtain ⟨objPos, hasObjid, isId⟩ := read.objid
  have isMethod : ub.attr .method = some methodPos := hasMethod
  have isObjid : ub.attr .objid = some objPos := hasObjid
  have found : bus.findObjectOf ub objPos = some obj := by
    have named : blobGetU32 ub.mem objPos = (bus.store.objectAt obj).id := isId
    rw [Bus.findObjectOf, named]
    exact linked.ubusdFindObject live
  have isOwned : (bus.store.objectAt obj).client.isNone = false := by
    rw [owned]
    rfl
  have handled : bus.handle cl ub .invoke =
      (bus.ubusdForwardInvoke cl ub [] obj methodPos, none) := by
    rw [Bus.handle, Bus.ubusdHandleInvoke, isMethod, isObjid]
    dsimp only
    rw [found]
    dsimp only
    rw [isOwned, if_neg Bool.false_ne_true]
  rw [Bus.receive_none rfl (congrArg Prod.snd handled), handled]
  dsimp only
  rw [Bus.ubusdForwardInvoke, invokeAttrs_call read isMethod]
  dsimp only
  rw [owned, List.nil_append, Bus.ubusSendMsgFromBlob, Bus.ubusMsgSend]
  dsimp only [Bus.blobBufInit]
  rw [msgFromBlob_puts small, isBytes]
  rfl

/-- An answer under an object of its sender. -/
theorem receive_answer (ids : ClientIds bus.store)
    (linked : Linked none none bus.store) (isResponse : ub.IsResponse)
    (asks : cl ∈ bus.store.clients) (live : obj ∈ bus.store.objects)
    (owned : (bus.store.objectAt obj).client = some owner)
    (forCl : ub.hdr.peer = (bus.store.clientAt cl).id)
    (complete : Bus.responseComplete ub = true) {objPos : Nat}
    (hasObjid : ub.attr .objid = some objPos)
    (isId : blobGetU32 ub.mem objPos = (bus.store.objectAt obj).id) :
    bus.ubusdProtoReceiveMessage owner ub =
      { bus with
        sent := bus.sent ++ [⟨cl,
          { ub.hdr with peer := (bus.store.objectAt obj).id },
          Bus.msgData ub.bytes⟩] } := by
  have found : bus.findObjectOf ub objPos = some obj := by
    rw [Bus.findObjectOf, isId]
    exact linked.ubusdFindObject live
  have receiver : bus.store.findClient ub.hdr.peer = some cl := by
    rw [forCl]
    exact ids.findClient asks
  rw [Bus.receive_response isResponse, Bus.ubusdHandleResponse, hasObjid]
  dsimp only
  rw [if_pos complete, found]
  dsimp only
  rw [if_neg (not_not_intro owned), receiver, isId]
  rfl

end Bus

/-! ## At the two clients -/

/-- A request that waits for the object is found for the message. -/
structure Reaches (cl : Ptr) (seq : UInt16) (obj : UInt32) (type : UbusMsgType)
    (msg : BusMsg) : Prop where
  client : msg.client = cl
  type : UbusMsgType.ofCode? msg.hdr.type = some type
  found : ∀ (ctx : RequestContext), ∀ req ∈ ctx.requests,
    (ctx.request req).notify = false → (ctx.request req).seq = seq →
      (ctx.request req).peer = obj →
        (∀ other ∈ ctx.requests, (ctx.request other).seq = seq → other = req) →
          ctx.ubusFindRequest msg.hdr.seq msg.hdr.peer = some (req, none)

theorem ubusFindRequest_unique {ctx : RequestContext} {req : Nat}
    (waits : req ∈ ctx.requests) (isInvoke : (ctx.request req).notify = false)
    (only : ∀ other ∈ ctx.requests,
      (ctx.request other).seq = (ctx.request req).seq → other = req) :
    ctx.ubusFindRequest (ctx.request req).seq (ctx.request req).peer =
      some (req, none) := by
  have awaits : (ctx.request req).awaits (ctx.request req).peer = true := by
    rw [Libubus.UbusRequest.awaits, isInvoke]
    exact BEq.rfl
  have first : (ctx.requests.find? fun other =>
      (ctx.request req).seq == (ctx.request other).seq &&
        (ctx.request other).awaits (ctx.request req).peer) = some req := by
    cases found : ctx.requests.find? fun other =>
        (ctx.request req).seq == (ctx.request other).seq &&
          (ctx.request other).awaits (ctx.request req).peer with
    | none =>
        have fails := List.find?_eq_none.mp found req waits
        rw [awaits] at fails
        exact absurd (Bool.and_eq_true_iff.mpr ⟨BEq.rfl, rfl⟩) fails
    | some other =>
        have member := List.mem_of_find?_eq_some found
        have tests := List.find?_some found
        rw [Bool.and_eq_true, beq_iff_eq] at tests
        rw [only other member tests.1.symm]
  rw [RequestContext.ubusFindRequest, first, Option.map_some, isInvoke]
  rfl

theorem reaches_of_hdr {cl : Ptr} {seq : UInt16} {obj : UInt32}
    {type : UbusMsgType} {data : List UInt8}
    (isType : UbusMsgType.ofCode? type.code = some type) :
    Reaches cl seq obj type ⟨cl, ⟨0, type.code, seq, obj⟩, data⟩ where
  client := rfl
  type := isType
  found := by
    intro ctx req waits isInvoke isSeq isPeer only
    rw [← isSeq] at only
    rw [← isSeq, ← isPeer]
    exact ubusFindRequest_unique waits isInvoke only

section Owner

variable {msg : BusMsg} {req : UbusRequestData} {method : List UInt8}
  {data : Option (List UInt8)}
  (read : CallRead Libubus.ubusPolicy msg.data req.object method data)

include read

theorem CallRead.given : payloadOf (received msg) = data := by
  cases given : data with
  | none =>
      have noData : (received msg).attrbuf .data = none := read.noData given
      rw [payloadOf, noData]
      rfl
  | some payload =>
      obtain ⟨_, pos, found, plain, inside⟩ := read.data payload given
      have hasData : (received msg).attrbuf .data = some pos := found
      rw [payloadOf, hasData]
      exact congrArg some (take_of_plain plain inside)

/-- `ubus_process_invoke` calls the handler. -/
theorem CallRead.starts
    (isHdr : msg.hdr = ⟨0, UbusMsgType.invoke.code, req.seq, req.peer⟩)
    (fresh : req.deferred = false) {ctx : InvokeContext}
    {object : Libubus.UbusObject} {name : Option (List UInt8)}
    (registered : ctx.findObject req.object = some object)
    (has : object.findMethod method = some name) :
    ctx.ubusProcessObjMsg (received msg) =
      { ctx with
        invokes := ctx.invokes ++ [received msg]
        calls := ⟨ctx.invokes.length, req, false⟩ :: ctx.calls } := by
  have isObjid : (received msg).objid = some req.object := by
    obtain ⟨pos, found, isId⟩ := read.objid
    have hasObjid : (received msg).attrbuf .objid = some pos := found
    rw [Libubus.UbusMsghdrBuf.objid, hasObjid, Option.map_some]
    exact congrArg some isId
  have isMethod : (received msg).method = some method := by
    obtain ⟨pos, found, isName⟩ := read.method
    have hasMethod : (received msg).attrbuf .method = some pos := found
    rw [Libubus.UbusMsghdrBuf.method, hasMethod, Option.map_some]
    exact congrArg some isName
  have isNoReply : (received msg).noReply = false := by
    have none : (received msg).attrbuf .noReply = .none := read.noReply
    rw [Libubus.UbusMsghdrBuf.noReply, none]
  have isInvoke : (received msg).hdr.type = UbusMsgType.invoke.code := by
    rw [received, isHdr]
  have sameId : object.id = req.object :=
    (Libubus.ubusCmpId_eq.mp (avlFind_some registered).2).symm
  have isReq : (⟨object.id, (received msg).hdr.peer, (received msg).hdr.seq,
      false⟩ : UbusRequestData) = req := by
    rw [received, isHdr, sameId, ← fresh]
  rw [InvokeContext.ubusProcessObjMsg, if_pos isInvoke, isObjid]
  dsimp only
  rw [registered, InvokeContext.ubusProcessInvoke, isMethod]
  dsimp only
  rw [has, isReq, isNoReply]

end Owner

/-! ## The way back -/

section Answer

variable {bus : Bus} {cl owner obj : Ptr} {req : UbusRequestData}

/-- The request came from the client and names an object of the owner. -/
structure Pending (bus : Bus) (cl owner obj : Ptr) (req : UbusRequestData) :
    Prop where
  asks : cl ∈ bus.store.clients
  live : obj ∈ bus.store.objects
  owned : (bus.store.objectAt obj).client = some owner
  object : req.object = (bus.store.objectAt obj).id
  peer : req.peer = (bus.store.clientAt cl).id

variable (holds : BusInv bus) (ids : ClientIds bus.store)
  (running : bus.fault = none) (pending : Pending bus cl owner obj req)

include holds ids running pending

/-- An answer of libubus arrives. -/
theorem step_answer {type : UbusMsgType} {attrs : List PutAttr}
    {bytes : List UInt8} (isBytes : bytes = blobPut 0 (PutAttr.concat attrs))
    (isType : UbusMsgType.ofCode? type.code = some type)
    (isResponse : type = .status ∨ type = .data)
    (fits : (PutAttr.concat attrs).length + 4 ≤ 1048576)
    (complete : Bus.responseComplete
      ⟨⟨0, type.code, req.seq, req.peer⟩, bytes⟩ = true)
    (named : ∃ pos, blobParse (memoryOf bytes) 0 Ubusd.ubusPolicy ubusAttrMax
      UbusMsgAttr.objid.id = some pos ∧
        blobGetU32 (memoryOf bytes) pos = req.object)
    (urandom : List UInt32) :
    ∃ next,
      ubusd.step bus (.receive owner
        ⟨⟨0, type.code, req.seq, req.peer⟩, bytes⟩ urandom) = some next ∧
      Delivered bus next
        ⟨cl, ⟨0, type.code, req.seq, req.object⟩, bytes⟩ := by
  obtain ⟨objPos, hasObjid, isId⟩ := named
  have connected := holds.linked.connected obj pending.live owner pending.owned
  have taken := @step_receive bus owner
    ⟨⟨0, type.code, req.seq, req.peer⟩, bytes⟩ running urandom
      (enabled_puts isBytes fits connected urandom)
  have response : BusRequest.IsResponse
      ⟨⟨0, type.code, req.seq, req.peer⟩, bytes⟩ := by
    rw [BusRequest.IsResponse]
    dsimp only
    rw [isType]
    exact isResponse.imp (congrArg some) (congrArg some)
  have passed := @receive_answer { bus with urandom := urandom, sent := [] } cl
    owner obj ⟨⟨0, type.code, req.seq, req.peer⟩, bytes⟩ ids holds.linked
      response pending.asks pending.live pending.owned pending.peer complete
        objPos hasObjid (isId.trans pending.object)
  refine ⟨_, taken, ?_⟩
  rw [passed]
  refine { sent := ?_, store := rfl, running := running }
  dsimp only
  rw [List.nil_append, ← pending.object, isBytes, msgData_puts (by omega)]

/-- What `ubus_send_reply` sends arrives. -/
theorem step_ubusSendReply {reply : List UInt8}
    (fits : (PutAttr.concat (replyPuts req.object reply)).length + 4 ≤ 1048576)
    (urandom : List UInt32) :
    ∃ next answer,
      ubusd.step bus (.receive owner (ubusSendReply req reply) urandom) =
        some next ∧
      Delivered bus next answer ∧ Reaches cl req.seq req.object .data answer ∧
        payloadOf (received answer) = some reply := by
  have isBytes : (ubusSendReply req reply).bytes =
      blobPut 0 (PutAttr.concat (replyPuts req.object reply)) := rfl
  have known : ∀ attr ∈ replyPuts req.object reply, attr.id < 128 := by
    simp [replyPuts, UbusMsgAttr.id]
  have small : (PutAttr.concat (replyPuts req.object reply)).length <
      8388608 := by
    omega
  obtain ⟨objPos, hasObjid, isObjid, _⟩ := @found_of_puts _ _ Ubusd.ubusPolicy
    isBytes known small [] _ _ rfl (accepted_int32 (by decide) rfl req.object)
    (by simp [UbusMsgAttr.id])
  obtain ⟨dataPos, hasData, _⟩ := @found_of_puts _ _ Ubusd.ubusPolicy
    isBytes known small [_] _ _ rfl (accepted_unspec (by decide) rfl reply)
    (by simp)
  have complete : Bus.responseComplete (ubusSendReply req reply) = true := by
    have isData : (ubusSendReply req reply).attr .data = some dataPos := hasData
    rw [Bus.responseComplete, isData]
    rfl
  obtain ⟨next, taken, delivered⟩ := @step_answer bus cl owner obj req
    holds ids running pending .data _ _ isBytes rfl (Or.inr rfl) fits complete
    ⟨objPos, hasObjid, blobGetU32_of_plain isObjid⟩ urandom
  obtain ⟨pos, found, plain, inside⟩ := @found_of_puts _ _ Libubus.ubusPolicy
    isBytes known small [_] _ _ rfl (accepted_unspec (by decide) rfl reply)
    (by simp)
  refine ⟨next, _, taken, delivered, reaches_of_hdr rfl, ?_⟩
  have given : (received ⟨cl, ⟨0, UbusMsgType.data.code, req.seq, req.object⟩,
      (ubusSendReply req reply).bytes⟩).attrbuf .data = some pos := found
  rw [payloadOf, given]
  exact congrArg some (take_of_plain plain inside)

/-- What `ubus_complete_deferred_request` sends arrives. -/
theorem step_completion (ret : UInt32) (urandom : List UInt32) :
    ∃ next answer,
      ubusd.step bus (.receive owner (completion req ret) urandom) =
        some next ∧
      Delivered bus next answer ∧ Reaches cl req.seq req.object .status answer ∧
        ubusGetStatus (received answer) = some ret := by
  have isBytes : (completion req ret).bytes =
      blobPut 0 (PutAttr.concat (completionPuts ret req.object)) := rfl
  have known : ∀ attr ∈ completionPuts ret req.object, attr.id < 128 := by
    simp [completionPuts, UbusMsgAttr.id]
  have length : (PutAttr.concat (completionPuts ret req.object)).length =
      16 := by
    rw [completionPuts, PutAttr.concat_cons, PutAttr.concat_cons,
      List.length_append, List.length_append, PutAttr.length_bytes,
      PutAttr.length_bytes, PutAttr.size, PutAttr.size, length_be32Bytes,
      length_be32Bytes]
    rfl
  have small : (PutAttr.concat (completionPuts ret req.object)).length <
      8388608 := by
    omega
  obtain ⟨objPos, hasObjid, isObjid, _⟩ := @found_of_puts _ _ Ubusd.ubusPolicy
    isBytes known small [_] _ _ rfl (accepted_int32 (by decide) rfl req.object)
    (by simp)
  obtain ⟨statusPos, hasStatus, _⟩ := @found_of_puts _ _ Ubusd.ubusPolicy
    isBytes known small [] _ _ rfl (accepted_int32 (by decide) rfl ret)
    (by simp [UbusMsgAttr.id])
  have complete : Bus.responseComplete (completion req ret) = true := by
    have isStatus : (completion req ret).attr .status = some statusPos :=
      hasStatus
    rw [Bus.responseComplete, isStatus]
    rfl
  obtain ⟨next, taken, delivered⟩ := @step_answer bus cl owner obj req
    holds ids running pending .status _ _ isBytes rfl (Or.inl rfl) (by omega)
    complete ⟨objPos, hasObjid, blobGetU32_of_plain isObjid⟩ urandom
  obtain ⟨pos, found, plain, _⟩ := @found_of_puts _ _ Libubus.ubusPolicy
    isBytes known small [] _ _ rfl (accepted_int32 (by decide) rfl ret)
    (by simp [UbusMsgAttr.id])
  refine ⟨next, _, taken, delivered, reaches_of_hdr rfl, ?_⟩
  have given : (received ⟨cl, ⟨0, UbusMsgType.status.code, req.seq, req.object⟩,
      (completion req ret).bytes⟩).attrbuf .status = some pos := found
  rw [ubusGetStatus, given]
  exact congrArg some (blobGetU32_of_plain plain)

end Answer

/-! ## Runs -/

/-- The owner of the object gets the invocation once and starts its handler for
`req`; what it replies later and the status it completes the request with come to
the client once, under what the request waits for. -/
structure CallAnswered (bus called late : Bus) (cl owner : Ptr)
    (req : UbusRequestData) (method : List UInt8) (msg : Option (List UInt8)) :
    Prop where
  starts : ∃ passed, Delivered bus called passed ∧ passed.client = owner ∧
    payloadOf (received passed) = msg ∧
    ∀ (ctx : InvokeContext) object name,
      ctx.findObject req.object = some object →
        object.findMethod method = some name →
          ctx.ubusProcessObjMsg (received passed) =
            { ctx with
              invokes := ctx.invokes ++ [received passed]
              calls := ⟨ctx.invokes.length, req, false⟩ :: ctx.calls }
  reply : ∀ reply urandom,
    (PutAttr.concat (replyPuts req.object reply)).length + 4 ≤ 1048576 →
      ∃ next answer,
        ubusd.step late (.receive owner (ubusSendReply req reply) urandom) =
          some next ∧
        Delivered late next answer ∧
          Reaches cl req.seq req.object .data answer ∧
            payloadOf (received answer) = some reply
  completion : ∀ ret urandom, ∃ next answer,
    ubusd.step late (.receive owner (completion req ret) urandom) = some next ∧
    Delivered late next answer ∧
      Reaches cl req.seq req.object .status answer ∧
        ubusGetStatus (received answer) = some ret

end LibubusJni
