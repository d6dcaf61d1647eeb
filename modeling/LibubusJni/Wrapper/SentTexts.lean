import LibubusJni.Libubox.JsonRoundTrip
import LibubusJni.Wrapper.Incoming
import LibubusJni.Wrapper.Returns

/-!
# What is sent of a JSON text

`ubus_wrap_invoke` and `ubus_wrap_reply` put what `blobmsg_add_json_from_string`
leaves in a buffer into DATA, whatever it returns.  `ubus_send_msg` writes as
many bytes as the length field of the message says, which has 24 bits.

The text is sent whole if what is written is the message whose DATA is an
encoding of all members of the object.
-/

namespace LibubusJni.Wrapper

open LibubusJni.Lib LibubusJni.Libubox LibubusJni.Libubus

/-! ## DATA -/

/-- `blob_put(&b, UBUS_ATTR_DATA, blob_data(msg), blob_len(msg))`; a negative
length copies until the process dies. -/
def putData (msg : BlobBuf) : Option (List UInt8) :=
  let len := blobLen (attrAt msg.mem msg.head)
  if len < 0x80000000 then
    some (blobPut UbusMsgAttr.data.id (bytesAt msg.mem (msg.head + 4) len.toNat))
  else none

/-- The bytes of a message that `ubus_send_msg` writes. -/
def writtenOf (msg : List UInt8) : List UInt8 :=
  msg.take (blobRawLen msg).toNat

/-- A message with DATA behind other attributes. -/
def dataMsg (front data : List UInt8) : List UInt8 := blobNest 0 [front, data]

/-- What is written is the message whose DATA is an encoding of the complete
object in the text. -/
def SentWhole (jsonTokenerParse : List UInt8 → Option JsonValue)
    (front text written : List UInt8) : Prop :=
  ∃ members bytes, jsonTokenerParse text = some (.object members) ∧
    JsonMembers.integral members = true ∧
    (storedMembers members).Encodes bytes ∧
    written = dataMsg front (blobPut UbusMsgAttr.data.id bytes)

/-- The text is an object without numbers that are no integers, and its message
is shorter than 16 MiB. -/
def Converts (jsonTokenerParse : List UInt8 → Option JsonValue)
    (front text : List UInt8) : Prop :=
  ∃ members, jsonTokenerParse text = some (.object members) ∧
    JsonMembers.integral members = true ∧
    4 + front.length + (4 + (storedMembers members).encode.length) < 16777216

theorem length_dataMsg {front data : List UInt8}
    (frontAligned : front.length % 4 = 0) (aligned : data.length % 4 = 0) :
    (dataMsg front data).length = 4 + (front.length + data.length) := by
  have flat : ([front, data].flatten).length = front.length + data.length := by
    simp
  rw [dataMsg, blobNest, length_blobPut (by omega), flat]

theorem writtenOf_dataMsg {front data : List UInt8}
    (frontAligned : front.length % 4 = 0) (aligned : data.length % 4 = 0)
    (small : 4 + (front.length + data.length) < 16777216) :
    writtenOf (dataMsg front data) = dataMsg front data := by
  have length := length_dataMsg frontAligned aligned
  have flat : ([front, data].flatten).length = front.length + data.length := by
    simp
  refine List.take_of_length_le ?_
  rw [length, dataMsg, blobNest, toNat_blobRawLen_blobPut, flat]
  omega

/-- What a text that converts leaves in the buffer. -/
theorem putData_replyBlob
    {jsonTokenerParse : List UInt8 → Option JsonValue} {text : List UInt8}
    {members : JsonMembers}
    (parsed : jsonTokenerParse text = some (.object members))
    (integral : JsonMembers.integral members = true)
    (small : 4 + (storedMembers members).encode.length < 16777216) :
    ∃ bytes, (storedMembers members).Encodes bytes ∧
      putData (IncomingMain.replyBlob jsonTokenerParse text) =
        some (blobPut UbusMsgAttr.data.id bytes) := by
  obtain ⟨ready, head, length, _⟩ := blobBufInit_ready BlobBuf.fresh 0
  have isBlob : IncomingMain.replyBlob jsonTokenerParse text =
      (blobmsgAddObject (BlobBuf.fresh.blobBufInit 0) members).2 := by
    rw [IncomingMain.replyBlob, blobmsgAddJsonFromString, parsed]
    rfl
  have added : blobmsgAddObject (BlobBuf.fresh.blobBufInit 0) members =
      (true, IncomingMain.replyBlob jsonTokenerParse text) := by
    refine Prod.ext ?_ isBlob.symm
    rw [fst_blobmsgAddObject, integral]
  obtain ⟨bytes, encodes, appended⟩ :=
    blobmsgAddObject_stores ready members added (by
      rw [head, length]
      exact small)
  have bytesLength := encodes.length
  obtain ⟨builtHead, holds, _, _⟩ :=
    blobmsgForEachAttr_message appended (by omega)
  have raw := appended.length
  rw [head, length] at raw
  have len : (blobLen (attrAt
      (IncomingMain.replyBlob jsonTokenerParse text).mem 0)).toNat =
        bytes.length := by
    rw [toNat_blobLen (by rw [← rawAt]; omega), ← rawAt, raw]
    omega
  refine ⟨bytes, encodes, ?_⟩
  rw [putData, builtHead, len, holds.bytesAt_eq]
  refine if_pos (UInt32.lt_iff_toNat_lt.mpr ?_)
  rw [len]
  exact Nat.lt_trans (show bytes.length < 16777216 by omega) (by decide)

/-- A text is sent whole if and only if it converts. -/
theorem sentWhole_iff
    (jsonTokenerParse : List UInt8 → Option JsonValue)
    {front : List UInt8} (frontAligned : front.length % 4 = 0)
    (text : List UInt8) :
    (∃ data, putData (IncomingMain.replyBlob jsonTokenerParse text) =
        some data ∧
      SentWhole jsonTokenerParse front text
        (writtenOf (dataMsg front data))) ↔
      Converts jsonTokenerParse front text := by
  constructor
  · rintro ⟨data, _, members, bytes, parsed, integral, encodes, written⟩
    refine ⟨members, parsed, integral, ?_⟩
    -- what is written is shorter than 16 MiB
    have short : (writtenOf (dataMsg front data)).length < 16777216 := by
      refine Nat.lt_of_le_of_lt ?_ (blobRawLen_lt (dataMsg front data))
      rw [writtenOf, List.length_take]
      exact Nat.min_le_left _ _
    have aligned : bytes.length % 4 = 0 := by
      rw [encodes.length, (storedMembers members).length_encode]
    have length := @length_blobPut UbusMsgAttr.data.id bytes aligned
    rw [written, length_dataMsg frontAligned (by omega), length,
      encodes.length] at short
    omega
  · rintro ⟨members, parsed, integral, small⟩
    obtain ⟨bytes, encodes, isData⟩ :=
      putData_replyBlob parsed integral (by omega)
    have aligned : bytes.length % 4 = 0 := by
      rw [encodes.length, (storedMembers members).length_encode]
    have length := @length_blobPut UbusMsgAttr.data.id bytes aligned
    have bytesLength := encodes.length
    refine ⟨_, isData, members, bytes, parsed, integral, encodes, ?_⟩
    exact writtenOf_dataMsg frontAligned (by omega) (by omega)

/-! ## `ubus_wrap_invoke` -/

/-- The attributes of an INVOKE before its DATA. -/
def invokeFront (id : UInt32) (method : List UInt8) : List UInt8 :=
  blobPutInt32 UbusMsgAttr.objid.id id ++
    blobPutString UbusMsgAttr.method.id method

/-- How `ubus_start_request` goes with a message; whether `ubus_send_msg`
succeeds is given. -/
def startOutcome (msg : List UInt8) (writes : Bool) : StartOutcome :=
  if ubusMaxMsglen < blobPadLen msg then .tooLong
  else if writes then .sent
  else .sendFailed

/-- `ubus_wrap_invoke` behind `ubus_lookup_id`, with the INVOKE that it sends;
`none` if the process dies. -/
def ubusWrapInvokeTexts (jsonTokenerParse : List UInt8 → Option JsonValue)
    (main : WrapMain) (ctx : ContextId) (id : UInt32) (ret : Int32)
    (method params : List UInt8) (writes : Bool) :
    Option (WrapMain × Option (List UInt8)) :=
  if ret ≠ 0 then some (main.ubusWrapInvokeEnd ctx id ret .sent, none)
  else
    (putData (IncomingMain.replyBlob jsonTokenerParse params)).map fun data =>
      let msg := dataMsg (invokeFront id method) data
      match startOutcome msg writes with
      | .sent => (main.ubusWrapInvokeEnd ctx id ret .sent,
          some (writtenOf msg))
      | .tooLong => (main.ubusWrapInvokeEnd ctx id ret .tooLong, none)
      | .sendFailed => (main.ubusWrapInvokeEnd ctx id ret .sendFailed, none)

/-- The call waits on the return list, as failed. -/
structure ReturnsFailed (main : WrapMain) (ctx : ContextId) : Prop where
  listed : ctx ∈ main.returnReqs
  failed : ∃ upp, main.wraps ctx = some upp ∧ upp.isReturn = true ∧
    upp.retval = -1 ∧ upp.flagRetPending = true
  faultless : main.fault = none

/-- The call sends its text whole, or nothing and fails. -/
def InvokeKept (jsonTokenerParse : List UInt8 → Option JsonValue)
    (main : WrapMain) (ctx : ContextId) (id : UInt32) (ret : Int32)
    (method params : List UInt8) (writes : Bool) : Prop :=
  ∃ next sent,
    ubusWrapInvokeTexts jsonTokenerParse main ctx id ret method params
      writes = some (next, sent) ∧
    match sent with
    | some written =>
        SentWhole jsonTokenerParse (invokeFront id method) params written
    | none => ReturnsFailed next ctx

/-- The object is not found, or `ubus_start_request` refuses the message or
cannot write it. -/
def InvokeRefused (jsonTokenerParse : List UInt8 → Option JsonValue)
    (id : UInt32) (ret : Int32) (method params : List UInt8)
    (writes : Bool) : Prop :=
  ret ≠ 0 ∨
    ∃ data, putData (IncomingMain.replyBlob jsonTokenerParse params) =
        some data ∧
      startOutcome (dataMsg (invokeFront id method) data) writes ≠ .sent

theorem WrapInv.returnsFailed {main : WrapMain} (inv : WrapInv main)
    {ctx : ContextId} (starts : main.Invoking ctx) :
    ReturnsFailed (main.invokeFail ctx) ctx := by
  obtain ⟨upp, allocated⟩ := inv.allocated_of_invoking starts
  have unlisted : ctx ∉ main.returnReqs := fun listed =>
    inv.not_opened_of_ret allocated listed
      ((inv.contexts ctx upp allocated).opened.mpr (Or.inr starts))
  rw [WrapMain.invokeFail]
  simp only [allocated]
  rw [WrapMain.addReturn, if_neg unlisted]
  refine ⟨?_, ⟨_, Function.update_self _ _ _, rfl, rfl, rfl⟩, inv.faultless⟩
  exact List.mem_append_right _ (List.mem_singleton_self ctx)

/-- The call fails if no INVOKE was sent. -/
theorem WrapInv.returnsFailed_end {main : WrapMain} (inv : WrapInv main)
    {ctx : ContextId} {id : UInt32} {ret : Int32}
    (answered : main.phase = .sync (.lookupId ctx) id (some ret))
    {start : StartOutcome} (unsent : ret ≠ 0 ∨ start ≠ .sent) :
    ReturnsFailed (main.ubusWrapInvokeEnd ctx id ret start) ctx := by
  have starts : main.Invoking ctx := ⟨id, some ret, answered⟩
  obtain ⟨upp, allocated⟩ := inv.allocated_of_invoking starts
  rw [WrapMain.ubusWrapInvokeEnd]
  split
  · exact inv.returnsFailed starts
  · rename_i found
    rw [if_neg (inv.unlinked_of_invoking allocated starts)]
    cases start with
    | tooLong =>
        exact inv.returnsFailed starts
    | sendFailed =>
        exact (inv.withSeq _).returnsFailed starts
    | sent =>
        rcases unsent with notFound | refused
        · exact absurd notFound found
        · exact absurd rfl refused

theorem invokeFront_aligned (id : UInt32) (method : List UInt8) :
    (invokeFront id method).length % 4 = 0 := by
  rw [invokeFront, List.length_append, blobPutInt32, blobPutString,
    length_blobPut (by rw [length_be32Bytes]), length_be32Bytes, blobPut,
    blobAttr, List.length_append, List.length_append, length_be32Bytes,
    List.length_replicate, blobFillPad]
  omega

theorem WrapInv.invokeKept_iff
    (jsonTokenerParse : List UInt8 → Option JsonValue) {main : WrapMain}
    (inv : WrapInv main) {ctx : ContextId} {id : UInt32} {ret : Int32}
    (answered : main.phase = .sync (.lookupId ctx) id (some ret))
    (method params : List UInt8) (writes : Bool) :
    InvokeKept jsonTokenerParse main ctx id ret method params writes ↔
      InvokeRefused jsonTokenerParse id ret method params writes ∨
        Converts jsonTokenerParse (invokeFront id method) params := by
  rw [InvokeKept, ubusWrapInvokeTexts, InvokeRefused,
    ← sentWhole_iff jsonTokenerParse (invokeFront_aligned id method)]
  by_cases found : ret ≠ 0
  · rw [if_pos found]
    exact iff_of_true
      ⟨_, none, rfl, inv.returnsFailed_end answered (Or.inl found)⟩
      (Or.inl (Or.inl found))
  · rw [if_neg found, or_iff_right found]
    cases isData : putData
        (IncomingMain.replyBlob jsonTokenerParse params) with
    | none =>
        simp
    | some data =>
        simp only [Option.map_some, Option.some.injEq, exists_eq_left']
        cases outcome :
            startOutcome (dataMsg (invokeFront id method) data) writes with
        | sent =>
            simp
        | tooLong =>
            have failed := inv.returnsFailed_end answered
              (Or.inr (show StartOutcome.tooLong ≠ .sent from nofun))
            simp [failed]
        | sendFailed =>
            have failed := inv.returnsFailed_end answered
              (Or.inr (show StartOutcome.sendFailed ≠ .sent from nofun))
            simp [failed]

/-- `ubus_wrap_invoke` comes to its wait in `ubus_lookup_id`, or fails. -/
theorem WrapInv.invoking_or_returnsFailed {main : WrapMain}
    (inv : WrapInv main) (idle : main.phase = .idle) {ctx : ContextId}
    (fetched : ∀ upp, main.wraps ctx = some upp →
      upp.invocation ∈ main.ledger.handedOut)
    (index : Int) (connects : Bool) (start : StartOutcome) :
    (main.ubusWrapInvoke ctx index connects start).Invoking ctx ∨
      ReturnsFailed (main.ubusWrapInvoke ctx index connects start) ctx := by
  have flags := inv.unflagged fetched
  have ready : WrapInv ((main.beginInvoke ctx index).ubusWrapInit connects) :=
    (inv.beginInvoke idle flags index).ubusWrapInit connects
  have starts : ∀ seq, ({ (main.beginInvoke ctx index).ubusWrapInit connects
      with requestSeq := seq }).Invoking ctx := fun seq => ⟨0, none, rfl⟩
  rw [WrapMain.ubusWrapInvoke, flags.1, flags.2, Bool.or_false,
    if_neg Bool.false_ne_true]
  dsimp only
  split
  · rw [WrapMain.ubusCompleteRequest]
    cases start with
    | tooLong =>
        exact Or.inr (ready.returnsFailed (starts main.requestSeq))
    | sendFailed =>
        exact Or.inr ((ready.withSeq _).returnsFailed (starts _))
    | sent =>
        exact Or.inl ⟨0, none, rfl⟩
  · exact Or.inr (ready.returnsFailed (starts main.requestSeq))

/-! ## `ubus_wrap_reply` -/

/-- The attributes of an answer before its DATA. -/
def replyFront (incoming : IncomingContext) : List UInt8 :=
  blobPutInt32 UbusMsgAttr.objid.id incoming.req.object

/-- The process does not die, and what is sent as DATA is the text as a
whole. -/
def ReplyKept (jsonTokenerParse : List UInt8 → Option JsonValue)
    (main : IncomingMain) (ctx : ContextId) (json : Option (List UInt8)) :
    Prop :=
  ∀ incoming text, main.reqs ctx = some incoming → json = some text →
    (putData (IncomingMain.replyBlob jsonTokenerParse text)).isSome = true ∧
      ∀ buf ∈ (main.ubusWrapReply jsonTokenerParse ctx json).sent.drop
          main.sent.length,
        buf.hdr.type = UbusMsgType.data.code →
          SentWhole jsonTokenerParse (replyFront incoming) text
            (writtenOf buf.data)

/-- Without a text, or without a request to answer, there is no DATA. -/
theorem ubusWrapReply_silent
    (jsonTokenerParse : List UInt8 → Option JsonValue) (main : IncomingMain)
    (ctx : ContextId) (json : Option (List UInt8))
    (quiet : main.reqs ctx = none ∨ json = none) :
    ∀ buf ∈ (main.ubusWrapReply jsonTokenerParse ctx json).sent.drop
        main.sent.length,
      buf.hdr.type ≠ UbusMsgType.data.code := by
  intro buf isNew
  rw [IncomingMain.ubusWrapReply] at isNew
  cases request : main.reqs ctx with
  | none =>
      rw [request] at isNew
      dsimp only at isNew
      rw [List.drop_length] at isNew
      exact absurd isNew List.not_mem_nil
  | some incoming =>
      rw [request] at quiet isNew
      rcases quiet with absent | noText
      · cases absent
      · subst noText
        dsimp only [IncomingMain.ubusCompleteDeferredRequest,
          IncomingMain.ubusSendMsg] at isNew
        rw [List.drop_left, List.mem_singleton] at isNew
        rw [isNew]
        exact show UbusMsgType.status.code ≠ UbusMsgType.data.code by decide

theorem replyKept_iff
    (jsonTokenerParse : List UInt8 → Option JsonValue) (main : IncomingMain)
    (ctx : ContextId) (json : Option (List UInt8)) :
    ReplyKept jsonTokenerParse main ctx json ↔
      ∀ incoming text, main.reqs ctx = some incoming → json = some text →
        Converts jsonTokenerParse (replyFront incoming) text := by
  refine forall₂_congr fun incoming text => ?_
  refine imp_congr_right fun request => imp_congr_right fun isText => ?_
  have aligned : (replyFront incoming).length % 4 = 0 := by
    rw [replyFront, blobPutInt32, length_blobPut (by rw [length_be32Bytes]),
      length_be32Bytes]
  rw [← sentWhole_iff jsonTokenerParse aligned text,
    IncomingMain.ubusWrapReply, request, isText]
  dsimp only [IncomingMain.ubusCompleteDeferredRequest,
    IncomingMain.ubusSendReply, IncomingMain.ubusSendMsg]
  rw [List.append_assoc, List.drop_left]
  cases isData : putData (IncomingMain.replyBlob jsonTokenerParse text) with
  | none =>
      simp
  | some data =>
      have isPut : data = blobPut UbusMsgAttr.data.id
          (bytesAt (IncomingMain.replyBlob jsonTokenerParse text).mem
            ((IncomingMain.replyBlob jsonTokenerParse text).head + 4)
            (blobLen (attrAt
              (IncomingMain.replyBlob jsonTokenerParse text).mem
              (IncomingMain.replyBlob jsonTokenerParse text).head)).toNat) :=
        (Option.some.inj (Option.ite_none_right_eq_some.mp isData).2).symm
      have notStatus : UbusMsgType.status.code ≠ UbusMsgType.data.code := by
        decide
      rw [← isPut]
      simp [notStatus, dataMsg, replyFront]

/-! ## Both -/

/-- A text is sent whole or not at all if and only if it converts, or, for an
invoke, nothing is sent. -/
theorem ubusWrap_sendsWhole_iff
    (jsonTokenerParse : List UInt8 → Option JsonValue) :
    (∀ actions main, wrapper.Meets InvokePermitted wrapper.init actions →
      wrapper.run actions = some main →
      (∀ ctx index connects start, main.phase = .idle →
        InvokePermitted main (.invoke ctx index connects start) →
          (main.ubusWrapInvoke ctx index connects start).Invoking ctx ∨
            ReturnsFailed (main.ubusWrapInvoke ctx index connects start)
              ctx) ∧
      ∀ ctx id ret method params writes,
        main.phase = .sync (.lookupId ctx) id (some ret) →
          (InvokeKept jsonTokenerParse main ctx id ret method params writes ↔
            InvokeRefused jsonTokenerParse id ret method params writes ∨
              Converts jsonTokenerParse (invokeFront id method) params)) ∧
    ∀ (main : IncomingMain) ctx json,
      (main.reqs ctx = none ∨ json = none →
        ∀ buf ∈ (main.ubusWrapReply jsonTokenerParse ctx json).sent.drop
            main.sent.length,
          buf.hdr.type ≠ UbusMsgType.data.code) ∧
      (ReplyKept jsonTokenerParse main ctx json ↔
        ∀ incoming text, main.reqs ctx = some incoming → json = some text →
          Converts jsonTokenerParse (replyFront incoming) text) := by
  refine ⟨fun actions main permitted reached => ?_, fun main ctx json =>
    ⟨ubusWrapReply_silent jsonTokenerParse main ctx json,
      replyKept_iff jsonTokenerParse main ctx json⟩⟩
  have inv : WrapInv main :=
    Machine.invariant_of_permitted WrapInv.init
      (fun _ _ _ holds stepPermitted taken => holds.step stepPermitted taken)
      permitted reached
  exact ⟨fun ctx index connects start idle fetched =>
      inv.invoking_or_returnsFailed idle fetched index connects start,
    fun ctx id ret method params writes answered =>
      inv.invokeKept_iff jsonTokenerParse answered method params writes⟩

/-- The lookup for context 0 has found object 9. -/
def lookedUp : List WrapAction :=
  [.invoke 0 3 true .sent, .arrive (.data 1 0 (some 9) none),
    .arrive (.status 1 0 0)]

/-- `{"a":1}`. -/
def oneMember : List UInt8 := [0x7b, 0x22, 0x61, 0x22, 0x3a, 0x31, 0x7d]

/-- `{"a":1,"b":0.5}`. -/
def halfMember : List UInt8 :=
  [0x7b, 0x22, 0x61, 0x22, 0x3a, 0x31, 0x2c, 0x22, 0x62, 0x22, 0x3a, 0x30,
    0x2e, 0x35, 0x7d]

theorem ubusWrap_sendsWhole_iff_oneMember :
    ∃ main, wrapper.run lookedUp = some main ∧
      (InvokeKept jsonValue? main 0 9 0 [0x6d] oneMember true ↔
        InvokeRefused jsonValue? 9 0 [0x6d] oneMember true ∨
          Converts jsonValue? (invokeFront 9 [0x6d]) oneMember) := by
  refine ⟨_, rfl, ((ubusWrap_sendsWhole_iff jsonValue?).1 lookedUp _ ?_
    rfl).2 0 9 0 [0x6d] oneMember true rfl⟩
  apply Machine.Meets.cons (fun upp allocated => nomatch allocated) rfl
  apply Machine.Meets.cons trivial rfl
  exact Machine.Meets.cons trivial rfl trivial

/-- The INVOKE for `{"a":1,"b":0.5}` is the one for `{"a":1}`. -/
theorem ubusWrapInvoke_sends_firstMember :
    ∃ main, wrapper.run lookedUp = some main ∧
      ubusWrapInvokeTexts jsonValue? main 0 9 0 [0x6d] halfMember true =
        ubusWrapInvokeTexts jsonValue? main 0 9 0 [0x6d] oneMember true ∧
      ¬ InvokeKept jsonValue? main 0 9 0 [0x6d] halfMember true := by
  have sameBlob : putData (IncomingMain.replyBlob jsonValue? halfMember) =
      putData (IncomingMain.replyBlob jsonValue? oneMember) := by
    decide +kernel
  have isSent : (putData (IncomingMain.replyBlob jsonValue? halfMember)).map
      (fun data => startOutcome (dataMsg (invokeFront 9 [0x6d]) data) true) =
        some .sent := by
    decide +kernel
  have refused : ((jsonValue? halfMember).map JsonValue.integral) =
      some false := by
    decide +kernel
  refine ⟨_, rfl, ?_, ?_⟩
  · rw [ubusWrapInvokeTexts, ubusWrapInvokeTexts, sameBlob]
  · rintro ⟨next, sent, result, kept⟩
    obtain ⟨data, isData, started⟩ := Option.map_eq_some_iff.mp isSent
    rw [ubusWrapInvokeTexts, if_neg (by decide), isData,
      Option.map_some] at result
    dsimp only at result
    rw [started] at result
    cases result
    obtain ⟨members, _, parsed, integral, _⟩ := kept
    rw [parsed] at refused
    have isFalse : JsonMembers.integral members = false :=
      Option.some.inj refused
    rw [integral] at isFalse
    cases isFalse

end LibubusJni.Wrapper
