import LibubusJni.Libubox.Avl
import LibubusJni.Libubox.BlobBuf
import LibubusJni.Libubus.Requests

/-!
# Incoming INVOKE messages: `ubus_process_obj_msg` and `ubus_process_invoke`

A method handler may receive further messages, which replace the contents of
`ctx->msgbuf`, may call into libubus again and may defer its request; other
requests that were deferred can be completed at any time.  `invokes` records the
messages passed to `ubus_process_obj_msg` with type INVOKE, and `answers` of a
message that was given to `ubus_send_msg` is the place in `invokes` of the one
it answers.  File descriptors are left out.
-/

namespace LibubusJni.Libubus

open LibubusJni.Lib LibubusJni.Libubox

/-- `ubus_policy` of `libubus-io.c`. -/
def ubusPolicy : Nat → BlobAttrType
  | 1 => .int32 -- `UBUS_ATTR_STATUS`
  | 3 => .int32 -- `UBUS_ATTR_OBJID`
  | 2 => .string -- `UBUS_ATTR_OBJPATH`
  | 4 => .string -- `UBUS_ATTR_METHOD`
  | 9 => .int8 -- `UBUS_ATTR_ACTIVE`
  | 10 => .int8 -- `UBUS_ATTR_NO_REPLY`
  | 11 => .nested -- `UBUS_ATTR_SUBSCRIBERS`
  | _ => .unspec

/-- `ubus_parse_msg`. -/
def ubusParseMsg (mem : Memory) (attr : UbusMsgAttr) : Option Nat :=
  blobParse mem 0 ubusPolicy ubusAttrMax attr.id

/-- `struct ubus_msghdr_buf`. -/
structure UbusMsghdrBuf where
  hdr : UbusMsghdr
  data : List UInt8
  deriving DecidableEq, Repr

namespace UbusMsghdrBuf

def mem (buf : UbusMsghdrBuf) : Memory := memoryOf buf.data

/-- The table `attrbuf`. -/
def attrbuf (buf : UbusMsghdrBuf) (attr : UbusMsgAttr) : Option Nat :=
  ubusParseMsg buf.mem attr

/-- The payload of `UBUS_ATTR_OBJID`. -/
def objid (buf : UbusMsghdrBuf) : Option UInt32 :=
  (buf.attrbuf .objid).map (blobGetU32 buf.mem)

/-- The string of `UBUS_ATTR_METHOD`. -/
def method (buf : UbusMsghdrBuf) : Option (List UInt8) :=
  (buf.attrbuf .method).map fun attr => cString buf.data (attr + 4)

/-- What `no_reply` is set to. -/
def noReply (buf : UbusMsghdrBuf) : Bool :=
  match buf.attrbuf .noReply with
  | none => false
  | some attr => blobGetU8 buf.mem attr ≠ 0

end UbusMsghdrBuf

/-- `struct ubus_object`: its identifier and the names of its methods. -/
structure UbusObject where
  id : UInt32
  methods : List (Option (List UInt8))
  deriving DecidableEq, Repr

/-- `struct ubus_request_data`. -/
structure UbusRequestData where
  object : UInt32
  peer : UInt32
  seq : UInt16
  deferred : Bool
  deriving DecidableEq, Repr

/-- The initializer of `req` in `ubus_process_invoke`. -/
def UbusRequestData.zero : UbusRequestData := ⟨0, 0, 0, false⟩

/-- An active `ubus_process_invoke` whose handler is running. -/
structure HandlerCall where
  invoke : Nat
  req : UbusRequestData
  noReply : Bool
  deriving DecidableEq, Repr

/-- A request that a handler copied with `ubus_defer_request`. -/
structure DeferredRequest where
  invoke : Nat
  req : UbusRequestData
  deriving DecidableEq, Repr

/-- A message given to `ubus_send_msg`. -/
structure InvokeSent where
  hdr : UbusMsghdr
  data : List UInt8
  answers : Option Nat
  deriving DecidableEq, Repr

def ubusStatusMethodNotFound : UInt32 := 3

def ubusStatusNotFound : UInt32 := 4

/-- The part of `struct ubus_context` that has to do with incoming calls. -/
structure InvokeContext where
  msgbuf : UbusMsghdrBuf
  objects : List UbusObject
  calls : List HandlerCall
  deferred : List DeferredRequest
  sent : List InvokeSent
  invokes : List UbusMsghdrBuf
  deriving DecidableEq, Repr

inductive InvokeAction where
  /-- `get_next_msg` fills `ctx->msgbuf`. -/
  | receive (message : UbusMsghdrBuf)
  /-- `ubus_process_obj_msg` of `ctx->msgbuf`, or of a message that
  `ubus_queue_msg` kept. -/
  | processObjMsg (pending : Option UbusMsghdrBuf)
  /-- Objects are added and removed. -/
  | setObjects (objects : List UbusObject)
  /-- The running handler calls `ubus_defer_request`. -/
  | deferRequest
  /-- The running handler returns. -/
  | handlerReturns (ret : UInt32)
  /-- `ubus_complete_deferred_request` of a copy. -/
  | completeDeferred (request : DeferredRequest) (ret : UInt32)
  /-- Any other message is sent. -/
  | send (hdr : UbusMsghdr) (data : List UInt8)
  deriving DecidableEq, Repr

/-- `ubus_cmp_id`. -/
def ubusCmpId (id1 id2 : UInt32) : Ordering :=
  if id1 < id2 then .lt else if id2 < id1 then .gt else .eq

theorem ubusCmpId_eq {id1 id2 : UInt32} :
    ubusCmpId id1 id2 = .eq ↔ id1 = id2 := by
  rw [ubusCmpId]
  split
  · rename_i less
    simp [UInt32.ne_of_lt less]
  · split
    · rename_i greater
      simp [(UInt32.ne_of_lt greater).symm]
    · rename_i notLess notGreater
      have same : id1 = id2 :=
        UInt32.le_antisymm (UInt32.not_lt.mp notGreater)
          (UInt32.not_lt.mp notLess)
      simp [same]

/-- The loop over `obj->methods`; a method without a name takes any call. -/
def UbusObject.findMethod (obj : UbusObject) (name : List UInt8) :
    Option (Option (List UInt8)) :=
  obj.methods.find? fun method => method.isNone || method == some name

namespace InvokeContext

/-- `ubus_complete_deferred_request`. -/
def ubusCompleteDeferredRequest (ctx : InvokeContext) (invoke : Nat)
    (req : UbusRequestData) (ret : UInt32) : InvokeContext :=
  { ctx with
    sent := ctx.sent ++
      [⟨⟨0, UbusMsgType.status.code, req.seq, req.peer⟩,
        blobNest 0
          [blobPutInt32 UbusMsgAttr.status.id ret,
            blobPutInt32 UbusMsgAttr.objid.id req.object],
        some invoke⟩] }

/-- `avl_find_element(&ctx->objects, &objid, obj, avl)`. -/
def findObject (ctx : InvokeContext) (objid : UInt32) : Option UbusObject :=
  avlFind ubusCmpId UbusObject.id objid ctx.objects

/-- `ubus_process_invoke` up to the return of the handler. -/
def ubusProcessInvoke (ctx : InvokeContext) (invoke : Nat)
    (buf : UbusMsghdrBuf) (obj : Option UbusObject) : InvokeContext :=
  match obj with
  | none => ctx.ubusCompleteDeferredRequest invoke .zero ubusStatusNotFound
  | some obj =>
      match buf.method with
      | none =>
          ctx.ubusCompleteDeferredRequest invoke .zero
            ubusStatusInvalidArgument
      | some method =>
          let req : UbusRequestData :=
            ⟨obj.id, buf.hdr.peer, buf.hdr.seq, false⟩
          match obj.findMethod method with
          | none =>
              ctx.ubusCompleteDeferredRequest invoke req
                ubusStatusMethodNotFound
          | some _ =>
              { ctx with calls := ⟨invoke, req, buf.noReply⟩ :: ctx.calls }

/-- `ubus_process_obj_msg`; the callbacks for NOTIFY and UNSUBSCRIBE answer
nothing themselves. -/
def ubusProcessObjMsg (ctx : InvokeContext) (buf : UbusMsghdrBuf) :
    InvokeContext :=
  if buf.hdr.type = UbusMsgType.invoke.code then
    let recorded := { ctx with invokes := ctx.invokes ++ [buf] }
    match buf.objid with
    | none => recorded
    | some objid =>
        recorded.ubusProcessInvoke ctx.invokes.length buf
          (ctx.findObject objid)
  else ctx

/-- `ubus_defer_request` in the innermost handler. -/
def ubusDeferRequest (ctx : InvokeContext) (call : HandlerCall)
    (outer : List HandlerCall) : InvokeContext :=
  { ctx with
    deferred := ctx.deferred ++ [⟨call.invoke, call.req⟩]
    calls :=
      { call with req := { call.req with deferred := true } } :: outer }

/-- The end of `ubus_process_invoke` behind its handler. -/
def handlerReturns (ctx : InvokeContext) (call : HandlerCall)
    (outer : List HandlerCall) (ret : UInt32) : InvokeContext :=
  let ctx := { ctx with calls := outer }
  if call.req.deferred || call.noReply then ctx
  else ctx.ubusCompleteDeferredRequest call.invoke call.req ret

def step (ctx : InvokeContext) : InvokeAction → Option InvokeContext
  | .receive message => some { ctx with msgbuf := message }
  | .processObjMsg pending =>
      some (ctx.ubusProcessObjMsg (pending.getD ctx.msgbuf))
  | .setObjects objects => some { ctx with objects := objects }
  | .deferRequest =>
      match ctx.calls with
      | [] => none
      | call :: outer => some (ctx.ubusDeferRequest call outer)
  | .handlerReturns ret =>
      match ctx.calls with
      | [] => none
      | call :: outer => some (ctx.handlerReturns call outer ret)
  | .completeDeferred request ret =>
      if request ∈ ctx.deferred then
        some (ctx.ubusCompleteDeferredRequest request.invoke request.req ret)
      else none
  | .send hdr data =>
      some { ctx with sent := ctx.sent ++ [⟨hdr, data, none⟩] }

/-- The handler of an INVOKE is running. -/
def Running (ctx : InvokeContext) (invoke : Nat) : Prop :=
  ∃ call ∈ ctx.calls, call.invoke = invoke

/-- The handler of an INVOKE has deferred the request. -/
def Deferred (ctx : InvokeContext) (invoke : Nat) : Prop :=
  ∃ request ∈ ctx.deferred, request.invoke = invoke

/-- The messages sent in answer to an INVOKE. -/
def statusesOf (ctx : InvokeContext) (invoke : Nat) : List InvokeSent :=
  ctx.sent.filter fun msg => msg.answers == some invoke

end InvokeContext

/-- A context right after `ubus_connect`. -/
def invokee : Machine InvokeContext InvokeAction where
  init := ⟨⟨.zero, []⟩, [], [], [], [], []⟩
  step := InvokeContext.step

/-- The STATUS that ubusd passes on to the caller of this INVOKE. -/
def InvokeSent.IsAnswer (msg : InvokeSent) (buf : UbusMsghdrBuf) : Prop :=
  ∃ objid ret, buf.objid = some objid ∧
    msg.hdr = ⟨0, UbusMsgType.status.code, buf.hdr.seq, buf.hdr.peer⟩ ∧
    msg.data = blobNest 0
      [blobPutInt32 UbusMsgAttr.status.id ret,
        blobPutInt32 UbusMsgAttr.objid.id objid]

/-- An INVOKE is answered by one STATUS as soon as its handler has returned,
unless the request was deferred or wants no reply, and every STATUS sent in
answer to it has its sequence number, peer and object. -/
structure InvokeContext.Answered (ctx : InvokeContext) (invoke : Nat)
    (buf : UbusMsghdrBuf) : Prop where
  own : ∀ msg ∈ ctx.statusesOf invoke, msg.IsAnswer buf
  once : ¬ ctx.Deferred invoke → buf.noReply = false →
    (ctx.Running invoke → ctx.statusesOf invoke = []) ∧
      (¬ ctx.Running invoke → ∃ status, ctx.statusesOf invoke = [status])

/-- Every INVOKE so far is answered. -/
def InvokeContext.AllAnswered (ctx : InvokeContext) : Prop :=
  ∀ invoke buf, ctx.invokes[invoke]? = some buf → ctx.Answered invoke buf

/-- An INVOKE takes no exit before `req` is filled in: it names an object that
is registered, and a method; or else its own address is all zeros.  Without
`UBUS_ATTR_OBJID` it has to want no reply. -/
def InvokeAddressed (ctx : InvokeContext) : InvokeAction → Prop
  | .processObjMsg pending =>
      let buf := pending.getD ctx.msgbuf
      buf.hdr.type = UbusMsgType.invoke.code →
        match buf.objid with
        | none => buf.noReply = true
        | some objid =>
            (ctx.findObject objid).isSome = true ∧ buf.method.isSome = true ∨
              buf.hdr.seq = 0 ∧ buf.hdr.peer = 0 ∧ objid = 0
  | _ => True

/-! ## What a step does to an INVOKE -/

/-- What `ubus_process_invoke` copies out of its message. -/
structure UbusRequestData.IsOf (req : UbusRequestData) (buf : UbusMsghdrBuf) :
    Prop where
  object : buf.objid = some req.object
  peer : req.peer = buf.hdr.peer
  seq : req.seq = buf.hdr.seq

/-- The handlers that run and the copies of deferred requests belong to INVOKE
messages that came, and before its handler has returned or deferred it an
INVOKE is not answered. -/
structure InvokeInv (ctx : InvokeContext) : Prop where
  calls : ∀ call ∈ ctx.calls, ∃ buf, ctx.invokes[call.invoke]? = some buf ∧
    call.req.IsOf buf ∧ call.noReply = buf.noReply ∧
    (call.req.deferred = true ↔ ctx.Deferred call.invoke)
  different : (ctx.calls.map HandlerCall.invoke).Nodup
  deferred : ∀ request ∈ ctx.deferred, ∃ buf,
    ctx.invokes[request.invoke]? = some buf ∧ request.req.IsOf buf
  sent : ∀ msg ∈ ctx.sent, ∀ invoke, msg.answers = some invoke →
    invoke < ctx.invokes.length
  quiet : ∀ invoke, ctx.Running invoke → ¬ ctx.Deferred invoke →
    ctx.statusesOf invoke = []

/-- Nothing was done yet for this INVOKE. -/
def InvokeContext.Young (ctx : InvokeContext) (invoke : Nat) : Prop :=
  ctx.statusesOf invoke = [] ∧ ¬ ctx.Running invoke ∧ ¬ ctx.Deferred invoke

section Steps

variable {ctx next : InvokeContext} {invoke : Nat} {buf : UbusMsghdrBuf}

/-- Only the answers, the calls and the copies of an INVOKE matter. -/
theorem answered_congr
    (statuses : next.statusesOf invoke = ctx.statusesOf invoke)
    (deferred : next.Deferred invoke ↔ ctx.Deferred invoke)
    (running : next.Running invoke ↔ ctx.Running invoke) :
    next.Answered invoke buf ↔ ctx.Answered invoke buf := by
  constructor
  · intro answered
    exact
      { own := by
          rw [← statuses]
          exact answered.own
        once := by
          rw [← statuses, ← deferred, ← running]
          exact answered.once }
  · intro answered
    exact
      { own := by
          rw [statuses]
          exact answered.own
        once := by
          rw [statuses, deferred, running]
          exact answered.once }

theorem statusesOf_snoc (msg : InvokeSent)
    (sent : next.sent = ctx.sent ++ [msg]) :
    next.statusesOf invoke = ctx.statusesOf invoke ++
      if msg.answers = some invoke then [msg] else [] := by
  rw [InvokeContext.statusesOf, InvokeContext.statusesOf, sent,
    List.filter_append]
  by_cases answers : msg.answers = some invoke
  · simp [answers]
  · simp [answers]

/-- The STATUS of `ubus_complete_deferred_request`. -/
def statusOf (invoke : Nat) (req : UbusRequestData) (ret : UInt32) :
    InvokeSent :=
  ⟨⟨0, UbusMsgType.status.code, req.seq, req.peer⟩,
    blobNest 0
      [blobPutInt32 UbusMsgAttr.status.id ret,
        blobPutInt32 UbusMsgAttr.objid.id req.object],
    some invoke⟩

theorem statusesOf_complete (other : Nat) (req : UbusRequestData)
    (ret : UInt32) :
    (ctx.ubusCompleteDeferredRequest other req ret).statusesOf invoke =
      ctx.statusesOf invoke ++
        if other = invoke then [statusOf other req ret] else [] := by
  rw [statusesOf_snoc (statusOf other req ret) rfl]
  simp only [statusOf, Option.some.injEq]

/-- The object in the payload of a STATUS can be read back. -/
theorem statusAttrs_injective {ret other object objid : UInt32}
    (same : blobNest 0 [blobPutInt32 UbusMsgAttr.status.id ret,
        blobPutInt32 UbusMsgAttr.objid.id object] =
      blobNest 0 [blobPutInt32 UbusMsgAttr.status.id other,
        blobPutInt32 UbusMsgAttr.objid.id objid]) : object = objid := by
  have tails := congrArg (List.drop 16) same
  simp [blobNest, blobPutInt32, blobPut, blobAttr, blobFillPad,
    List.drop_append] at tails
  exact be32Bytes_injective tails

/-- A STATUS is an answer if its address is that of the INVOKE. -/
theorem isAnswer_statusOf_iff {req : UbusRequestData} {ret objid : UInt32}
    (named : buf.objid = some objid) :
    (statusOf invoke req ret).IsAnswer buf ↔
      req.seq = buf.hdr.seq ∧ req.peer = buf.hdr.peer ∧
        req.object = objid := by
  constructor
  · intro ⟨object, other, isObject, hdr, data⟩
    rw [named, Option.some.injEq] at isObject
    subst isObject
    obtain ⟨_, _, seq, peer⟩ := UbusMsghdr.mk.inj hdr
    exact ⟨seq, peer, statusAttrs_injective data⟩
  · intro ⟨seq, peer, object⟩
    refine ⟨objid, ret, named, ?_, ?_⟩
    · rw [statusOf, seq, peer]
    · rw [statusOf, object]

theorem UbusRequestData.IsOf.isAnswer {req : UbusRequestData}
    (isOf : req.IsOf buf) (ret : UInt32) :
    (statusOf invoke req ret).IsAnswer buf :=
  (isAnswer_statusOf_iff isOf.object).mpr ⟨isOf.seq, isOf.peer, rfl⟩

/-! ## The invariant -/

theorem InvokeInv.lt_of_call (inv : InvokeInv ctx) {call : HandlerCall}
    (member : call ∈ ctx.calls) : call.invoke < ctx.invokes.length := by
  obtain ⟨buf, found, _⟩ := inv.calls call member
  exact (List.getElem?_eq_some_iff.mp found).1

theorem InvokeInv.lt_of_deferred (inv : InvokeInv ctx)
    {request : DeferredRequest} (member : request ∈ ctx.deferred) :
    request.invoke < ctx.invokes.length := by
  obtain ⟨buf, found, _⟩ := inv.deferred request member
  exact (List.getElem?_eq_some_iff.mp found).1

/-- Nothing was done yet for an INVOKE that is still to come. -/
theorem InvokeInv.fresh (inv : InvokeInv ctx)
    (late : ctx.invokes.length ≤ invoke) :
    ctx.Young invoke := by
  refine ⟨?_, ?_, ?_⟩
  · refine List.filter_eq_nil_iff.mpr fun msg member answers => ?_
    have below := inv.sent msg member invoke (beq_iff_eq.mp answers)
    exact absurd below (Nat.not_lt_of_le late)
  · intro ⟨call, member, same⟩
    exact absurd (inv.lt_of_call member)
      (Nat.not_lt_of_le (same.symm ▸ late))
  · intro ⟨request, member, same⟩
    exact absurd (inv.lt_of_deferred member)
      (Nat.not_lt_of_le (same.symm ▸ late))

/-- A STATUS is sent in answer to an INVOKE whose handler does not run, or
which is deferred. -/
theorem InvokeInv.complete (inv : InvokeInv ctx) {other : Nat}
    {req : UbusRequestData} {ret : UInt32}
    (known : other < ctx.invokes.length)
    (idle : ctx.Running other → ctx.Deferred other) :
    InvokeInv (ctx.ubusCompleteDeferredRequest other req ret) :=
  { calls := inv.calls
    different := inv.different
    deferred := inv.deferred
    sent := fun msg member => by
      rcases List.mem_append.mp member with older | newest
      · exact inv.sent msg older
      · rw [List.mem_singleton] at newest
        intro invoke answers
        rw [newest, Option.some.injEq] at answers
        subst answers
        exact known
    quiet := fun invoke running notDeferred => by
      rw [statusesOf_complete, inv.quiet invoke running notDeferred,
        if_neg]
      · rfl
      · intro same
        subst same
        exact notDeferred (idle running) }

/-- An INVOKE is recorded. -/
theorem InvokeInv.record (inv : InvokeInv ctx) (buf : UbusMsghdrBuf) :
    InvokeInv { ctx with invokes := ctx.invokes ++ [buf] } :=
  { calls := fun call member => by
      obtain ⟨own, found, rest⟩ := inv.calls call member
      exact ⟨own, List.getElem?_append_left (inv.lt_of_call member) ▸ found,
        rest⟩
    different := inv.different
    deferred := fun request member => by
      obtain ⟨own, found, rest⟩ := inv.deferred request member
      exact ⟨own, List.getElem?_append_left (inv.lt_of_deferred member) ▸
        found, rest⟩
    sent := fun msg member invoke answers => by
      rw [List.length_append]
      exact Nat.lt_add_right 1 (inv.sent msg member invoke answers)
    quiet := inv.quiet }

/-- The handler of the INVOKE that was recorded last is called. -/
theorem InvokeInv.call (inv : InvokeInv ctx) {req : UbusRequestData}
    (found : ctx.invokes[invoke]? = some buf) (isOf : req.IsOf buf)
    (notDeferred : req.deferred = false)
    (young : ctx.Young invoke) :
    InvokeInv
      { ctx with calls := ⟨invoke, req, buf.noReply⟩ :: ctx.calls } := by
  obtain ⟨silent, idle, undeferred⟩ := young
  refine
    { calls := fun call member => ?_
      different := ?_
      deferred := inv.deferred
      sent := inv.sent
      quiet := fun other running => ?_ }
  · rcases List.mem_cons.mp member with isNew | older
    · subst isNew
      refine ⟨buf, found, isOf, rfl, ?_⟩
      rw [notDeferred]
      exact iff_of_false Bool.false_ne_true undeferred
    · exact inv.calls call older
  · rw [List.map_cons, List.nodup_cons]
    refine ⟨fun member => ?_, inv.different⟩
    obtain ⟨call, isCall, same⟩ := List.mem_map.mp member
    exact idle ⟨call, isCall, same⟩
  · obtain ⟨call, member, same⟩ := running
    rcases List.mem_cons.mp member with isNew | older
    · subst isNew
      subst same
      exact fun _ => silent
    · exact inv.quiet other ⟨call, older, same⟩

theorem InvokeInv.processInvoke (inv : InvokeInv ctx) {objid : UInt32}
    (found : ctx.invokes[invoke]? = some buf)
    (named : buf.objid = some objid)
    (young : ctx.Young invoke) :
    InvokeInv
      (ctx.ubusProcessInvoke invoke buf (ctx.findObject objid)) := by
  have known := (List.getElem?_eq_some_iff.mp found).1
  have idle : ctx.Running invoke → ctx.Deferred invoke :=
    fun running => absurd running young.2.1
  rw [InvokeContext.ubusProcessInvoke.eq_def]
  split
  · exact inv.complete known idle
  · rename_i obj isObject
    split
    · exact inv.complete known idle
    · dsimp only
      split
      · exact inv.complete known idle
      · refine inv.call found { object := ?_, peer := rfl, seq := rfl } rfl
          young
        have same := (avlFind_some isObject).2
        rw [named, ubusCmpId_eq.mp same]

theorem InvokeInv.processObjMsg (inv : InvokeInv ctx) (buf : UbusMsghdrBuf) :
    InvokeInv (ctx.ubusProcessObjMsg buf) := by
  rw [InvokeContext.ubusProcessObjMsg]
  split
  · have recorded := inv.record buf
    dsimp only
    split
    · exact recorded
    · rename_i objid named
      exact recorded.processInvoke List.getElem?_concat_length named
        (inv.fresh (Nat.le_refl _))
  · exact inv

theorem deferred_ubusDeferRequest (call : HandlerCall)
    (outer : List HandlerCall) :
    (ctx.ubusDeferRequest call outer).Deferred invoke ↔
      ctx.Deferred invoke ∨ call.invoke = invoke := by
  rw [InvokeContext.Deferred, InvokeContext.ubusDeferRequest]
  simp [InvokeContext.Deferred, or_and_right, exists_or]

theorem running_cons {call : HandlerCall} {outer : List HandlerCall}
    (active : ctx.calls = call :: outer) :
    ctx.Running invoke ↔
      call.invoke = invoke ∨ ∃ other ∈ outer, other.invoke = invoke := by
  rw [InvokeContext.Running, active]
  simp

theorem running_ubusDeferRequest {call : HandlerCall}
    {outer : List HandlerCall} (active : ctx.calls = call :: outer) :
    (ctx.ubusDeferRequest call outer).Running invoke ↔
      ctx.Running invoke := by
  rw [running_cons active, InvokeContext.Running,
    InvokeContext.ubusDeferRequest]
  simp

/-- The handler that runs is that of one INVOKE. -/
theorem InvokeInv.other (inv : InvokeInv ctx) {call other : HandlerCall}
    {outer : List HandlerCall} (active : ctx.calls = call :: outer)
    (member : other ∈ outer) : other.invoke ≠ call.invoke := by
  have different := inv.different
  rw [active, List.map_cons, List.nodup_cons] at different
  intro same
  exact different.1 (same ▸ List.mem_map_of_mem member)

theorem InvokeInv.defer (inv : InvokeInv ctx) {call : HandlerCall}
    {outer : List HandlerCall} (active : ctx.calls = call :: outer) :
    InvokeInv (ctx.ubusDeferRequest call outer) := by
  have top : call ∈ ctx.calls := active ▸ List.mem_cons_self
  obtain ⟨buf, found, isOf, noReply, _⟩ := inv.calls call top
  refine
    { calls := fun other member => ?_
      different := ?_
      deferred := fun request member => ?_
      sent := inv.sent
      quiet := fun other running notDeferred => ?_ }
  · rcases List.mem_cons.mp member with isTop | below
    · subst isTop
      refine ⟨buf, found, ⟨isOf.object, isOf.peer, isOf.seq⟩, noReply, ?_⟩
      exact iff_of_true rfl
        ((deferred_ubusDeferRequest call outer).mpr (Or.inr rfl))
    · have below' : other ∈ ctx.calls := active ▸ List.mem_cons_of_mem _ below
      obtain ⟨own, isOwn, ownReq, ownReply, ownDeferred⟩ :=
        inv.calls other below'
      refine ⟨own, isOwn, ownReq, ownReply, ownDeferred.trans ?_⟩
      rw [deferred_ubusDeferRequest]
      exact (or_iff_left (Ne.symm (inv.other active below))).symm
  · have different := inv.different
    rw [active] at different
    exact different
  · rcases List.mem_append.mp member with older | newest
    · exact inv.deferred request older
    · rw [List.mem_singleton] at newest
      subst newest
      exact ⟨buf, found, isOf⟩
  · exact inv.quiet other ((running_ubusDeferRequest active).mp running)
      fun wasDeferred => notDeferred
        ((deferred_ubusDeferRequest call outer).mpr (Or.inl wasDeferred))

/-- A handler has returned. -/
theorem InvokeInv.pop (inv : InvokeInv ctx) {call : HandlerCall}
    {outer : List HandlerCall} (active : ctx.calls = call :: outer) :
    InvokeInv { ctx with calls := outer } := by
  have different := inv.different
  rw [active, List.map_cons, List.nodup_cons] at different
  exact
    { calls := fun other member =>
        inv.calls other (active ▸ List.mem_cons_of_mem _ member)
      different := different.2
      deferred := inv.deferred
      sent := inv.sent
      quiet := fun other running =>
        inv.quiet other ((running_cons active).mpr (Or.inr running)) }

theorem InvokeInv.handlerReturns (inv : InvokeInv ctx) {call : HandlerCall}
    {outer : List HandlerCall} (active : ctx.calls = call :: outer)
    (ret : UInt32) : InvokeInv (ctx.handlerReturns call outer ret) := by
  rw [InvokeContext.handlerReturns]
  split
  · exact inv.pop active
  · refine (inv.pop active).complete
      (inv.lt_of_call (active ▸ List.mem_cons_self)) ?_
    intro ⟨other, member, same⟩
    exact absurd same (inv.other active member)

theorem InvokeInv.init : InvokeInv invokee.init :=
  { calls := fun _ member => nomatch member
    different := List.nodup_nil
    deferred := fun _ member => nomatch member
    sent := fun _ member => nomatch member
    quiet := fun _ running => nomatch running.choose_spec.1 }

theorem InvokeInv.step (inv : InvokeInv ctx) {action : InvokeAction}
    (taken : ctx.step action = some next) : InvokeInv next := by
  cases action with
  | receive message =>
      cases taken
      exact { inv with }
  | processObjMsg pending =>
      cases taken
      exact inv.processObjMsg _
  | setObjects objects =>
      cases taken
      exact { inv with }
  | deferRequest =>
      rw [InvokeContext.step] at taken
      split at taken
      · cases taken
      · rename_i call outer active
        cases taken
        exact inv.defer active
  | handlerReturns ret =>
      rw [InvokeContext.step] at taken
      split at taken
      · cases taken
      · rename_i call outer active
        cases taken
        exact inv.handlerReturns active ret
  | completeDeferred request ret =>
      rw [InvokeContext.step] at taken
      split at taken
      · rename_i member
        cases taken
        exact inv.complete (inv.lt_of_deferred member) fun _ =>
          ⟨request, member, rfl⟩
      · cases taken
  | send hdr data =>
      cases taken
      exact
        { calls := inv.calls
          different := inv.different
          deferred := inv.deferred
          sent := fun msg member => by
            rcases List.mem_append.mp member with older | newest
            · exact inv.sent msg older
            · rw [List.mem_singleton] at newest
              subst newest
              exact fun invoke answers => nomatch answers
          quiet := fun invoke running notDeferred => by
            rw [statusesOf_snoc ⟨hdr, data, none⟩ rfl,
              inv.quiet invoke running notDeferred]
            rfl }

/-! ## Answers -/

/-- Of a deferred INVOKE only the address of its answers matters. -/
theorem answered_iff_own (deferred : ctx.Deferred invoke) :
    ctx.Answered invoke buf ↔
      ∀ msg ∈ ctx.statusesOf invoke, msg.IsAnswer buf := by
  constructor
  · exact InvokeContext.Answered.own
  · intro own
    exact
      { own := own
        once := fun notDeferred => absurd deferred notDeferred }

theorem answered_of_quiet (running : ctx.Running invoke)
    (silent : ctx.statusesOf invoke = []) : ctx.Answered invoke buf :=
  { own := fun msg member => by
      rw [silent] at member
      cases member
    once := fun _ _ => ⟨fun _ => silent, fun idle => absurd running idle⟩ }

theorem allAnswered_congr (invokes : next.invokes = ctx.invokes)
    (each : ∀ invoke buf, ctx.invokes[invoke]? = some buf →
      (next.Answered invoke buf ↔ ctx.Answered invoke buf)) :
    next.AllAnswered ↔ ctx.AllAnswered := by
  rw [InvokeContext.AllAnswered, invokes]
  constructor
  · intro all invoke buf found
    exact (each invoke buf found).mp (all invoke buf found)
  · intro all invoke buf found
    exact (each invoke buf found).mpr (all invoke buf found)

theorem InvokeInv.allAnswered_defer (inv : InvokeInv ctx)
    {call : HandlerCall} {outer : List HandlerCall}
    (active : ctx.calls = call :: outer) :
    (ctx.ubusDeferRequest call outer).AllAnswered ↔ ctx.AllAnswered := by
  refine allAnswered_congr rfl fun invoke buf _ => ?_
  by_cases own : call.invoke = invoke
  · have nowDeferred : (ctx.ubusDeferRequest call outer).Deferred invoke :=
      (deferred_ubusDeferRequest call outer).mpr (Or.inr own)
    have running : ctx.Running invoke :=
      (running_cons active).mpr (Or.inl own)
    rw [answered_iff_own nowDeferred]
    by_cases before : ctx.Deferred invoke
    · exact (answered_iff_own before).symm
    · have silent := inv.quiet invoke running before
      refine iff_of_true (fun msg member => ?_)
        (answered_of_quiet running silent)
      rw [show (ctx.ubusDeferRequest call outer).statusesOf invoke = [] from
        silent] at member
      cases member
  · refine answered_congr rfl ?_ (running_ubusDeferRequest active)
    rw [deferred_ubusDeferRequest]
    exact or_iff_left own

theorem InvokeInv.allAnswered_returns (inv : InvokeInv ctx)
    {call : HandlerCall} {outer : List HandlerCall}
    (active : ctx.calls = call :: outer) (ret : UInt32) :
    (ctx.handlerReturns call outer ret).AllAnswered ↔ ctx.AllAnswered := by
  have top : call ∈ ctx.calls := active ▸ List.mem_cons_self
  obtain ⟨own, found, isOf, noReply, deferred⟩ := inv.calls call top
  have idle : ¬ ∃ other ∈ outer, other.invoke = call.invoke :=
    fun ⟨other, member, same⟩ => inv.other active member same
  have running : ctx.Running call.invoke := ⟨call, top, rfl⟩
  have others : ∀ invoke, call.invoke ≠ invoke →
      ((∃ other ∈ outer, other.invoke = invoke) ↔ ctx.Running invoke) := by
    intro invoke different
    rw [running_cons active]
    exact (or_iff_right different).symm
  rw [InvokeContext.handlerReturns]
  split
  · rename_i silentReturn
    refine allAnswered_congr rfl fun invoke buf isBuf => ?_
    by_cases isCall : call.invoke = invoke
    · subst isCall
      by_cases before : ctx.Deferred call.invoke
      · rw [answered_iff_own before]
        exact answered_iff_own before
      · have silent := inv.quiet call.invoke running before
        have wantsNone : call.noReply = true := by
          rcases Bool.or_eq_true_iff.mp silentReturn with isDeferred | none
          · exact absurd (deferred.mp isDeferred) before
          · exact none
        rw [found, Option.some.injEq] at isBuf
        subst isBuf
        refine iff_of_true ?_ (answered_of_quiet running silent)
        exact
          { own := fun msg member => by
              rw [show InvokeContext.statusesOf { ctx with calls := outer }
                call.invoke = [] from silent] at member
              cases member
            once := fun _ wantsReply => by
              rw [← noReply, wantsNone] at wantsReply
              cases wantsReply }
    · exact answered_congr rfl Iff.rfl (others invoke isCall)
  · rename_i replies
    have replies' := Bool.or_eq_false_iff.mp (eq_false_of_ne_true replies)
    have notDeferred : ¬ ctx.Deferred call.invoke := by
      rw [← deferred, replies'.1]
      exact Bool.false_ne_true
    have silent := inv.quiet call.invoke running notDeferred
    refine allAnswered_congr rfl fun invoke buf isBuf => ?_
    by_cases isCall : call.invoke = invoke
    · subst isCall
      rw [found, Option.some.injEq] at isBuf
      subst isBuf
      have one : (InvokeContext.ubusCompleteDeferredRequest
          { ctx with calls := outer } call.invoke call.req ret).statusesOf
            call.invoke = [statusOf call.invoke call.req ret] := by
        rw [statusesOf_complete, if_pos rfl,
          show InvokeContext.statusesOf { ctx with calls := outer }
            call.invoke = [] from silent, List.nil_append]
      refine iff_of_true ?_ (answered_of_quiet running silent)
      exact
        { own := fun msg member => by
            rw [one, List.mem_singleton] at member
            rw [member]
            exact isOf.isAnswer ret
          once := fun _ _ => ⟨fun stillRuns => absurd stillRuns idle,
            fun _ => ⟨_, one⟩⟩ }
    · refine answered_congr ?_ Iff.rfl (others invoke isCall)
      rw [statusesOf_complete, if_neg isCall, List.append_nil]
      rfl

theorem InvokeInv.allAnswered_complete (inv : InvokeInv ctx)
    {request : DeferredRequest} (member : request ∈ ctx.deferred)
    (ret : UInt32) :
    (ctx.ubusCompleteDeferredRequest request.invoke request.req
      ret).AllAnswered ↔ ctx.AllAnswered := by
  obtain ⟨own, found, isOf⟩ := inv.deferred request member
  refine allAnswered_congr rfl fun invoke buf isBuf => ?_
  by_cases same : request.invoke = invoke
  · subst same
    rw [found, Option.some.injEq] at isBuf
    subst isBuf
    have isDeferred : ctx.Deferred request.invoke := ⟨request, member, rfl⟩
    have stillDeferred : (ctx.ubusCompleteDeferredRequest request.invoke
        request.req ret).Deferred request.invoke := isDeferred
    rw [answered_iff_own isDeferred, answered_iff_own stillDeferred,
      statusesOf_complete, if_pos rfl]
    simp only [List.mem_append, List.mem_singleton, or_imp, forall_and,
      forall_eq]
    exact and_iff_left (isOf.isAnswer ret)
  · refine answered_congr ?_ Iff.rfl Iff.rfl
    rw [statusesOf_complete, if_neg same, List.append_nil]

/-- The STATUS of an exit without a handler is an answer if its address is
right. -/
theorem answered_complete_iff {req : UbusRequestData} {ret objid : UInt32}
    (young : ctx.Young invoke) (named : buf.objid = some objid) :
    (ctx.ubusCompleteDeferredRequest invoke req ret).Answered invoke buf ↔
      req.seq = buf.hdr.seq ∧ req.peer = buf.hdr.peer ∧
        req.object = objid := by
  have one : (ctx.ubusCompleteDeferredRequest invoke req ret).statusesOf
      invoke = [statusOf invoke req ret] := by
    rw [statusesOf_complete, if_pos rfl, young.1, List.nil_append]
  rw [← @isAnswer_statusOf_iff invoke buf req ret objid named]
  constructor
  · intro answered
    exact answered.own _ (one ▸ List.mem_singleton_self _)
  · intro isAnswer
    exact
      { own := fun msg member => by
          rw [one, List.mem_singleton] at member
          rw [member]
          exact isAnswer
        once := fun _ _ => ⟨fun running => absurd running young.2.1,
          fun _ => ⟨_, one⟩⟩ }

theorem answered_processInvoke_iff {objid : UInt32}
    (young : ctx.Young invoke) (named : buf.objid = some objid) :
    (ctx.ubusProcessInvoke invoke buf (ctx.findObject objid)).Answered invoke
        buf ↔
      (ctx.findObject objid).isSome = true ∧ buf.method.isSome = true ∨
        buf.hdr.seq = 0 ∧ buf.hdr.peer = 0 ∧ objid = 0 := by
  have zeros : ((0 : UInt16) = buf.hdr.seq ∧ (0 : UInt32) = buf.hdr.peer ∧
      (0 : UInt32) = objid) ↔
        buf.hdr.seq = 0 ∧ buf.hdr.peer = 0 ∧ objid = 0 := by
    rw [@eq_comm _ 0 buf.hdr.seq, @eq_comm _ 0 buf.hdr.peer,
      @eq_comm _ 0 objid]
  rw [InvokeContext.ubusProcessInvoke.eq_def]
  split
  · rename_i absent
    rw [answered_complete_iff young named, absent]
    simp only [Option.isSome_none, Bool.false_eq_true, false_and, false_or]
    exact zeros
  · rename_i obj isObject
    have isOwn : obj.id = objid :=
      (ubusCmpId_eq.mp (avlFind_some isObject).2).symm
    split
    · rename_i noMethod
      rw [answered_complete_iff young named, noMethod]
      simp only [Option.isSome_none, Bool.false_eq_true, and_false, false_or]
      exact zeros
    · rename_i method isMethod
      rw [isObject, isMethod]
      simp only [Option.isSome_some, and_self, true_or, iff_true]
      split
      · rw [answered_complete_iff young named]
        exact ⟨rfl, rfl, isOwn⟩
      · exact answered_of_quiet ⟨_, List.mem_cons_self, rfl⟩ young.1

/-- The INVOKE before the one that is processed keep their answers. -/
theorem answered_older {recorded : InvokeContext}
    {obj : Option UbusObject} {late : Nat} (older : invoke ≠ late)
    (sent : recorded.sent = ctx.sent) (calls : recorded.calls = ctx.calls)
    (deferred : recorded.deferred = ctx.deferred)
    {own : UbusMsghdrBuf} :
    (recorded.ubusProcessInvoke late own obj).Answered invoke buf ↔
      ctx.Answered invoke buf := by
  have completed (req : UbusRequestData) (ret : UInt32) :
      (recorded.ubusCompleteDeferredRequest late req ret).Answered invoke
        buf ↔ ctx.Answered invoke buf := by
    refine answered_congr ?_ ?_ ?_
    · rw [statusesOf_complete, if_neg (Ne.symm older), List.append_nil,
        InvokeContext.statusesOf, InvokeContext.statusesOf, sent]
    · rw [InvokeContext.Deferred, InvokeContext.Deferred, ← deferred]
      rfl
    · rw [InvokeContext.Running, InvokeContext.Running, ← calls]
      rfl
  rw [InvokeContext.ubusProcessInvoke.eq_def]
  split
  · exact completed _ _
  · split
    · exact completed _ _
    · dsimp only
      split
      · exact completed _ _
      · refine answered_congr ?_ ?_ ?_
        · rw [InvokeContext.statusesOf, InvokeContext.statusesOf, ← sent]
        · rw [InvokeContext.Deferred, InvokeContext.Deferred, ← deferred]
        · rw [InvokeContext.Running, InvokeContext.Running, calls]
          simp [Ne.symm older]

theorem InvokeInv.allAnswered_process (inv : InvokeInv ctx)
    (isInvoke : buf.hdr.type = UbusMsgType.invoke.code) :
    (ctx.ubusProcessObjMsg buf).AllAnswered ↔
      ctx.AllAnswered ∧
        match buf.objid with
        | none => buf.noReply = true
        | some objid =>
            (ctx.findObject objid).isSome = true ∧ buf.method.isSome = true ∨
              buf.hdr.seq = 0 ∧ buf.hdr.peer = 0 ∧ objid = 0 := by
  -- the new INVOKE is the last of `invokes`
  have split {next : InvokeContext} {P : Prop}
      (invokes : next.invokes = ctx.invokes ++ [buf])
      (older : ∀ invoke own, invoke < ctx.invokes.length →
        (next.Answered invoke own ↔ ctx.Answered invoke own))
      (newest : next.Answered ctx.invokes.length buf ↔ P) :
      next.AllAnswered ↔ ctx.AllAnswered ∧ P := by
    rw [InvokeContext.AllAnswered, invokes]
    constructor
    · intro all
      refine ⟨fun invoke own found => ?_,
        newest.mp (all _ _ List.getElem?_concat_length)⟩
      have below := (List.getElem?_eq_some_iff.mp found).1
      exact (older invoke own below).mp
        (all invoke own ((List.getElem?_append_left below).trans found))
    · intro ⟨all, holds⟩ invoke own found
      by_cases below : invoke < ctx.invokes.length
      · rw [List.getElem?_append_left below] at found
        exact (older invoke own below).mpr (all invoke own found)
      · have inside := (List.getElem?_eq_some_iff.mp found).1
        rw [List.length_append, List.length_singleton] at inside
        have last : invoke = ctx.invokes.length := by omega
        subst last
        rw [List.getElem?_concat_length, Option.some.injEq] at found
        subst found
        exact newest.mpr holds
  have young := inv.fresh (Nat.le_refl ctx.invokes.length)
  rw [InvokeContext.ubusProcessObjMsg, if_pos isInvoke]
  dsimp only
  cases named : buf.objid with
  | none =>
      refine split rfl (fun _ _ _ => answered_congr rfl Iff.rfl Iff.rfl) ?_
      constructor
      · intro answered
        by_contra wantsReply
        obtain ⟨status, isStatus⟩ := (answered.once young.2.2
          (eq_false_of_ne_true wantsReply)).2 young.2.1
        rw [show InvokeContext.statusesOf
          { ctx with invokes := ctx.invokes ++ [buf] } ctx.invokes.length =
            [] from young.1] at isStatus
        cases isStatus
      · intro wantsNone
        exact
          { own := fun msg member => by
              rw [show InvokeContext.statusesOf
                { ctx with invokes := ctx.invokes ++ [buf] }
                  ctx.invokes.length = [] from young.1] at member
              cases member
            once := fun _ wantsReply => by
              rw [wantsNone] at wantsReply
              cases wantsReply }
  | some objid =>
      dsimp only
      refine split ?_ (fun invoke own below =>
        @answered_older ctx invoke own
          { ctx with invokes := ctx.invokes ++ [buf] } _ _
          (Nat.ne_of_lt below) rfl rfl rfl _) ?_
      · rw [InvokeContext.ubusProcessInvoke.eq_def]
        split
        · rfl
        · split
          · rfl
          · dsimp only
            split <;> rfl
      · exact @answered_processInvoke_iff
          { ctx with invokes := ctx.invokes ++ [buf] } _ _ _ young named

/-- Exactly the exits behind which `req` is not filled in, and a message that
is not looked at, leave an INVOKE without its answer. -/
theorem InvokeInv.allAnswered_step (inv : InvokeInv ctx)
    {action : InvokeAction} (taken : ctx.step action = some next) :
    next.AllAnswered ↔ ctx.AllAnswered ∧ InvokeAddressed ctx action := by
  have noInvoke (same : next.AllAnswered ↔ ctx.AllAnswered)
      (addressed : InvokeAddressed ctx action) :
      next.AllAnswered ↔ ctx.AllAnswered ∧ InvokeAddressed ctx action :=
    same.trans (and_iff_left addressed).symm
  cases action with
  | receive message =>
      cases taken
      exact noInvoke (allAnswered_congr rfl fun _ _ _ =>
        answered_congr rfl Iff.rfl Iff.rfl) trivial
  | processObjMsg pending =>
      cases taken
      by_cases isInvoke :
          (pending.getD ctx.msgbuf).hdr.type = UbusMsgType.invoke.code
      · refine (inv.allAnswered_process isInvoke).trans
          (and_congr_right fun _ => ?_)
        exact ⟨fun addressed _ => addressed,
          fun addressed => addressed isInvoke⟩
      · refine noInvoke ?_ fun impossible => absurd impossible isInvoke
        rw [InvokeContext.ubusProcessObjMsg, if_neg isInvoke]
  | setObjects objects =>
      cases taken
      exact noInvoke (allAnswered_congr rfl fun _ _ _ =>
        answered_congr rfl Iff.rfl Iff.rfl) trivial
  | deferRequest =>
      rw [InvokeContext.step] at taken
      split at taken
      · cases taken
      · rename_i call outer active
        cases taken
        exact noInvoke (inv.allAnswered_defer active) trivial
  | handlerReturns ret =>
      rw [InvokeContext.step] at taken
      split at taken
      · cases taken
      · rename_i call outer active
        cases taken
        exact noInvoke (inv.allAnswered_returns active ret) trivial
  | completeDeferred request ret =>
      rw [InvokeContext.step] at taken
      split at taken
      · rename_i member
        cases taken
        exact noInvoke (inv.allAnswered_complete member ret) trivial
      · cases taken
  | send hdr data =>
      cases taken
      refine noInvoke (allAnswered_congr rfl fun _ _ _ =>
        answered_congr ?_ Iff.rfl Iff.rfl) trivial
      rw [statusesOf_snoc ⟨hdr, data, none⟩ rfl]
      exact List.append_nil _

end Steps

/-- In every run, each INVOKE is answered by one STATUS with its own sequence
number, peer and object, unless it was deferred or wants no reply, if and only
if each of them names a registered object and a method. -/
theorem ubusProcessInvoke_answered_iff
    {actions : List InvokeAction} {final : InvokeContext}
    (reached : invokee.run actions = some final) :
    final.AllAnswered ↔
      invokee.Meets InvokeAddressed invokee.init actions :=
  @Machine.meets_iff _ _ invokee InvokeAddressed (fun _ => True) InvokeInv
    InvokeContext.AllAnswered InvokeInv.init (fun _ _ found => nomatch found)
    (fun _ _ _ inv _ taken => inv.step taken)
    (fun _ _ _ inv _ taken => inv.allAnswered_step taken) actions final
    (fun _ _ => trivial) reached

/-- An INVOKE of the method "m" of object 7, from peer 6 with number 5. -/
def invokeSeven : UbusMsghdrBuf :=
  ⟨⟨0, UbusMsgType.invoke.code, 5, 6⟩,
    blobNest 0
      [blobPutInt32 UbusMsgAttr.objid.id 7,
        blobPutString UbusMsgAttr.method.id [109]]⟩

/-- The handler makes a synchronous call whose answer replaces the message. -/
def answeredInvoke : List InvokeAction :=
  [.setObjects [⟨7, [some [109]]⟩], .receive invokeSeven, .processObjMsg none,
    .send ⟨0, UbusMsgType.lookup.code, 1, 0⟩ [0, 0, 0, 4],
    .receive ⟨⟨0, UbusMsgType.status.code, 1, 0⟩, [0, 0, 0, 4]⟩,
    .handlerReturns 0]

theorem ubusProcessInvoke_answered_iff_nested :
    ∃ final, invokee.run answeredInvoke = some final ∧ final.AllAnswered := by
  refine ⟨_, rfl, (@ubusProcessInvoke_answered_iff answeredInvoke _ rfl).mpr
    ?_⟩
  apply Machine.Meets.cons trivial rfl
  apply Machine.Meets.cons trivial rfl
  apply Machine.Meets.cons
  · intro _
    exact Or.inl (by decide)
  · rfl
  · apply Machine.Meets.cons trivial rfl
    apply Machine.Meets.cons trivial rfl
    exact Machine.Meets.cons trivial rfl trivial

/-- The object was removed: the STATUS goes to peer zero. -/
theorem ubusProcessInvoke_misaddressed :
    ∃ final, invokee.run [.receive invokeSeven, .processObjMsg none] =
        some final ∧
      final.sent.map InvokeSent.hdr =
        [⟨0, UbusMsgType.status.code, 0, 0⟩] ∧
      ¬ final.AllAnswered := by
  refine ⟨_, rfl, by decide, fun all => ?_⟩
  obtain ⟨_, _, _, hdr, _⟩ := (all 0 invokeSeven rfl).own _
    (List.mem_singleton_self _)
  revert hdr
  decide

end LibubusJni.Libubus
