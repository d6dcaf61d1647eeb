import LibubusJni.Libubox.BlobBuf
import LibubusJni.Libubus.Requests

/-!
# `ubus_notify` and `ubus_notify_async`

One notification, from the call to its end.  Here the list heads in the
request are modelled too, because `ubus_start_request` can return before it
initialises them.  A function that follows a null pointer has no result.

Of the loop of `ubus_complete_request` each round is one `NotifyPoll`; the file
descriptor, `status_cb` and the requests made in the meantime are left out.
-/

namespace LibubusJni.Libubus

open LibubusJni.Libubox

/-- A `struct list_head`: cleared memory, or initialised and with or without
neighbours. -/
inductive ListHead where
  | null
  | alone
  | linked
  deriving DecidableEq, Repr

/-- `list_empty`: whether `next` points to the head itself. -/
def ListHead.listEmpty : ListHead → Bool
  | .alone => true
  | .null | .linked => false

/-- `_list_del` follows both pointers. -/
def ListHead.listDelInit : ListHead → Option ListHead
  | .null => none
  | .alone | .linked => some .alone

/-- The `struct ubus_notify_request`; `pending` is `nreq->req.pending`, and
`queue` what is on that list. -/
structure NotifyRequest where
  list : ListHead
  pending : ListHead
  request : UbusRequest
  /-- `nreq->complete_cb` is set. -/
  notifyCompleteCb : Bool

/-- An entry of `ctx->requests`. -/
inductive RequestEntry where
  | notification
  | other (req : Nat)
  deriving DecidableEq, Repr

/-- The context while a notification is under way; `completed` lists the values
`ret` that `nreq->complete_cb` was called with. -/
structure NotifyContext where
  requestSeq : UInt16
  requests : List RequestEntry
  nreq : NotifyRequest
  completed : List UInt32

/-- One round of the loop in `ubus_complete_request`. -/
inductive NotifyPoll where
  /-- The time is over. -/
  | timeOver
  /-- No message for the notification is processed. -/
  | quiet
  /-- A STATUS message with the sequence number of the notification. -/
  | status (peer : UInt32) (attrs : StatusAttrs)
  deriving DecidableEq, Repr

/-- How a call of `ubus_notify` goes. -/
inductive NotifyOutcome where
  | returned (status : UInt32) (ctx : NotifyContext)
  /-- The rounds were not enough. -/
  | waiting
  /-- A null pointer was followed. -/
  | nullDereference

/-- The message of `__ubus_notify_async`; `data` is the payload of `msg`. -/
def notifyMessage (obj : UInt32) (type : List UInt8)
    (data : Option (List UInt8)) (reply : Bool) : List UInt8 :=
  blobNest 0
    ([blobPutInt32 UbusMsgAttr.objid.id obj,
        blobPutString UbusMsgAttr.method.id type] ++
      (if reply then [] else [blobPutInt8 UbusMsgAttr.noReply.id 1]) ++
      match data with
      | none => []
      | some bytes => [blobPut UbusMsgAttr.data.id bytes])

namespace NotifyContext

def modify (ctx : NotifyContext) (change : UbusRequest → UbusRequest) :
    NotifyContext :=
  { ctx with
    nreq := { ctx.nreq with request := change ctx.nreq.request } }

/-- `ubus_start_request` on cleared memory, and whether its result is
negative. -/
def ubusStartRequest (ctx : NotifyContext) (msg : List UInt8) (peer : UInt32)
    (sendFails : Bool) : NotifyContext × Bool :=
  if ubusMaxMsglen < blobPadLen msg then (ctx, true)
  else
    let seq := ctx.requestSeq + 1
    ({ ctx with
        requestSeq := seq
        nreq :=
          { ctx.nreq with
            list := .alone
            pending := .alone
            request := { ctx.nreq.request with peer := peer, seq := seq } } },
      sendFails)

/-- `__ubus_notify_async`; it clears the request first. -/
def ubusNotifyAsyncReply (ctx : NotifyContext) (obj : UInt32)
    (type : List UInt8) (data : Option (List UInt8)) (reply sendFails : Bool) :
    NotifyContext × UInt32 :=
  let cleared := { ctx with nreq := ⟨.null, .null, noRequest, false⟩ }
  let started := cleared.ubusStartRequest (notifyMessage obj type data reply)
    obj sendFails
  if started.2 then (started.1, ubusStatusInvalidArgument)
  else
    (started.1.modify fun req =>
      { req with
        notify := true
        notifyPending := 1
        notifyId := Function.update req.notifyId 0 obj
        completeCb := some .application }, 0)

/-- `ubus_notify_async`. -/
def ubusNotifyAsync (ctx : NotifyContext) (obj : UInt32) (type : List UInt8)
    (data : Option (List UInt8)) (sendFails : Bool) : NotifyContext × UInt32 :=
  ctx.ubusNotifyAsyncReply obj type data true sendFails

/-- `ubus_notify_complete_cb`. -/
def ubusNotifyCompleteCb (ctx : NotifyContext) : NotifyContext :=
  if ctx.nreq.notifyCompleteCb then
    { ctx with completed := ctx.completed ++ [0] }
  else ctx

/-- `ubus_req_complete_cb`. -/
def ubusReqCompleteCb (ctx : NotifyContext) : NotifyContext :=
  match ctx.nreq.request.completeCb with
  | none => ctx
  | some .application =>
      (ctx.modify fun req =>
        { req with completeCb := none }).ubusNotifyCompleteCb
  | some .ubusSyncReqCb =>
      ctx.modify fun req => { req with completeCb := none, statusMsg := true }

/-- `ubus_set_req_status`. -/
def ubusSetReqStatus (ctx : NotifyContext) (ret : UInt32) :
    Option NotifyContext :=
  let stored : NotifyContext → NotifyContext := fun ctx =>
    (ctx.modify fun req =>
      { req with statusMsg := true, statusCode := ret }).ubusReqCompleteCb
  if ctx.nreq.list.listEmpty then some (stored ctx)
  else
    ctx.nreq.list.listDelInit.map fun list =>
      stored
        { ctx with
          requests := listDel .notification ctx.requests
          nreq := { ctx.nreq with list := list } }

/-- `ubus_complete_request_async`. -/
def ubusCompleteRequestAsync (ctx : NotifyContext) : NotifyContext :=
  if ctx.nreq.list.listEmpty then
    { ctx with
      requests := listAdd .notification ctx.requests
      nreq := { ctx.nreq with list := .linked } }
  else ctx

/-- `__ubus_process_req_data` on a request that got no DATA: the first entry of
a cleared head is a null pointer. -/
def ubusProcessReqDataEmpty (ctx : NotifyContext) : Option NotifyContext :=
  if ctx.nreq.pending.listEmpty then some ctx else none

/-- `ubus_abort_request`. -/
def ubusAbortRequest (ctx : NotifyContext) : Option NotifyContext :=
  if ctx.nreq.list.listEmpty then some ctx
  else
    match (ctx.modify fun req =>
        { req with cancelled := true }).ubusProcessReqDataEmpty with
    | none => none
    | some emptied =>
        emptied.nreq.list.listDelInit.map fun list =>
          { emptied with
            requests := listDel .notification emptied.requests
            nreq := { emptied.nreq with list := list } }

/-- `ubus_process_notify_status`. -/
def ubusProcessNotifyStatus (ctx : NotifyContext) (id : Nat)
    (attrs : StatusAttrs) : Option NotifyContext :=
  let cleared := ctx.modify fun n =>
    { n with notifyPending := n.notifyPending &&& ~~~(1 <<< UInt32.ofNat id) }
  let listed :=
    if id = 0 then cleared.modify (addNotifyPeers 1 (attrs.subscribers.getD []))
    else cleared
  if listed.nreq.request.notifyPending = 0 then listed.ubusSetReqStatus 0
  else some listed

/-- `ubus_process_req_msg` of a STATUS with the sequence number of the
notification, which no other request has. -/
def ubusProcessReqMsg (ctx : NotifyContext) (peer : UInt32)
    (attrs : StatusAttrs) : Option NotifyContext :=
  if .notification ∈ ctx.requests then
    match ubusFindNotifyId ctx.nreq.request peer with
    | none => some ctx
    | some id => ctx.ubusProcessNotifyStatus id attrs
  else some ctx

/-- `ubus_complete_request` behind its loop. -/
def completeRequestEnd (ctx : NotifyContext)
    (completeCb : Option CompleteCb) : NotifyOutcome :=
  let restored := ctx.modify fun req => { req with completeCb := completeCb }
  .returned ctx.nreq.request.statusCode
    (match completeCb with
    | none => restored
    | some .application => restored.ubusNotifyCompleteCb
    | some .ubusSyncReqCb =>
        restored.modify fun req => { req with statusMsg := true })

/-- The loop of `ubus_complete_request`. -/
def completeRequestLoop (completeCb : Option CompleteCb) (timeout : Int) :
    List NotifyPoll → NotifyContext → NotifyOutcome
  | polls, ctx =>
      if ctx.nreq.request.statusMsg then ctx.completeRequestEnd completeCb
      else
        match polls with
        | [] => .waiting
        | .timeOver :: rest =>
            if timeout ≠ 0 then
              match ctx.ubusSetReqStatus ubusStatusTimeout with
              | none => .nullDereference
              | some ended => ended.completeRequestEnd completeCb
            else completeRequestLoop completeCb timeout rest ctx
        | .quiet :: rest => completeRequestLoop completeCb timeout rest ctx
        | .status peer attrs :: rest =>
            match ctx.ubusProcessReqMsg peer attrs with
            | none => .nullDereference
            | some next => completeRequestLoop completeCb timeout rest next

/-- `ubus_complete_request`. -/
def ubusCompleteRequest (ctx : NotifyContext) (timeout : Int)
    (polls : List NotifyPoll) : NotifyOutcome :=
  completeRequestLoop ctx.nreq.request.completeCb timeout polls
    (ctx.ubusCompleteRequestAsync.modify fun req =>
      { req with completeCb := some .ubusSyncReqCb })

/-- `ubus_notify`; the result of `__ubus_notify_async` is never negative. -/
def ubusNotify (ctx : NotifyContext) (obj : UInt32) (type : List UInt8)
    (data : Option (List UInt8)) (timeout : Int) (sendFails : Bool)
    (polls : List NotifyPoll) : NotifyOutcome :=
  let started := ctx.ubusNotifyAsyncReply obj type data (0 ≤ timeout) sendFails
  if timeout < 0 then
    match started.1.ubusAbortRequest with
    | none => .nullDereference
    | some aborted => .returned 0 aborted
  else started.1.ubusCompleteRequest timeout polls

end NotifyContext

inductive NotifyCall where
  | ubusNotify (timeout : Int)
  | ubusNotifyAsync
  deriving DecidableEq, Repr

/-- Whether the call asks for replies. -/
def NotifyCall.reply : NotifyCall → Bool
  | .ubusNotify timeout => 0 ≤ timeout
  | .ubusNotifyAsync => true

inductive NotifyFailure where
  /-- `ubus_start_request` refuses to send the message. -/
  | refused
  /-- ubusd answers with a status that is not zero, and no subscribers. -/
  | answered (status : UInt32)
  deriving DecidableEq, Repr

/-- The notification and how it fares on the socket. -/
structure Notification where
  obj : UInt32
  type : List UInt8
  data : Option (List UInt8)
  sendFails : Bool
  deriving DecidableEq, Repr

/-- The notification fails in this way. -/
def Notification.Fails (notification : Notification) (call : NotifyCall) :
    NotifyFailure → Prop
  | .refused =>
      ubusMaxMsglen < blobPadLen (notifyMessage notification.obj
          notification.type notification.data call.reply) ∨
        notification.sendFails = true
  | .answered status =>
      blobPadLen (notifyMessage notification.obj notification.type
          notification.data call.reply) ≤ ubusMaxMsglen ∧
        notification.sendFails = false ∧ status ≠ 0

/-- A call of `ubus_notify` returns a status that is not zero, in the rounds
there are. -/
def ReturnsError (ctx : NotifyContext) (outcome : NotifyOutcome) : Prop :=
  ∃ status next, outcome = .returned status next ∧ status ≠ 0 ∧
    next.requests = ctx.requests

/-- The failure is reported: `ubus_notify` returns it, without waiting for
replies to a message that was not sent, and `ubus_notify_async` returns it or
gives it to `complete_cb`; `ctx->requests` is left as it was. -/
def Reports (ctx : NotifyContext) (notification : Notification) :
    NotifyCall → NotifyFailure → Prop
  | .ubusNotify timeout, .refused =>
      ReturnsError ctx (ctx.ubusNotify notification.obj notification.type
        notification.data timeout notification.sendFails [])
  | .ubusNotify timeout, .answered status =>
      ∀ rounds : Nat,
        ReturnsError ctx (ctx.ubusNotify notification.obj notification.type
          notification.data timeout notification.sendFails
          (List.replicate rounds .quiet ++
            [.status notification.obj ⟨some status, none⟩]))
  | .ubusNotifyAsync, .refused =>
      let started := ctx.ubusNotifyAsync notification.obj notification.type
        notification.data notification.sendFails
      started.2 ≠ 0 ∧ started.1.requests = ctx.requests
  | .ubusNotifyAsync, .answered status =>
      let started := ctx.ubusNotifyAsync notification.obj notification.type
        notification.data notification.sendFails
      let waiting :=
        { started.1 with
          nreq := { started.1.nreq with notifyCompleteCb := true }
          }.ubusCompleteRequestAsync
      started.2 ≠ 0 ∧ started.1.requests = ctx.requests ∨
        ∃ next ret,
          waiting.ubusProcessReqMsg notification.obj ⟨some status, none⟩ =
              some next ∧
            next.completed = ctx.completed ++ [ret] ∧ ret ≠ 0 ∧
            next.requests = ctx.requests

/-! ## The two ways to refuse -/

namespace NotifyContext

variable {ctx : NotifyContext} {obj : UInt32} {type : List UInt8}
  {data : Option (List UInt8)} {reply sendFails : Bool}

/-- The list heads of a message that is too long are not initialised. -/
theorem ubusNotifyAsyncReply_of_tooLong
    (tooLong : ubusMaxMsglen < blobPadLen (notifyMessage obj type data reply)) :
    ctx.ubusNotifyAsyncReply obj type data reply sendFails =
      ({ ctx with nreq := ⟨.null, .null, noRequest, false⟩ },
        ubusStatusInvalidArgument) := by
  rw [ubusNotifyAsyncReply, ubusStartRequest, if_pos tooLong]
  rfl

theorem ubusNotifyAsyncReply_of_unsent
    (fits : ¬ ubusMaxMsglen < blobPadLen (notifyMessage obj type data reply)) :
    ctx.ubusNotifyAsyncReply obj type data reply true =
      ({ ctx with
          requestSeq := ctx.requestSeq + 1
          nreq :=
            ⟨.alone, .alone,
              { noRequest with peer := obj, seq := ctx.requestSeq + 1 },
              false⟩ },
        ubusStatusInvalidArgument) := by
  rw [ubusNotifyAsyncReply, ubusStartRequest, if_neg fits]
  rfl

/-- The request that waits for ubusd. -/
def sentRequest (obj : UInt32) (seq : UInt16) : UbusRequest :=
  { noRequest with
    peer := obj
    seq := seq
    notify := true
    notifyPending := 1
    notifyId := Function.update noRequest.notifyId 0 obj
    completeCb := some .application }

theorem ubusNotifyAsyncReply_of_sent
    (fits : ¬ ubusMaxMsglen < blobPadLen (notifyMessage obj type data reply)) :
    ctx.ubusNotifyAsyncReply obj type data reply false =
      ({ ctx with
          requestSeq := ctx.requestSeq + 1
          nreq :=
            ⟨.alone, .alone, sentRequest obj (ctx.requestSeq + 1), false⟩ },
        0) := by
  rw [ubusNotifyAsyncReply, ubusStartRequest, if_neg fits]
  rfl

/-- A refused call does not return an error at once. -/
theorem ubusNotify_refused {timeout : Int}
    (refused : ubusMaxMsglen <
        blobPadLen (notifyMessage obj type data (0 ≤ timeout)) ∨
      sendFails = true) :
    ¬ ReturnsError ctx
      (ctx.ubusNotify obj type data timeout sendFails []) := by
  rintro ⟨status, next, returned, nonzero, _⟩
  rw [ubusNotify] at returned
  by_cases tooLong : ubusMaxMsglen <
      blobPadLen (notifyMessage obj type data (0 ≤ timeout))
  · rw [ubusNotifyAsyncReply_of_tooLong tooLong] at returned
    split at returned
    · -- `ubus_abort_request` takes the first entry of a cleared list
      cases returned
    · cases returned
  · rw [refused.resolve_left tooLong,
      ubusNotifyAsyncReply_of_unsent tooLong] at returned
    split at returned
    · cases returned
      exact nonzero rfl
    · cases returned

/-! ## Answers of ubusd -/

/-- The request waits for ubusd, and nothing has arrived. -/
def Awaits (ctx : NotifyContext) (obj : UInt32)
    (completeCb : Option CompleteCb) : Prop :=
  .notification ∈ ctx.requests ∧ ctx.nreq.list = .linked ∧
    ∃ seq, ctx.nreq.request =
      { sentRequest obj seq with completeCb := completeCb }

/-- An answer without subscribers completes the request, and the status in it
is lost. -/
theorem ubusProcessReqMsg_answered {completeCb : Option CompleteCb}
    (awaits : ctx.Awaits obj completeCb) (status : UInt32) :
    ctx.ubusProcessReqMsg obj ⟨some status, none⟩ =
      (ctx.modify fun req =>
        { req with notifyPending := 0 }).ubusSetReqStatus 0 := by
  obtain ⟨listed, _, seq, waits⟩ := awaits
  have bit : (1 : UInt32).toBitVec.getLsbD 0 = true := by
    decide
  have isObj : Function.update noRequest.notifyId 0 obj 0 = obj :=
    Function.update_self _ _ _
  have found : ubusFindNotifyId ctx.nreq.request obj = some 0 := by
    have range : List.range 32 = 0 :: (List.range 31).map (· + 1) :=
      List.range_succ_eq_map
    rw [waits, ubusFindNotifyId, range]
    refine List.find?_cons_of_pos ?_
    rw [Bool.and_eq_true, beq_iff_eq]
    exact ⟨bit, isObj⟩
  have cleared : ctx.nreq.request.notifyPending &&&
      ~~~((1 : UInt32) <<< UInt32.ofNat 0) = 0 := by
    have noBits : (1 : UInt32) &&& ~~~((1 : UInt32) <<< UInt32.ofNat 0) = 0 := by
      decide
    rw [waits]
    exact noBits
  rw [ubusProcessReqMsg, if_pos listed, found]
  dsimp only
  rw [ubusProcessNotifyStatus, if_pos rfl]
  have same : (ctx.modify fun n =>
      { n with
        notifyPending := n.notifyPending &&& ~~~(1 <<< UInt32.ofNat 0)
        }).modify (addNotifyPeers 1 []) =
      ctx.modify fun req => { req with notifyPending := 0 } := by
    simp only [modify, cleared]
    rfl
  simp only [Option.getD_none, same]
  exact if_pos rfl

/-- `ubus_set_req_status` on a request that is waited for. -/
theorem ubusSetReqStatus_of_linked (linked : ctx.nreq.list = .linked)
    (ret : UInt32) :
    ctx.ubusSetReqStatus ret =
      some (({ ctx with
          requests := listDel .notification ctx.requests
          nreq := { ctx.nreq with list := .alone } }.modify fun req =>
            { req with statusMsg := true, statusCode := ret
              }).ubusReqCompleteCb) := by
  rw [ubusSetReqStatus, linked]
  rfl

/-- Rounds without a message for the notification change nothing. -/
theorem completeRequestLoop_quiet
    {completeCb : Option CompleteCb} {timeout : Int} (rounds : Nat)
    (polls : List NotifyPoll)
    (waits : ctx.nreq.request.statusMsg = false) :
    completeRequestLoop completeCb timeout
        (List.replicate rounds .quiet ++ polls) ctx =
      completeRequestLoop completeCb timeout polls ctx := by
  induction rounds with
  | zero =>
      rfl
  | succ rounds inductionHypothesis =>
      rw [List.replicate_succ, List.cons_append, completeRequestLoop]
      simp only [waits, Bool.false_eq_true, if_false]
      exact inductionHypothesis

/-- `ubus_notify` returns zero behind an answer with another status. -/
theorem ubusNotify_answered {timeout : Int} {status : UInt32}
    (fits : ¬ ubusMaxMsglen <
      blobPadLen (notifyMessage obj type data (0 ≤ timeout)))
    (rounds : Nat) :
    ∃ next, ctx.ubusNotify obj type data timeout false
      (List.replicate rounds .quiet ++ [.status obj ⟨some status, none⟩]) =
        .returned 0 next := by
  rw [ubusNotify, ubusNotifyAsyncReply_of_sent fits]
  split
  · exact ⟨_, rfl⟩
  · let listed : NotifyContext :=
      { ctx with
        requestSeq := ctx.requestSeq + 1
        requests := listAdd .notification ctx.requests
        nreq :=
          ⟨.linked, .alone,
            { sentRequest obj (ctx.requestSeq + 1) with
              completeCb := some .ubusSyncReqCb }, false⟩ }
    have awaits : listed.Awaits obj (some .ubusSyncReqCb) :=
      ⟨mem_listAdd.mpr (Or.inl rfl), rfl, _, rfl⟩
    have loop : ∃ next, completeRequestLoop (some .application) timeout
        [.status obj ⟨some status, none⟩] listed = .returned 0 next := by
      have noStatus : ¬ listed.nreq.request.statusMsg = true :=
        Bool.false_ne_true
      rw [completeRequestLoop, if_neg noStatus,
        ubusProcessReqMsg_answered awaits status]
      exact ⟨_, rfl⟩
    obtain ⟨next, returned⟩ := loop
    refine ⟨next, Eq.trans ?_ returned⟩
    exact completeRequestLoop_quiet rounds _ rfl

/-- `complete_cb` of the application is given zero behind an answer with another
status. -/
theorem ubusNotifyAsync_answered {status : UInt32}
    (awaits : ctx.Awaits obj (some .application))
    (isSet : ctx.nreq.notifyCompleteCb = true) :
    ∃ next, ctx.ubusProcessReqMsg obj ⟨some status, none⟩ = some next ∧
      next.completed = ctx.completed ++ [0] := by
  obtain ⟨listed, linked, seq, waits⟩ := awaits
  let change : UbusRequest → UbusRequest := fun req =>
    { req with notifyPending := 0 }
  have stillLinked : (ctx.modify change).nreq.list = .linked := linked
  refine ⟨_, (ubusProcessReqMsg_answered ⟨listed, linked, seq, waits⟩
    status).trans (ubusSetReqStatus_of_linked stillLinked 0), ?_⟩
  simp [modify, change, waits, ubusReqCompleteCb, ubusNotifyCompleteCb, isSet]

end NotifyContext

/-- Exactly the refusals behind `ubus_notify_async` are reported. -/
theorem notify_reports_iff
    (ctx : NotifyContext) (notification : Notification) (call : NotifyCall)
    (failure : NotifyFailure) (fails : notification.Fails call failure) :
    Reports ctx notification call failure ↔
      call = .ubusNotifyAsync ∧ failure = .refused := by
  cases call with
  | ubusNotify timeout =>
      refine iff_of_false (fun reports => ?_) (fun same => nomatch same.1)
      cases failure with
      | refused =>
          exact NotifyContext.ubusNotify_refused fails reports
      | answered status =>
          obtain ⟨fits, sent, nonzero⟩ := fails
          obtain ⟨code, next, returned, isError, _⟩ := reports 0
          obtain ⟨other, isZero⟩ := @NotifyContext.ubusNotify_answered ctx
            notification.obj notification.type notification.data timeout status
            (UInt32.not_lt.mpr fits) 0
          rw [sent, isZero] at returned
          cases returned
          exact isError rfl
  | ubusNotifyAsync =>
      cases failure with
      | refused =>
          refine iff_of_true ?_ ⟨rfl, rfl⟩
          have isError : ubusStatusInvalidArgument ≠ 0 := by
            decide
          rw [Reports, NotifyContext.ubusNotifyAsync]
          by_cases tooLong : ubusMaxMsglen < blobPadLen (notifyMessage
              notification.obj notification.type notification.data true)
          · rw [NotifyContext.ubusNotifyAsyncReply_of_tooLong tooLong]
            exact ⟨isError, rfl⟩
          · rw [show notification.sendFails = true from
                fails.resolve_left tooLong,
              NotifyContext.ubusNotifyAsyncReply_of_unsent tooLong]
            exact ⟨isError, rfl⟩
      | answered status =>
          refine iff_of_false (fun reports => ?_) (fun same => nomatch same.2)
          obtain ⟨fits, sent, nonzero⟩ := fails
          rw [Reports, NotifyContext.ubusNotifyAsync, sent,
            @NotifyContext.ubusNotifyAsyncReply_of_sent ctx notification.obj
              notification.type notification.data true
              (UInt32.not_lt.mpr fits)] at reports
          rcases reports with
            ⟨isError, _⟩ | ⟨next, ret, stored, given, isError, _⟩
          · exact isError rfl
          · let waiting : NotifyContext :=
              { ctx with
                requestSeq := ctx.requestSeq + 1
                requests := listAdd .notification ctx.requests
                nreq :=
                  ⟨.linked, .alone, NotifyContext.sentRequest notification.obj
                    (ctx.requestSeq + 1), true⟩ }
            obtain ⟨other, answered, isZero⟩ :=
              @NotifyContext.ubusNotifyAsync_answered waiting notification.obj
                status ⟨mem_listAdd.mpr (Or.inl rfl), rfl, _, rfl⟩ rfl
            cases answered.symm.trans stored
            have same := List.append_cancel_left (isZero.symm.trans given)
            exact isError (List.singleton_inj.mp same).symm

/-- A context with no requests. -/
def idleNotifyContext : NotifyContext :=
  ⟨0, [], ⟨.null, .null, noRequest, false⟩, []⟩

/-- The notification `up` of the object 5. -/
def notifyUp (sendFails : Bool) : Notification :=
  ⟨5, [0x75, 0x70], none, sendFails⟩

theorem notify_reports_iff_unsent :
    (notifyUp true).Fails .ubusNotifyAsync .refused ∧
      (Reports idleNotifyContext (notifyUp true) .ubusNotifyAsync .refused ↔
        NotifyCall.ubusNotifyAsync = .ubusNotifyAsync ∧
          NotifyFailure.refused = .refused) :=
  ⟨Or.inr rfl, notify_reports_iff idleNotifyContext (notifyUp true)
    .ubusNotifyAsync .refused (Or.inr rfl)⟩

/-- ubusd does not know the object, and `ubus_notify` returns zero. -/
theorem ubusNotify_loses_notFound :
    (notifyUp false).Fails (.ubusNotify 0) (.answered 4) ∧
      ¬ Reports idleNotifyContext (notifyUp false) (.ubusNotify 0)
        (.answered 4) := by
  have fits : blobPadLen (notifyMessage 5 [0x75, 0x70] none true) ≤
      ubusMaxMsglen := by
    decide +kernel
  refine ⟨⟨fits, rfl, by decide⟩, fun reports => ?_⟩
  obtain ⟨code, next, returned, isError, _⟩ := reports 0
  obtain ⟨other, isZero⟩ := @NotifyContext.ubusNotify_answered
    idleNotifyContext 5 [0x75, 0x70] none 0 4 (UInt32.not_lt.mpr fits) 0
  cases isZero.symm.trans returned
  exact isError rfl

end LibubusJni.Libubus
