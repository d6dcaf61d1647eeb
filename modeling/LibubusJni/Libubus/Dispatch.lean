import LibubusJni.Lib.Machine
import LibubusJni.Libubox.List
import LibubusJni.Wire

/-!
# Object messages: `ubus_process_msg`, `ubus_queue_msg`, `ubus_complete_request`

The calls that are active on the thread of a context form a stack.  A callback
may issue a synchronous request, which polls the socket and so calls
`ubus_handle_data` again.  Application code (a callback, or the code outside of
all callbacks, which includes the event loop) decides what happens next.

The context stays connected: `ubus_reconnect`, which removes the socket from
the event loop, is not part of the run.  `calloc_a` in `ubus_queue_msg` is not
checked by the source and succeeds here.
-/

namespace LibubusJni.Libubus

open LibubusJni.Lib LibubusJni.Libubox

/-- One active call. -/
inductive CallFrame where
  /-- `ubus_handle_data` is about to read the next message. -/
  | handleData
  /-- The handler called by `ubus_process_obj_msg`. -/
  | objCallback
  /-- A callback of `ubus_process_req_msg`. -/
  | reqCallback
  /-- The loop of `ubus_complete_request`, with its local `registered`. -/
  | completeRequest (registered : Bool)
  /-- `complete_cb`, called by `ubus_complete_request` behind its loop. -/
  | completeCallback (registered : Bool)
  /-- The loop of `ubus_process_pending_msg`. -/
  | processPending
  deriving DecidableEq, Repr

/-- The part of `struct ubus_context` that decides the order of object
messages.  `received` and `dispatched` record what came from ubusd and what was
passed to `ubus_process_obj_msg`. -/
structure DispatchContext where
  stackDepth : Nat
  sockRegistered : Bool
  pendingTimer : Bool
  pending : List Message
  frames : List CallFrame
  received : List Message
  dispatched : List Message
  deriving DecidableEq, Repr

inductive DispatchAction where
  /-- `ubus_add_uloop`. -/
  | addUloop
  /-- `ubus_handle_data` is called. -/
  | handleData
  /-- `get_next_msg` delivers a message. -/
  | receive (message : { message : Message // message.WellFormed })
  /-- `ubus_complete_request` is called. -/
  | completeRequest
  /-- The status of the request has arrived or its timeout is over. -/
  | requestDone
  /-- The pending timer expires in `uloop_run`. -/
  | timerExpired
  /-- One trip through the loop of `ubus_process_pending_msg`. -/
  | processPending
  /-- The innermost callback or `ubus_handle_data` returns. -/
  | returns
  deriving DecidableEq

/-- `buf->hdr.type`. -/
def msgType (message : Message) : Option UInt8 := message.hdr[1]?

/-- The second group of cases in `ubus_process_msg`. -/
def isObjMsg (message : Message) : Bool :=
  msgType message = some UbusMsgType.invoke.code ||
    msgType message = some UbusMsgType.unsubscribe.code ||
    msgType message = some UbusMsgType.notify.code

/-- The first group of cases in `ubus_process_msg`. -/
def isReqMsg (message : Message) : Bool :=
  msgType message = some UbusMsgType.status.code ||
    msgType message = some UbusMsgType.data.code

/-- Application code is running. -/
def appRuns : List CallFrame → Bool
  | [] | .objCallback :: _ | .reqCallback :: _ | .completeCallback _ :: _ =>
      true
  | .handleData :: _ | .completeRequest _ :: _ | .processPending :: _ =>
      false

namespace DispatchContext

def call (ctx : DispatchContext) (frame : CallFrame) : DispatchContext :=
  { ctx with frames := frame :: ctx.frames }

/-- `ubus_queue_msg`; the copy has `blob_raw_len` bytes of the attribute. -/
def ubusQueueMsg (ctx : DispatchContext) (message : Message) :
    DispatchContext :=
  let copy : Message :=
    ⟨message.hdr, message.data.take (blobRawLen message.data).toNat⟩
  { ctx with
    pending := listAdd copy ctx.pending
    pendingTimer := ctx.sockRegistered || ctx.pendingTimer }

/-- `ubus_process_msg`. -/
def ubusProcessMsg (ctx : DispatchContext) (message : Message) :
    DispatchContext :=
  if isReqMsg message then ctx.call .reqCallback
  else if isObjMsg message then
    if ctx.stackDepth ≠ 0 then ctx.ubusQueueMsg message
    else
      { ctx with dispatched := ctx.dispatched ++ [message] }.call .objCallback
  else ctx

/-- The end of `ubus_complete_request` behind `complete_cb`. -/
def completeRequestReturn (ctx : DispatchContext) (registered : Bool)
    (outer : List CallFrame) : DispatchContext :=
  if registered then { ctx with frames := outer }
  else if ctx.stackDepth = 0 then
    { ctx with
      sockRegistered := false
      frames := .processPending :: outer }
  else { ctx with sockRegistered := false, frames := outer }

def step (ctx : DispatchContext) : DispatchAction → Option DispatchContext
  | .addUloop =>
      if appRuns ctx.frames then some { ctx with sockRegistered := true }
      else none
  | .handleData =>
      match ctx.frames with
      | .completeRequest _ :: _ => some (ctx.call .handleData)
      | frames => if appRuns frames then some (ctx.call .handleData) else none
  | .receive message =>
      match ctx.frames with
      | .handleData :: _ =>
          let received :=
            if isObjMsg message.val then ctx.received ++ [message.val]
            else ctx.received
          some ({ ctx with received := received }.ubusProcessMsg message.val)
      | _ => none
  | .completeRequest =>
      if appRuns ctx.frames then
        some
          { ctx with
            sockRegistered := true
            stackDepth := ctx.stackDepth + 1
            frames := .completeRequest ctx.sockRegistered :: ctx.frames }
      else none
  | .requestDone =>
      match ctx.frames with
      | .completeRequest registered :: outer =>
          some
            { ctx with
              stackDepth := ctx.stackDepth - 1
              frames := .completeCallback registered :: outer }
      | _ => none
  | .timerExpired =>
      if ctx.pendingTimer && appRuns ctx.frames then
        some ({ ctx with pendingTimer := false }.call .processPending)
      else none
  | .processPending =>
      match ctx.frames with
      | .processPending :: outer =>
          if ctx.stackDepth ≠ 0 then some { ctx with frames := outer }
          else
            match ctx.pending with
            | [] => some { ctx with frames := outer }
            | message :: pending =>
                some ({ ctx with pending := pending }.ubusProcessMsg message)
      | _ => none
  | .returns =>
      match ctx.frames with
      | .completeCallback registered :: outer =>
          some (ctx.completeRequestReturn registered outer)
      | .handleData :: outer | .objCallback :: outer
      | .reqCallback :: outer =>
          some { ctx with frames := outer }
      | _ => none

end DispatchContext

/-- A context right after `ubus_connect`. -/
def dispatcher : Machine DispatchContext DispatchAction where
  init := ⟨0, false, false, [], [], [], []⟩
  step := DispatchContext.step

/-- The trips of `ubus_process_pending_msg` over `count` entries whose handlers
return at once. -/
def drainPending : Nat → List DispatchAction
  | 0 => [.processPending]
  | count + 1 => .processPending :: .returns :: drainPending count

/-- The object messages were dispatched in the order of their arrival and each
once; the ones still missing are those in `pending`, and when no call is active
the timer dispatches them. -/
def Delivered (ctx : DispatchContext) : Prop :=
  ctx.received = ctx.dispatched ++ ctx.pending ∧
    (ctx.frames = [] → ctx.pending ≠ [] →
      ∃ final,
        dispatcher.runFrom ctx
            (.timerExpired :: drainPending ctx.pending.length) = some final ∧
          final.pending = [] ∧ final.dispatched = ctx.received)

/-- Object messages arrive only while `pending` is empty, and the timer of a
message in `pending` does not expire inside a synchronous request. -/
def DispatchPermitted (ctx : DispatchContext) : DispatchAction → Prop
  | .receive message => isObjMsg message.val = true → ctx.pending = []
  | .timerExpired => ctx.pending ≠ [] → ctx.stackDepth = 0
  | _ => True

/-! ## The invariant -/

/-- How many active calls are inside the loop of `ubus_complete_request`. -/
def waitingRequests : List CallFrame → Nat
  | [] => 0
  | .completeRequest _ :: outer => waitingRequests outer + 1
  | _ :: outer => waitingRequests outer

/-- A request that registered the socket was the outermost one. -/
def RegisteredOutermost : List CallFrame → Prop
  | [] => True
  | .completeRequest false :: outer | .completeCallback false :: outer =>
      waitingRequests outer = 0 ∧ RegisteredOutermost outer
  | _ :: outer => RegisteredOutermost outer

/-- A loop of `ubus_process_pending_msg` is active that no request outside of it
stops. -/
def DrainActive : List CallFrame → Prop
  | [] => False
  | .processPending :: outer => waitingRequests outer = 0 ∨ DrainActive outer
  | _ :: outer => DrainActive outer

structure DispatchInv (ctx : DispatchContext) : Prop where
  depth : ctx.stackDepth = waitingRequests ctx.frames
  registered : ctx.stackDepth ≠ 0 → ctx.sockRegistered = true
  outermost : RegisteredOutermost ctx.frames
  order : ctx.received = ctx.dispatched ++ ctx.pending
  pending : ∀ message ∈ ctx.pending, isObjMsg message = true
  drain : ctx.pending ≠ [] → ctx.pendingTimer = true ∨ DrainActive ctx.frames

theorem isReqMsg_of_isObjMsg
    {message : Message} (object : isObjMsg message = true) :
    isReqMsg message = false := by
  simp only [isObjMsg, Bool.or_eq_true, decide_eq_true_eq] at object
  rw [isReqMsg]
  rcases object with (typeEq | typeEq) | typeEq <;> rw [typeEq] <;> decide

/-- The copy made by `ubus_queue_msg` is the message. -/
theorem copy_of_wellFormed
    {message : Message} (formed : message.WellFormed) :
    (⟨message.hdr, message.data.take (blobRawLen message.data).toNat⟩ :
      Message) = message := by
  rw [← formed.dataLength, List.take_length]

theorem ubusProcessMsg_of_idle
    {ctx : DispatchContext} {message : Message}
    (object : isObjMsg message = true) (idle : ctx.stackDepth = 0) :
    ctx.ubusProcessMsg message =
      { ctx with
        dispatched := ctx.dispatched ++ [message]
        frames := .objCallback :: ctx.frames } := by
  rw [DispatchContext.ubusProcessMsg, isReqMsg_of_isObjMsg object,
    if_neg Bool.false_ne_true, if_pos object, if_neg (not_not.mpr idle)]
  rfl

theorem ubusProcessMsg_of_waiting
    {ctx : DispatchContext} {message : Message}
    (object : isObjMsg message = true) (formed : message.WellFormed)
    (waiting : ctx.stackDepth ≠ 0) :
    ctx.ubusProcessMsg message =
      { ctx with
        pending := listAdd message ctx.pending
        pendingTimer := ctx.sockRegistered || ctx.pendingTimer } := by
  rw [DispatchContext.ubusProcessMsg, isReqMsg_of_isObjMsg object,
    if_neg Bool.false_ne_true, if_pos object, if_pos waiting,
    DispatchContext.ubusQueueMsg, copy_of_wellFormed formed]

/-- Other messages start at most a callback of a request. -/
theorem ubusProcessMsg_of_other
    {ctx : DispatchContext} {message : Message}
    (other : isObjMsg message ≠ true) :
    ctx.ubusProcessMsg message = ctx ∨
      ctx.ubusProcessMsg message = ctx.call .reqCallback := by
  rw [DispatchContext.ubusProcessMsg]
  rw [if_neg other]
  split
  · exact Or.inr rfl
  · exact Or.inl rfl

/-! ## Every step keeps the invariant -/

section Steps

variable {ctx : DispatchContext}

/-- Only the stack of calls changes. -/
theorem DispatchInv.withFrames
    (inv : DispatchInv ctx) {frames : List CallFrame}
    (waiting : waitingRequests frames = waitingRequests ctx.frames)
    (outermost : RegisteredOutermost frames)
    (drain : DrainActive ctx.frames → DrainActive frames) :
    DispatchInv { ctx with frames := frames } :=
  { depth := inv.depth.trans waiting.symm
    registered := inv.registered
    outermost := outermost
    order := inv.order
    pending := inv.pending
    drain := fun nonempty => (inv.drain nonempty).imp_right drain }

/-- A call that is no request starts. -/
theorem DispatchInv.call
    (inv : DispatchInv ctx) {frame : CallFrame}
    (plain : frame = .handleData ∨ frame = .objCallback ∨
      frame = .reqCallback ∨ frame = .processPending) :
    DispatchInv (ctx.call frame) := by
  rcases plain with rfl | rfl | rfl | rfl
  · exact inv.withFrames rfl inv.outermost id
  · exact inv.withFrames rfl inv.outermost id
  · exact inv.withFrames rfl inv.outermost id
  · exact inv.withFrames rfl inv.outermost Or.inr

/-- A callback or `ubus_handle_data` returns. -/
theorem DispatchInv.leave
    (inv : DispatchInv ctx) {frame : CallFrame} {outer : List CallFrame}
    (framesEq : ctx.frames = frame :: outer)
    (plain : frame = .handleData ∨ frame = .objCallback ∨
      frame = .reqCallback) :
    DispatchInv { ctx with frames := outer } := by
  have outermost := inv.outermost
  rw [framesEq] at outermost
  rcases plain with rfl | rfl | rfl <;>
    exact inv.withFrames (by rw [framesEq]; rfl) outermost
      (by rw [framesEq]; exact id)

theorem DispatchInv.receive
    (inv : DispatchInv ctx)
    (message : { message : Message // message.WellFormed })
    (permitted : DispatchPermitted ctx (.receive message)) :
    DispatchInv
      (DispatchContext.ubusProcessMsg
        { ctx with
          received :=
            if isObjMsg message.val then ctx.received ++ [message.val]
            else ctx.received }
        message.val) := by
  by_cases object : isObjMsg message.val = true
  · rw [if_pos object]
    have nothing : ctx.pending = [] := permitted object
    have order := inv.order
    rw [nothing, List.append_nil] at order
    by_cases idle : ctx.stackDepth = 0
    · rw [ubusProcessMsg_of_idle object]
      · exact
          { depth := inv.depth
            registered := inv.registered
            outermost := inv.outermost
            order := by
              show ctx.received ++ [message.val] =
                ctx.dispatched ++ [message.val] ++ ctx.pending
              rw [nothing, List.append_nil, order]
            pending := inv.pending
            drain := fun nonempty => absurd nothing nonempty }
      · exact idle
    · rw [ubusProcessMsg_of_waiting object message.property]
      · exact
          { depth := inv.depth
            registered := inv.registered
            outermost := inv.outermost
            order := by
              show ctx.received ++ [message.val] =
                ctx.dispatched ++ listAdd message.val ctx.pending
              rw [nothing, listAdd_nil, order]
            pending := fun other member => by
              rw [nothing, listAdd_nil, List.mem_singleton] at member
              rw [member]
              exact object
            drain := fun _ => by
              refine Or.inl ?_
              show (ctx.sockRegistered || ctx.pendingTimer) = true
              rw [inv.registered idle, Bool.true_or] }
      · exact idle
  · rw [if_neg object]
    rcases ubusProcessMsg_of_other object with same | called
    · rw [same]
      exact inv
    · rw [called]
      exact inv.call (Or.inr (Or.inr (Or.inl rfl)))

/-- One trip through the loop of `ubus_process_pending_msg`. -/
theorem DispatchInv.processPending
    (inv : DispatchInv ctx) {next : DispatchContext}
    (taken : ctx.step .processPending = some next) :
    DispatchInv next := by
  rw [DispatchContext.step] at taken
  split at taken
  · rename_i outer framesEq
    have depth : ctx.stackDepth = waitingRequests outer := by
      rw [inv.depth, framesEq]
      rfl
    have outermost : RegisteredOutermost outer := by
      have all := inv.outermost
      rwa [framesEq] at all
    split at taken
    · rename_i waiting
      rw [Option.some.injEq] at taken
      subst taken
      apply inv.withFrames
      · rw [framesEq]
        rfl
      · exact outermost
      · intro active
        rw [framesEq] at active
        refine active.resolve_left fun none => ?_
        rw [none] at depth
        exact waiting depth
    · rename_i notWaiting
      have idle : ctx.stackDepth = 0 := not_not.mp notWaiting
      split at taken
      · rename_i nothing
        rw [Option.some.injEq] at taken
        subst taken
        exact
          { depth := depth
            registered := inv.registered
            outermost := outermost
            order := inv.order
            pending := inv.pending
            drain := fun nonempty => absurd nothing nonempty }
      · rename_i message pending pendingEq
        rw [Option.some.injEq] at taken
        subst taken
        have objects := inv.pending
        rw [pendingEq, List.forall_mem_cons] at objects
        rw [ubusProcessMsg_of_idle objects.1]
        · exact
            { depth := inv.depth
              registered := inv.registered
              outermost := inv.outermost
              order := by
                show ctx.received = ctx.dispatched ++ [message] ++ pending
                rw [inv.order, pendingEq, List.append_assoc,
                  List.singleton_append]
              pending := objects.2
              drain := fun _ => by
                refine Or.inr ?_
                show DrainActive (.objCallback :: ctx.frames)
                rw [framesEq]
                exact Or.inl (depth.symm.trans idle) }
        · exact idle
  · cases taken

theorem DispatchInv.completeRequestReturn
    (inv : DispatchInv ctx) {registered : Bool} {outer : List CallFrame}
    (framesEq : ctx.frames = .completeCallback registered :: outer) :
    DispatchInv (ctx.completeRequestReturn registered outer) := by
  have depth := inv.depth
  have outermost := inv.outermost
  have drain := inv.drain
  rw [framesEq] at depth outermost drain
  cases registered with
  | true =>
      rw [DispatchContext.completeRequestReturn, if_pos rfl]
      exact
        { depth := depth
          registered := inv.registered
          outermost := outermost
          order := inv.order
          pending := inv.pending
          drain := drain }
  | false =>
      obtain ⟨noneOutside, outermost⟩ := outermost
      have idle : ctx.stackDepth = 0 := depth.trans noneOutside
      rw [DispatchContext.completeRequestReturn, if_neg Bool.false_ne_true,
        if_pos idle]
      exact
        { depth := depth
          registered := fun waiting => absurd idle waiting
          outermost := outermost
          order := inv.order
          pending := inv.pending
          drain := fun _ => Or.inr (Or.inl noneOutside) }

/-- Every permitted step keeps the invariant. -/
theorem DispatchInv.step
    (inv : DispatchInv ctx) {action : DispatchAction}
    {next : DispatchContext}
    (permitted : DispatchPermitted ctx action)
    (taken : ctx.step action = some next) :
    DispatchInv next := by
  cases action with
  | addUloop =>
      rw [DispatchContext.step] at taken
      split at taken
      · rw [Option.some.injEq] at taken
        subst taken
        exact { inv with registered := fun _ => rfl }
      · cases taken
  | handleData =>
      rw [DispatchContext.step] at taken
      split at taken
      · rw [Option.some.injEq] at taken
        subst taken
        exact inv.call (Or.inl rfl)
      · split at taken
        · rw [Option.some.injEq] at taken
          subst taken
          exact inv.call (Or.inl rfl)
        · cases taken
  | receive message =>
      rw [DispatchContext.step] at taken
      split at taken
      · rw [Option.some.injEq] at taken
        subst taken
        exact inv.receive message permitted
      · cases taken
  | completeRequest =>
      rw [DispatchContext.step] at taken
      split at taken
      · rw [Option.some.injEq] at taken
        subst taken
        refine
          { depth := by
              show ctx.stackDepth + 1 = waitingRequests ctx.frames + 1
              rw [inv.depth]
            registered := fun _ => rfl
            outermost := ?_
            order := inv.order
            pending := inv.pending
            drain := inv.drain }
        show RegisteredOutermost
          (.completeRequest ctx.sockRegistered :: ctx.frames)
        cases registered : ctx.sockRegistered with
        | true =>
            exact inv.outermost
        | false =>
            refine ⟨?_, inv.outermost⟩
            rw [← inv.depth]
            by_contra waiting
            rw [inv.registered waiting] at registered
            cases registered
      · cases taken
  | requestDone =>
      rw [DispatchContext.step] at taken
      split at taken
      · rename_i registered outer framesEq
        rw [Option.some.injEq] at taken
        subst taken
        have depth := inv.depth
        have outermost := inv.outermost
        have drain := inv.drain
        rw [framesEq] at depth outermost drain
        rw [waitingRequests] at depth
        exact
          { depth := by
              show ctx.stackDepth - 1 = waitingRequests outer
              omega
            registered := fun _ => inv.registered (by omega)
            outermost := by
              cases registered with
              | true => exact outermost
              | false => exact outermost
            order := inv.order
            pending := inv.pending
            drain := drain }
      · cases taken
  | timerExpired =>
      rw [DispatchContext.step] at taken
      split at taken
      · rw [Option.some.injEq] at taken
        subst taken
        exact
          { depth := inv.depth
            registered := inv.registered
            outermost := inv.outermost
            order := inv.order
            pending := inv.pending
            drain := fun nonempty =>
              Or.inr (Or.inl (inv.depth.symm.trans (permitted nonempty))) }
      · cases taken
  | processPending =>
      exact inv.processPending taken
  | returns =>
      rw [DispatchContext.step] at taken
      split at taken
      · rename_i registered outer framesEq
        rw [Option.some.injEq] at taken
        subst taken
        exact inv.completeRequestReturn framesEq
      · rename_i outer framesEq
        rw [Option.some.injEq] at taken
        subst taken
        exact inv.leave framesEq (Or.inl rfl)
      · rename_i outer framesEq
        rw [Option.some.injEq] at taken
        subst taken
        exact inv.leave framesEq (Or.inr (Or.inl rfl))
      · rename_i outer framesEq
        rw [Option.some.injEq] at taken
        subst taken
        exact inv.leave framesEq (Or.inr (Or.inr rfl))
      · cases taken

end Steps

/-! ## Whole runs -/

/-- The trips over `pending` dispatch its messages in their order. -/
theorem runFrom_drainPending
    (outer : List CallFrame) :
    ∀ (queue : List Message) (ctx : DispatchContext),
      (∀ message ∈ queue, isObjMsg message = true) →
      ctx.stackDepth = 0 → ctx.pending = queue →
      ctx.frames = .processPending :: outer →
      dispatcher.runFrom ctx (drainPending queue.length) =
        some
          { ctx with
            pending := []
            dispatched := ctx.dispatched ++ queue
            frames := outer }
  | [], ctx, _, idle, pendingEq, framesEq => by
      simp [drainPending, Machine.runFrom, dispatcher, DispatchContext.step,
        framesEq, idle, pendingEq]
  | message :: rest, ctx, objects, idle, pendingEq, framesEq => by
      obtain ⟨object, others⟩ := List.forall_mem_cons.mp objects
      have dispatchStep :
          ctx.step .processPending =
            some
              { ctx with
                pending := rest
                dispatched := ctx.dispatched ++ [message]
                frames := .objCallback :: ctx.frames } := by
        simp only [DispatchContext.step, framesEq, idle, pendingEq, ne_eq,
          not_true_eq_false, if_false]
        rw [ubusProcessMsg_of_idle object rfl]
      have continued :=
        runFrom_drainPending outer rest
          { ctx with
            pending := rest
            dispatched := ctx.dispatched ++ [message] }
          others idle rfl framesEq
      rw [List.length_cons, drainPending]
      refine Machine.runFrom_cons_eq_some.mpr ⟨_, dispatchStep, ?_⟩
      refine Machine.runFrom_cons_eq_some.mpr ⟨_, rfl, ?_⟩
      rw [continued, List.append_assoc, List.singleton_append]

theorem DispatchInv.delivered
    {ctx : DispatchContext} (inv : DispatchInv ctx) : Delivered ctx := by
  refine ⟨inv.order, fun noCall nonempty => ?_⟩
  have armed : ctx.pendingTimer = true := by
    refine (inv.drain nonempty).resolve_right fun active => ?_
    rw [noCall] at active
    exact active
  have idle : ctx.stackDepth = 0 := by
    rw [inv.depth, noCall]
    rfl
  have expired :
      ctx.step .timerExpired =
        some ({ ctx with pendingTimer := false }.call .processPending) := by
    rw [DispatchContext.step, armed, noCall]
    rfl
  have drained :=
    runFrom_drainPending ctx.frames ctx.pending
      ({ ctx with pendingTimer := false }.call .processPending)
      inv.pending idle rfl rfl
  exact ⟨_, Machine.runFrom_cons_eq_some.mpr ⟨_, expired, drained⟩, rfl,
    inv.order.symm⟩

/-- In a run in which object messages arrive only while `pending` is empty they
are dispatched in the order of their arrival. -/
theorem ubusProcessMsg_delivered
    {actions : List DispatchAction} {ctx : DispatchContext}
    (permitted :
      dispatcher.Meets DispatchPermitted dispatcher.init actions)
    (reached : dispatcher.run actions = some ctx) :
    Delivered ctx := by
  have initially : DispatchInv dispatcher.init :=
    { depth := rfl
      registered := fun waiting => absurd rfl waiting
      outermost := trivial
      order := rfl
      pending := fun _ member => nomatch member
      drain := fun nonempty => absurd rfl nonempty }
  have inv : DispatchInv ctx :=
    Machine.invariant_of_permitted initially
      (fun _ _ _ holds stepPermitted taken =>
        holds.step stepPermitted taken)
      permitted reached
  exact inv.delivered

/-- Two notifications and the status that ends a synchronous request. -/
def firstNotify : { message : Message // message.WellFormed } :=
  ⟨⟨[0, 10, 0, 1, 0, 0, 0, 1], [0, 0, 0, 4]⟩, by decide⟩

def secondNotify : { message : Message // message.WellFormed } :=
  ⟨⟨[0, 10, 0, 2, 0, 0, 0, 1], [0, 0, 0, 4]⟩, by decide⟩

def requestStatus : { message : Message // message.WellFormed } :=
  ⟨⟨[0, 1, 0, 1, 0, 0, 0, 1], [0, 0, 0, 4]⟩, by decide⟩

/-- One notification arrives during a synchronous request. -/
def oneDuringRequest : List DispatchAction :=
  [.completeRequest, .handleData, .receive firstNotify,
    .receive requestStatus, .returns, .returns, .requestDone, .returns]

theorem ubusProcessMsg_delivered_one :
    Delivered
      ⟨0, false, true, [firstNotify.val], [.processPending],
        [firstNotify.val], []⟩ := by
  apply @ubusProcessMsg_delivered oneDuringRequest
  · apply Machine.Meets.cons trivial rfl
    apply Machine.Meets.cons trivial rfl
    apply Machine.Meets.cons (fun _ => rfl) rfl
    apply Machine.Meets.cons
    · exact fun object => absurd object (by decide)
    · rfl
    · apply Machine.Meets.cons trivial rfl
      apply Machine.Meets.cons trivial rfl
      apply Machine.Meets.cons trivial rfl
      apply Machine.Meets.cons trivial rfl
      exact trivial
  · rfl

/-- Two notifications arrive during a synchronous request; `list_add` puts the
second one in front and the loop of `ubus_process_pending_msg` takes it
first. -/
theorem ubusProcessMsg_reverses :
    ∃ ctx,
      dispatcher.run
          [.completeRequest, .handleData, .receive firstNotify,
            .receive secondNotify, .receive requestStatus, .returns, .returns,
            .requestDone, .returns, .processPending] = some ctx ∧
        ctx.received = [firstNotify.val, secondNotify.val] ∧
        ctx.dispatched = [secondNotify.val] ∧ ¬ Delivered ctx := by
  refine ⟨_, rfl, rfl, rfl, ?_⟩
  rintro ⟨order, _⟩
  revert order
  decide

end LibubusJni.Libubus
