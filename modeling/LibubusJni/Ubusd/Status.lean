import LibubusJni.Ubusd.Flow
import LibubusJni.Ubusd.Policy

/-!
# Status messages: `ubusd_proto_receive_message`

The static buffer `retmsg` is rewritten for every request: its `seq` and `peer`
before the handler runs, its return code after it.  A handler is any sequence of
operations on other message buffers; it does not return to the event loop, so
no socket is polled while a request is served.
-/

namespace LibubusJni.Ubusd

open LibubusJni.Lib

/-- `UBUS_STATUS_INVALID_COMMAND`. -/
def ubusStatusInvalidCommand : UInt32 := 1

/-- The data of `retmsg`: `UBUS_ATTR_STATUS` inside of the outer attribute. -/
def statusData (ret : UInt32) : List UInt8 :=
  be32Bytes 12 ++ be32Bytes 0x01000008 ++ be32Bytes ret

/-- The status message for a request. -/
def statusImage (seq : UInt16) (peer ret : UInt32) : List UInt8 :=
  (⟨0, UbusMsgType.status.code, seq, peer⟩ : UbusMsghdr).bytes ++
    statusData ret

/-- The address of `retmsg`, the first buffer made. -/
def retmsg : MsgId := 0

namespace MsgStore

/-- `retmsg->hdr.seq = ub->hdr.seq; retmsg->hdr.peer = ub->hdr.peer;` -/
def setRetmsgHdr (store : MsgStore) (hdr : UbusMsghdr) : MsgStore :=
  let ub := store.heap retmsg
  store.write retmsg
    { ub with hdr := { ub.hdr with seq := hdr.seq, peer := hdr.peer } }

/-- `*retmsg_data = htonl(ret);` -/
def setRetmsgData (store : MsgStore) (ret : UInt32) : MsgStore :=
  let ub := store.heap retmsg
  store.write retmsg { ub with data := ub.data.take 8 ++ be32Bytes ret }

end MsgStore

/-- A request whose handler is running. -/
structure Request where
  client : Nat
  hdr : UbusMsghdr
  ub : MsgId
  deriving DecidableEq, Repr

/-- ubusd with the request it serves.  `owed` lists for every client the status
messages of its requests that were not dropped because its queue was full. -/
structure Proto where
  daemon : Daemon
  serving : Option Request
  owed : Nat → List (List UInt8)

inductive ProtoAction where
  /-- What happens outside of `ubusd_proto_receive_message`, and what a handler
  does with message buffers. -/
  | transmit (action : TransmitAction)
  /-- `ubusd_proto_receive_message` is called for a message of a client. -/
  | receive (client : Nat) (hdr : UbusMsghdr) (data : List UInt8)
  /-- The handler returns `ret`; the rest is the outcome of sending the
  status. -/
  | finish (ret : UInt32) (result : WriteResult) (alloc : Bool)
  deriving DecidableEq, Repr

/-- The buffer an effect works on. -/
def MsgEffect.subject : MsgEffect → Option MsgId
  | .create _ _ _ => none
  | .send _ id _ _ _ | .release id => some id

namespace Request

/-- `ret` behind the call of the handler. -/
def returned (request : Request) (ret : UInt32) : UInt32 :=
  if hasHandler request.hdr.type then ret else ubusStatusInvalidCommand

end Request

/-- Other code never sees `retmsg`, a request without a handler has no effects,
and sockets are polled between requests. -/
def transmitAllowed (serving : Option Request) : TransmitAction → Bool
  | .effect effect =>
      effect.subject ≠ some retmsg &&
        serving.all fun request => hasHandler request.hdr.type
  | .accept | .writable _ _ | .disconnect _ => serving.isNone

namespace Proto

def transmit (state : Proto) (action : TransmitAction) : Option Proto :=
  if transmitAllowed state.serving action then
    match state.daemon.step action with
    | some daemon => some { state with daemon := daemon }
    | none => none
  else none

/-- `ubusd_proto_receive_message` up to the call of the handler. -/
def receive (state : Proto) (client : Nat) (hdr : UbusMsghdr)
    (data : List UInt8) : Option Proto :=
  let ub := state.daemon.store.next
  match state.serving, state.daemon.clients[client]? with
  | none, some cl =>
      if cl.connected then
        some
          { state with
            daemon :=
              { state.daemon with
                store :=
                  (state.daemon.store.ubusMsgNew hdr data false).setRetmsgHdr
                    hdr
                held := Function.update state.daemon.held ub 1 }
            serving := some ⟨client, hdr, ub⟩ }
      else none
  | _, _ => none

/-- `ubusd_proto_receive_message` behind the call of the handler. -/
def finish (state : Proto) (ret : UInt32) (result : WriteResult)
    (alloc : Bool) : Option Proto :=
  match state.serving with
  | none => none
  | some request =>
      let ret := request.returned ret
      -- `if (ret == -1) return;`
      if ret = 0xffffffff then some { state with serving := none }
      else
        match state.daemon.release request.ub with
        | none => none
        | some daemon =>
            let daemon :=
              { daemon with store := daemon.store.setRetmsgData ret }
            match daemon.send request.client retmsg result alloc true with
            | none => none
            | some sent =>
                let full :=
                  daemon.clients[request.client]?.any fun cl =>
                    cl.txQueue.full
                let status :=
                  statusImage request.hdr.seq request.hdr.peer ret
                some
                  { daemon := sent
                    serving := none
                    owed :=
                      if full then state.owed
                      else
                        Function.update state.owed request.client
                          (state.owed request.client ++ [status]) }

def step (state : Proto) : ProtoAction → Option Proto
  | .transmit action => state.transmit action
  | .receive client hdr data => state.receive client hdr data
  | .finish ret result alloc => state.finish ret result alloc

end Proto

/-- ubusd behind `ubusd_proto_init`. -/
def proto : Machine Proto ProtoAction where
  init :=
    { daemon :=
        { store :=
            MsgStore.empty.ubusMsgNew ⟨0, UbusMsgType.status.code, 0, 0⟩
              (statusData 0) false
          held := Function.update (fun _ => 0) retmsg 1
          clients := [] }
      serving := none
      owed := fun _ => [] }
  step := Proto.step

/-- Cut the stream of a client at the lengths of the messages sent to it and
keep the parts that stand for status messages. -/
def statusFrames : List SentMsg → List UInt8 → List (List UInt8)
  | [], _ => []
  | message :: rest, bytes =>
      let later := statusFrames rest (bytes.drop message.image.length)
      if message.status then bytes.take message.image.length :: later
      else later

/-- For every connected client, the status messages on its socket and in its
queue are those of its own requests. -/
def StatusesArrive (state : Proto) : Prop :=
  ∀ (client : Nat) (cl : UbusClient),
    state.daemon.clients[client]? = some cl → cl.connected = true →
      statusFrames cl.sent
          (cl.socket ++ unsent state.daemon.store.image cl) =
        state.owed client

/-- Rewriting `retmsg` leaves the bytes that some queue still has to write, the
status is not lost by a direct write that fails, and copies of other messages
can be allocated. -/
def ProtoPermitted (state : Proto) : ProtoAction → Prop
  | .transmit (.effect effect) =>
      EffectPermitted (fun message => message.status = true) state.daemon
        effect
  | .transmit _ => True
  | .receive _ hdr _ =>
      ∀ cl ∈ state.daemon.clients,
        unsent (state.daemon.store.setRetmsgHdr hdr).image cl =
          unsent state.daemon.store.image cl
  | .finish ret result _ =>
      ∀ request, state.serving = some request →
        request.returned ret ≠ 0xffffffff →
          (∀ cl ∈ state.daemon.clients,
            unsent
                (state.daemon.store.setRetmsgData
                  (request.returned ret)).image cl =
              unsent state.daemon.store.image cl) ∧
          ∀ cl, state.daemon.clients[request.client]? = some cl →
            cl.txQueue.head = none → ∃ count, result = .wrote count

/-! ## Which messages are sent -/

/-- The status messages sent to a client. -/
def statuses (sent : List SentMsg) : List (List UInt8) :=
  (sent.filter fun message => message.status).map SentMsg.image

theorem statuses_snoc_other (sent : List SentMsg) (image : List UInt8) :
    statuses (sent ++ [⟨image, false⟩]) = statuses sent := by
  simp [statuses]

theorem statuses_snoc_status (sent : List SentMsg) (image : List UInt8) :
    statuses (sent ++ [⟨image, true⟩]) = statuses sent ++ [image] := by
  simp [statuses]

/-- If status messages are strict, cutting the frames gives them back. -/
theorem statusFrames_flatten
    {sent : List SentMsg} {frames : List (List UInt8)}
    (carried : List.Forall₂ (Carries fun message => message.status = true)
      sent frames) :
    statusFrames sent frames.flatten = statuses sent := by
  induction carried with
  | nil =>
      rfl
  | @cons message frame sent frames carries _ inductionHypothesis =>
      obtain ⟨lengthEq, exact⟩ := carries
      rw [statusFrames, List.flatten_cons, ← lengthEq, List.drop_left,
        List.take_left, inductionHypothesis]
      cases isStatus : message.status with
      | true =>
          rw [exact isStatus]
          simp [statuses, isStatus]
      | false =>
          simp [statuses, isStatus]

section Sent

variable {store : MsgStore} {cl : UbusClient}

theorem ubusMsgEnqueue_sent (id : MsgId) (alloc status : Bool) :
    (ubusMsgEnqueue store cl id alloc status).2.sent =
      if cl.txQueue.full then cl.sent
      else cl.sent ++ [⟨store.image id, status⟩] := by
  rw [ubusMsgEnqueue]
  split <;> rfl

/-- `ubus_msg_send` sends the message or drops it. -/
theorem ubusMsgSend_sent
    (id : MsgId) (result : WriteResult) (alloc status : Bool) :
    (ubusMsgSend store cl id result alloc status).2.sent = cl.sent ∨
      (ubusMsgSend store cl id result alloc status).2.sent =
        cl.sent ++ [⟨store.image id, status⟩] := by
  rw [ubusMsgSend]
  split
  · rw [ubusMsgEnqueue_sent]
    split
    · exact Or.inl rfl
    · exact Or.inr rfl
  · dsimp only
    split
    · split
      · exact Or.inr rfl
      · exact Or.inl rfl
    · rw [ubusMsgEnqueue_sent]
      split
      · exact Or.inl rfl
      · exact Or.inr rfl

/-- A full queue drops the message. -/
theorem ubusMsgSend_sent_of_full
    (id : MsgId) (result : WriteResult) (alloc status : Bool)
    (waiting : cl.txQueue.head ≠ none) (full : cl.txQueue.full = true) :
    (ubusMsgSend store cl id result alloc status).2.sent = cl.sent := by
  rw [ubusMsgSend]
  split
  · rw [ubusMsgEnqueue_sent, if_pos full]
  · rename_i idle
    exact absurd idle waiting

/-- Otherwise a message is dropped only by a direct write that fails. -/
theorem ubusMsgSend_sent_of_room
    (id : MsgId) (result : WriteResult) (alloc status : Bool)
    (room : cl.txQueue.full = false)
    (written : cl.txQueue.head = none → ∃ count, result = .wrote count) :
    (ubusMsgSend store cl id result alloc status).2.sent =
      cl.sent ++ [⟨store.image id, status⟩] := by
  rw [ubusMsgSend]
  split
  · rw [ubusMsgEnqueue_sent, room]
    rfl
  · rename_i idle
    obtain ⟨count, rfl⟩ := written idle
    dsimp only
    split
    · rfl
    · rw [ubusMsgEnqueue_sent]
      dsimp only
      rw [room]
      rfl

theorem ubusMsgDequeue_sent :
    (ubusMsgDequeue store cl).2.sent = cl.sent := by
  rw [ubusMsgDequeue]
  split <;> rfl

theorem ubusMsgDequeueAll_sent :
    ∀ (slots : Nat) (store : MsgStore) (cl : UbusClient),
      (ubusMsgDequeueAll slots store cl).2.sent = cl.sent
  | 0, _, _ => rfl
  | slots + 1, store, cl => by
      rw [ubusMsgDequeueAll]
      split
      · rfl
      · rw [ubusMsgDequeueAll_sent slots, ubusMsgDequeue_sent]

theorem handleClientDisconnect_sent :
    (handleClientDisconnect store cl).2.sent = cl.sent :=
  ubusMsgDequeueAll_sent ubusdClientBacklog store cl

theorem clientCbTx_sent :
    ∀ (results : List WriteResult) (store : MsgStore) (cl : UbusClient),
      (clientCbTx results store cl).2.sent = cl.sent
  | [], _, _ => rfl
  | result :: results, store, cl => by
      rw [clientCbTx]
      split
      · rfl
      · dsimp only
        split
        · split
          · exact handleClientDisconnect_sent
          · rfl
        · split
          · rfl
          · rw [clientCbTx_sent results, ubusMsgDequeue_sent]

end Sent

/-- The clients keep their status messages. -/
structure SameStatuses (daemon next : Daemon) : Prop where
  length : next.clients.length = daemon.clients.length
  clients : ∀ (client : Nat) (after : UbusClient),
    next.clients[client]? = some after → after.connected = true →
      ∃ cl, daemon.clients[client]? = some cl ∧ cl.connected = true ∧
        statuses after.sent = statuses cl.sent

section Frames

variable {daemon next : Daemon}

theorem SameStatuses.refl (same : next.clients = daemon.clients) :
    SameStatuses daemon next :=
  { length := by rw [same]
    clients := fun client cl found connected =>
      ⟨cl, by rw [← same]; exact found, connected, rfl⟩ }

theorem SameStatuses.trans {between : Daemon}
    (first : SameStatuses daemon between)
    (second : SameStatuses between next) : SameStatuses daemon next :=
  { length := second.length.trans first.length
    clients := fun client after found connected => by
      obtain ⟨middle, middleFound, middleConnected, sameSecond⟩ :=
        second.clients client after found connected
      obtain ⟨cl, clFound, clConnected, sameFirst⟩ :=
        first.clients client middle middleFound middleConnected
      exact ⟨cl, clFound, clConnected, sameSecond.trans sameFirst⟩ }

theorem Daemon.onClient_eq_some
    {client : Nat}
    {operation : MsgStore → UbusClient → MsgStore × UbusClient}
    (taken : daemon.onClient client operation = some next) :
    ∃ cl, daemon.clients[client]? = some cl ∧ cl.connected = true ∧
      next =
        { daemon with
          store := (operation daemon.store cl).1
          clients :=
            daemon.clients.set client (operation daemon.store cl).2 } := by
  rw [Daemon.onClient] at taken
  split at taken
  · rename_i cl found
    split at taken
    · rename_i connected
      rw [Option.some.injEq] at taken
      exact ⟨cl, found, connected, taken.symm⟩
    · cases taken
  · cases taken

theorem SameStatuses.onClient
    {client : Nat}
    {operation : MsgStore → UbusClient → MsgStore × UbusClient}
    (taken : daemon.onClient client operation = some next)
    (same : ∀ cl, statuses (operation daemon.store cl).2.sent =
      statuses cl.sent) :
    SameStatuses daemon next := by
  obtain ⟨cl, found, connected, rfl⟩ := Daemon.onClient_eq_some taken
  refine
    { length := List.length_set
      clients := fun other after afterFound afterConnected => ?_ }
  change (daemon.clients.set client _)[other]? = some after at afterFound
  rw [List.getElem?_set] at afterFound
  split at afterFound
  · rename_i sameIndex
    split at afterFound
    · rw [Option.some.injEq] at afterFound
      subst afterFound sameIndex
      exact ⟨cl, found, connected, same cl⟩
    · cases afterFound
  · exact ⟨after, afterFound, afterConnected, rfl⟩

theorem SameStatuses.release {id : MsgId}
    (taken : daemon.release id = some next) : SameStatuses daemon next := by
  rw [Daemon.release] at taken
  split at taken
  · rw [Option.some.injEq] at taken
    subst taken
    exact SameStatuses.refl rfl
  · cases taken

theorem SameStatuses.effect {effect : MsgEffect}
    (taken : daemon.effect effect = some next) :
    SameStatuses daemon next := by
  cases effect with
  | create shared hdr data =>
      rw [Daemon.effect, Option.some.injEq] at taken
      subst taken
      exact SameStatuses.refl rfl
  | release id =>
      exact SameStatuses.release taken
  | send client id result alloc free =>
      rw [Daemon.effect] at taken
      split at taken
      · rename_i sentDaemon sent
        have sending : SameStatuses daemon sentDaemon := by
          rw [Daemon.send] at sent
          split at sent
          · refine SameStatuses.onClient sent fun cl => ?_
            rcases @ubusMsgSend_sent daemon.store cl id result alloc false with
              unchanged | longer
            · rw [unchanged]
            · rw [longer, statuses_snoc_other]
          · cases sent
        cases free with
        | false =>
            rw [if_neg Bool.false_ne_true, Option.some.injEq] at taken
            subst taken
            exact sending
        | true =>
            rw [if_pos rfl] at taken
            exact sending.trans (SameStatuses.release taken)
      · cases taken

end Frames

/-! ## Rewriting `retmsg` -/

section Rewriting

variable {strict : SentMsg → Prop} {store : MsgStore}

/-- What lies in `retmsg`. -/
def RetmsgIs (store : MsgStore) (seq : UInt16) (peer ret : UInt32) : Prop :=
  store.view retmsg =
    (false, ⟨0, UbusMsgType.status.code, seq, peer⟩, statusData ret)

theorem RetmsgIs.image
    {seq : UInt16} {peer ret : UInt32}
    (content : RetmsgIs store seq peer ret) :
    store.image retmsg = statusImage seq peer ret := by
  rw [RetmsgIs, MsgStore.view, Prod.mk.injEq, Prod.mk.injEq] at content
  rw [MsgStore.image, UbusMsgBuf.image, content.2.1, content.2.2, statusImage]

theorem RetmsgIs.owned
    {seq : UInt16} {peer ret : UInt32}
    (content : RetmsgIs store seq peer ret) :
    (store.heap retmsg).refcount ≠ .shared := by
  rw [RetmsgIs, MsgStore.view, Prod.mk.injEq] at content
  exact of_decide_eq_false content.1

theorem RetmsgIs.setHdr
    {seq : UInt16} {peer ret : UInt32}
    (content : RetmsgIs store seq peer ret) (hdr : UbusMsghdr) :
    RetmsgIs (store.setRetmsgHdr hdr) hdr.seq hdr.peer ret := by
  rw [RetmsgIs, MsgStore.view, Prod.mk.injEq, Prod.mk.injEq] at content
  rw [RetmsgIs, MsgStore.view, MsgStore.setRetmsgHdr, MsgStore.write_self,
    content.2.1, content.2.2]
  rw [content.1]

theorem RetmsgIs.setData
    {seq : UInt16} {peer before : UInt32}
    (content : RetmsgIs store seq peer before) (ret : UInt32) :
    RetmsgIs (store.setRetmsgData ret) seq peer ret := by
  rw [RetmsgIs, MsgStore.view, Prod.mk.injEq, Prod.mk.injEq] at content
  rw [RetmsgIs, MsgStore.view, MsgStore.setRetmsgData, MsgStore.write_self,
    content.2.1, content.2.2]
  rw [content.1]
  rfl

/-- A buffer may be rewritten when no queue has bytes of it left to write that
change. -/
theorem ClientInv.rewritten
    {content other : MsgId → List UInt8} {cl : UbusClient}
    (inv : ClientInv strict content cl)
    (lengths : ∀ id, (other id).length = (content id).length)
    (same : unsent other cl = unsent content cl) :
    ClientInv strict other cl :=
  { ring := inv.ring
    offset := fun id first => by
      rw [lengths]
      exact inv.offset id first
    frames := by
      rw [same]
      exact inv.frames }

theorem DaemonInv.rewritten
    {daemon : Daemon} (inv : DaemonInv strict daemon) {ub : UbusMsgBuf}
    (refcount : ub.refcount = (daemon.store.heap retmsg).refcount)
    (length : ub.image.length = (daemon.store.image retmsg).length)
    (same : ∀ cl ∈ daemon.clients,
      unsent (daemon.store.write retmsg ub).image cl =
        unsent daemon.store.image cl) :
    DaemonInv strict
      { daemon with store := daemon.store.write retmsg ub } := by
  have refsEq : ∀ id,
      (daemon.store.write retmsg ub).refs id = daemon.store.refs id := by
    intro id
    by_cases isRetmsg : id = retmsg
    · rw [isRetmsg, MsgStore.refs, MsgStore.write_self, refcount]
      rfl
    · rw [MsgStore.refs, MsgStore.write_of_ne _ isRetmsg]
      rfl
  have lengths : ∀ id,
      ((daemon.store.write retmsg ub).image id).length =
        (daemon.store.image id).length := by
    intro id
    by_cases isRetmsg : id = retmsg
    · rw [isRetmsg, MsgStore.image, MsgStore.write_self, length]
    · rw [MsgStore.image, MsgStore.write_of_ne _ isRetmsg]
      rfl
  exact
    { accounted :=
        { refs := fun id => by
            rw [refsEq]
            exact inv.accounted.refs id
          fresh := fun id above => by
            rw [refsEq]
            exact inv.accounted.fresh id above }
      clients := fun cl member =>
        (inv.clients cl member).rewritten lengths (same cl member) }

theorem DaemonInv.setRetmsgHdr
    {daemon : Daemon} (inv : DaemonInv strict daemon) {hdr : UbusMsghdr}
    (same : ∀ cl ∈ daemon.clients,
      unsent (daemon.store.setRetmsgHdr hdr).image cl =
        unsent daemon.store.image cl) :
    DaemonInv strict
      { daemon with store := daemon.store.setRetmsgHdr hdr } := by
  apply inv.rewritten
  · rfl
  · rw [UbusMsgBuf.length_image]
    exact (UbusMsgBuf.length_image _).symm
  · exact same

theorem DaemonInv.setRetmsgData
    {daemon : Daemon} (inv : DaemonInv strict daemon)
    {seq : UInt16} {peer before ret : UInt32}
    (content : RetmsgIs daemon.store seq peer before)
    (same : ∀ cl ∈ daemon.clients,
      unsent (daemon.store.setRetmsgData ret).image cl =
        unsent daemon.store.image cl) :
    DaemonInv strict
      { daemon with store := daemon.store.setRetmsgData ret } := by
  have after := (content.setData ret).image
  rw [MsgStore.image, MsgStore.setRetmsgData, MsgStore.write_self] at after
  apply inv.rewritten
  · rfl
  · rw [after, content.image]
    rfl
  · exact same

theorem image_setRetmsgHdr_congr
    {after : MsgStore} {id : MsgId} (same : after.view id = store.view id)
    (hdr : UbusMsghdr) :
    (after.setRetmsgHdr hdr).image id = (store.setRetmsgHdr hdr).image id := by
  by_cases isRetmsg : id = retmsg
  · subst isRetmsg
    rw [MsgStore.view, MsgStore.view, Prod.mk.injEq, Prod.mk.injEq] at same
    rw [MsgStore.image, MsgStore.image, MsgStore.setRetmsgHdr,
      MsgStore.setRetmsgHdr, MsgStore.write_self, MsgStore.write_self,
      UbusMsgBuf.image, UbusMsgBuf.image, same.2.1, same.2.2]
  · rw [MsgStore.image, MsgStore.image, MsgStore.setRetmsgHdr,
      MsgStore.setRetmsgHdr, MsgStore.write_of_ne _ isRetmsg,
      MsgStore.write_of_ne _ isRetmsg]
    exact MsgStore.image_of_view same

theorem image_setRetmsgData_congr
    {after : MsgStore} {id : MsgId} (same : after.view id = store.view id)
    (ret : UInt32) :
    (after.setRetmsgData ret).image id =
      (store.setRetmsgData ret).image id := by
  by_cases isRetmsg : id = retmsg
  · subst isRetmsg
    rw [MsgStore.view, MsgStore.view, Prod.mk.injEq, Prod.mk.injEq] at same
    rw [MsgStore.image, MsgStore.image, MsgStore.setRetmsgData,
      MsgStore.setRetmsgData, MsgStore.write_self, MsgStore.write_self,
      UbusMsgBuf.image, UbusMsgBuf.image, same.2.1, same.2.2]
  · rw [MsgStore.image, MsgStore.image, MsgStore.setRetmsgData,
      MsgStore.setRetmsgData, MsgStore.write_of_ne _ isRetmsg,
      MsgStore.write_of_ne _ isRetmsg]
    exact MsgStore.image_of_view same

end Rewriting

/-! ## Every step keeps the invariant -/

/-- The invariant of ubusd and its status messages. -/
structure ProtoInv (state : Proto) : Prop where
  daemon : DaemonInv (fun message => message.status = true) state.daemon
  held : 0 < state.daemon.held retmsg
  retmsg : ∃ seq peer ret, RetmsgIs state.daemon.store seq peer ret ∧
    ∀ request, state.serving = some request →
      seq = request.hdr.seq ∧ peer = request.hdr.peer
  serving : ∀ request, state.serving = some request → request.ub ≠ Ubusd.retmsg
  owed : ∀ (client : Nat) (cl : UbusClient),
    state.daemon.clients[client]? = some cl → cl.connected = true →
      statuses cl.sent = state.owed client
  beyond : ∀ client, state.daemon.clients.length ≤ client →
    state.owed client = []

section Steps

variable {state next : Proto}

theorem ProtoInv.below (inv : ProtoInv state) :
    Ubusd.retmsg < state.daemon.store.next :=
  inv.daemon.accounted.lt_next (inv.daemon.accounted.live_of_held inv.held)

/-- What happens to other buffers and to the sockets. -/
theorem ProtoInv.other
    (inv : ProtoInv state) {target : Option MsgId} {daemon : Daemon}
    (steps : Steps (fun message => message.status = true) target
      state.daemon daemon)
    (untouched : target ≠ some Ubusd.retmsg)
    (same : SameStatuses state.daemon daemon) :
    ProtoInv { state with daemon := daemon } := by
  obtain ⟨heldEq, viewEq⟩ := steps.keeps Ubusd.retmsg inv.held untouched
  obtain ⟨seq, peer, ret, content, current⟩ := inv.retmsg
  exact
    { daemon := steps.inv
      held := by
        rw [heldEq]
        exact inv.held
      retmsg := ⟨seq, peer, ret, viewEq.trans content, current⟩
      serving := inv.serving
      owed := fun client after found connected => by
        obtain ⟨cl, clFound, clConnected, statusesEq⟩ :=
          same.clients client after found connected
        rw [statusesEq]
        exact inv.owed client cl clFound clConnected
      beyond := fun client above => by
        rw [same.length] at above
        exact inv.beyond client above }

theorem ProtoInv.accept (inv : ProtoInv state) :
    ProtoInv
      { state with
        daemon :=
          { state.daemon with
            clients := state.daemon.clients ++ [.fresh] } } :=
  { daemon := inv.daemon.accept
    held := inv.held
    retmsg := inv.retmsg
    serving := inv.serving
    owed := fun client after found connected => by
      rcases Nat.lt_or_ge client state.daemon.clients.length with
        older | newer
      · rw [List.getElem?_append_left older] at found
        exact inv.owed client after found connected
      · rw [List.getElem?_append_right newer] at found
        have isFresh : after = .fresh := by
          rw [List.getElem?_singleton] at found
          split at found
          · rw [Option.some.injEq] at found
            exact found.symm
          · cases found
        rw [isFresh, inv.beyond client newer]
        rfl
    beyond := fun client above => by
      refine inv.beyond client ?_
      rw [List.length_append] at above
      exact Nat.le_of_add_right_le above }

theorem ProtoInv.transmit
    (inv : ProtoInv state) {action : TransmitAction}
    (permitted : ProtoPermitted state (.transmit action))
    (taken : state.transmit action = some next) : ProtoInv next := by
  rw [Proto.transmit] at taken
  split at taken
  · rename_i allowed
    split at taken
    · rename_i daemon stepped
      rw [Option.some.injEq] at taken
      subst taken
      cases action with
      | accept =>
          rw [Daemon.step, Option.some.injEq] at stepped
          subst stepped
          exact inv.accept
      | writable client results =>
          rw [Daemon.step] at stepped
          exact inv.other (inv.daemon.writable stepped)
            (fun impossible => by cases impossible)
            (SameStatuses.onClient stepped fun cl => by
              rw [clientCbTx_sent])
      | disconnect client =>
          rw [Daemon.step] at stepped
          exact inv.other (inv.daemon.disconnect stepped)
            (fun impossible => by cases impossible)
            (SameStatuses.onClient stepped fun cl => by
              rw [handleClientDisconnect_sent])
      | effect effect =>
          rw [Daemon.step] at stepped
          have foreign : effect.subject ≠ some Ubusd.retmsg := by
            rw [transmitAllowed, Bool.and_eq_true] at allowed
            exact of_decide_eq_true allowed.1
          refine inv.other (inv.daemon.effect permitted stepped) ?_
            (SameStatuses.effect stepped)
          cases effect with
          | create shared hdr data =>
              exact fun impossible => by cases impossible
          | release id =>
              exact foreign
          | send client id result alloc free =>
              cases free with
              | true =>
                  exact foreign
              | false =>
                  exact fun impossible => by cases impossible
    · cases taken
  · cases taken

theorem ProtoInv.receive
    (inv : ProtoInv state) {client : Nat} {hdr : UbusMsghdr}
    {data : List UInt8}
    (permitted : ProtoPermitted state (.receive client hdr data))
    (taken : state.receive client hdr data = some next) : ProtoInv next := by
  rw [Proto.receive] at taken
  dsimp only at taken
  split at taken
  · rename_i cl idle found
    split at taken
    · rw [Option.some.injEq] at taken
      subst taken
      have created := inv.daemon.create false hdr data
      obtain ⟨heldEq, viewEq⟩ := created.keeps Ubusd.retmsg inv.held
        (fun impossible => nomatch impossible)
      obtain ⟨seq, peer, ret, content, _⟩ := inv.retmsg
      have contentAfter :
          RetmsgIs (state.daemon.store.ubusMsgNew hdr data false) seq peer
            ret := viewEq.trans content
      have views : ∀ other ∈ state.daemon.clients,
          ∀ id ∈ other.txQueue.contents,
            (state.daemon.store.ubusMsgNew hdr data false).view id =
              state.daemon.store.view id := by
        intro other member id queued
        have live := inv.daemon.accounted.live_of_mem
          (List.mem_flatMap.mpr ⟨other, member, queued⟩)
        have older := inv.daemon.accounted.lt_next live
        rw [MsgStore.view,
          MsgStore.heap_ubusMsgNew_of_ne _ _ _ (Nat.ne_of_lt older)]
        rfl
      have rewritten := @DaemonInv.setRetmsgHdr _ _ created.inv hdr
        (fun other member => by
          have afterEq := unsent_congr fun id queued =>
            image_setRetmsgHdr_congr (views other member id queued) hdr
          have beforeEq := unsent_congr fun id queued =>
            MsgStore.image_of_view (views other member id queued)
          exact (afterEq.trans (permitted other member)).trans beforeEq.symm)
      exact
        { daemon := rewritten
          held := Nat.lt_of_lt_of_eq inv.held heldEq.symm
          retmsg := ⟨hdr.seq, hdr.peer, ret, contentAfter.setHdr hdr,
            fun request serving => by
              rw [Option.some.injEq] at serving
              subst serving
              exact ⟨rfl, rfl⟩⟩
          serving := fun request serving => by
            rw [Option.some.injEq] at serving
            subst serving
            exact Nat.ne_of_gt inv.below
          owed := inv.owed
          beyond := inv.beyond }
    · cases taken
  · cases taken

/-- The return code is written and the request is freed. -/
theorem ProtoInv.prepared
    (inv : ProtoInv state) {request : Request} {ret : UInt32}
    (serving : state.serving = some request)
    (same : ∀ cl ∈ state.daemon.clients,
      unsent (state.daemon.store.setRetmsgData ret).image cl =
        unsent state.daemon.store.image cl)
    {daemon : Daemon}
    (released : state.daemon.release request.ub = some daemon) :
    DaemonInv (fun message => message.status = true)
        { daemon with store := daemon.store.setRetmsgData ret } ∧
      RetmsgIs (daemon.store.setRetmsgData ret) request.hdr.seq
        request.hdr.peer ret ∧
      0 < daemon.held Ubusd.retmsg ∧
      daemon.clients = state.daemon.clients := by
  have steps := inv.daemon.release released
  have foreign : some request.ub ≠ some Ubusd.retmsg :=
    fun impossible => inv.serving request serving (Option.some.inj impossible)
  obtain ⟨heldEq, viewEq⟩ := steps.keeps Ubusd.retmsg inv.held foreign
  obtain ⟨seq, peer, before, content, current⟩ := inv.retmsg
  obtain ⟨rfl, rfl⟩ := current request serving
  have contentAfter : RetmsgIs daemon.store request.hdr.seq request.hdr.peer
      before := viewEq.trans content
  have heldAfter : 0 < daemon.held Ubusd.retmsg := by
    rw [heldEq]
    exact inv.held
  rw [Daemon.release] at released
  split at released
  · rename_i isHeld
    rw [Option.some.injEq] at released
    subst released
    refine ⟨steps.inv.setRetmsgData contentAfter fun cl member => ?_,
      contentAfter.setData ret, heldAfter, rfl⟩
    have afterEq := unsent_congr fun id queued =>
      image_setRetmsgData_congr
        (inv.daemon.view_of_queued isHeld member queued) ret
    have beforeEq := unsent_congr fun id queued =>
      MsgStore.image_of_view
        (inv.daemon.view_of_queued isHeld member queued)
    exact (afterEq.trans (same cl member)).trans beforeEq.symm
  · cases released

theorem ProtoInv.finish
    (inv : ProtoInv state) {ret : UInt32} {result : WriteResult}
    {alloc : Bool}
    (permitted : ProtoPermitted state (.finish ret result alloc))
    (taken : state.finish ret result alloc = some next) : ProtoInv next := by
  rw [Proto.finish] at taken
  split at taken
  · cases taken
  · rename_i request serving
    dsimp only at taken
    split at taken
    · rw [Option.some.injEq] at taken
      subst taken
      obtain ⟨seq, peer, before, content, _⟩ := inv.retmsg
      exact
        { daemon := inv.daemon
          held := inv.held
          retmsg := ⟨seq, peer, before, content, fun _ none => by cases none⟩
          serving := fun _ none => by cases none
          owed := inv.owed
          beyond := inv.beyond }
    · rename_i replies
      obtain ⟨same, written⟩ := permitted request serving replies
      split at taken
      · cases taken
      · rename_i daemon released
        obtain ⟨prepared, content, held, clientsEq⟩ :=
          inv.prepared serving same released
        split at taken
        · cases taken
        · rename_i sent sending
          rw [Option.some.injEq] at taken
          subst taken
          have steps := prepared.send
            (fun cl already found enters shared =>
              absurd shared content.owned) sending
          obtain ⟨heldEq, viewEq⟩ := steps.keeps Ubusd.retmsg held
            (fun impossible => by cases impossible)
          rw [Daemon.send, if_pos held] at sending
          obtain ⟨cl, found, connected, rfl⟩ :=
            Daemon.onClient_eq_some sending
          change daemon.clients[request.client]? = some cl at found
          have bound : request.client < daemon.clients.length :=
            (List.getElem?_eq_some_iff.mp found).choose
          have foundBefore :
              state.daemon.clients[request.client]? = some cl := by
            rw [← clientsEq]
            exact found
          have owedBefore := inv.owed request.client cl foundBefore connected
          have sentEq :
              statuses
                  (ubusMsgSend (daemon.store.setRetmsgData
                    (request.returned ret)) cl Ubusd.retmsg result alloc
                    true).2.sent =
                if cl.txQueue.full then state.owed request.client
                else
                  state.owed request.client ++
                    [statusImage request.hdr.seq request.hdr.peer
                      (request.returned ret)] := by
            cases full : cl.txQueue.full with
            | true =>
                have clientInv :=
                  prepared.clients cl (List.mem_of_getElem? found)
                have waiting : cl.txQueue.head ≠ none := by
                  intro idle
                  have nothing := clientInv.queue_nil idle
                  have whole := clientInv.ring.full_iff.mp full
                  rw [nothing] at whole
                  cases whole
                rw [ubusMsgSend_sent_of_full _ _ _ _ waiting full, if_pos rfl]
                exact owedBefore
            | false =>
                rw [ubusMsgSend_sent_of_room _ _ _ _ full
                  (written cl foundBefore), statuses_snoc_status,
                  content.image, owedBefore]
                rfl
          exact
            { daemon := steps.inv
              held := Nat.lt_of_lt_of_eq held heldEq.symm
              retmsg := ⟨_, _, _, viewEq.trans content,
                fun _ none => by cases none⟩
              serving := fun _ none => by cases none
              owed := fun client after afterFound afterConnected => by
                change (daemon.clients.set request.client _)[client]? =
                  some after at afterFound
                rw [found, Option.any_some]
                rw [List.getElem?_set] at afterFound
                split at afterFound
                · rename_i sameIndex
                  rw [Option.some.injEq] at afterFound
                  subst afterFound sameIndex
                  rw [sentEq]
                  split
                  · rfl
                  · exact
                      (Function.update_self request.client _
                        state.owed).symm
                · rename_i otherIndex
                  rw [clientsEq] at afterFound
                  rw [inv.owed client after afterFound afterConnected]
                  split
                  · rfl
                  · exact
                      (Function.update_of_ne (Ne.symm otherIndex) _
                        state.owed).symm
              beyond := fun client above => by
                change (daemon.clients.set request.client _).length ≤
                  client at above
                rw [List.length_set] at above
                have otherIndex : client ≠ request.client := by omega
                rw [clientsEq] at above
                split
                · exact inv.beyond client above
                · exact (Function.update_of_ne otherIndex _ state.owed).trans
                    (inv.beyond client above) }

/-- Every permitted step keeps the invariant. -/
theorem ProtoInv.step
    (inv : ProtoInv state) {action : ProtoAction}
    (permitted : ProtoPermitted state action)
    (taken : state.step action = some next) : ProtoInv next := by
  cases action with
  | transmit action =>
      exact inv.transmit permitted taken
  | receive client hdr data =>
      exact inv.receive permitted taken
  | finish ret result alloc =>
      exact inv.finish permitted taken

end Steps

/-! ## Whole runs -/

theorem ProtoInv.init : ProtoInv proto.init := by
  have created := @DaemonInv.create (fun message => message.status = true) _
    DaemonInv.init false ⟨0, UbusMsgType.status.code, 0, 0⟩ (statusData 0)
  exact
    { daemon := created.inv
      held := Nat.one_pos
      retmsg := ⟨0, 0, 0, rfl, fun _ none => nomatch none⟩
      serving := fun _ none => nomatch none
      owed := fun _ _ found => nomatch found
      beyond := fun _ _ => rfl }

theorem ProtoInv.statusesArrive
    {state : Proto} (inv : ProtoInv state) : StatusesArrive state := by
  intro client cl found connected
  have clientInv := inv.daemon.clients cl (List.mem_of_getElem? found)
  obtain ⟨frames, carried, _, whole⟩ := clientInv.frames
  rw [whole connected, statusFrames_flatten carried]
  exact inv.owed client cl found connected

/-- If `retmsg` is rewritten only while its unsent bytes stay the same, and the
write of a status to an empty queue does not fail, every status reaches the
client of its request unless the queue is full. -/
theorem retmsg_statusesArrive
    {actions : List ProtoAction} {state : Proto}
    (permitted : proto.Meets ProtoPermitted proto.init actions)
    (reached : proto.run actions = some state) : StatusesArrive state := by
  have inv : ProtoInv state :=
    Machine.invariant_of_permitted ProtoInv.init
      (fun _ _ _ holds stepPermitted taken => holds.step stepPermitted taken)
      permitted reached
  exact inv.statusesArrive

/-- Two requests of one client; the first status is written in two parts, the
second request arrives behind it. -/
def drainedBetween : List ProtoAction :=
  [.transmit .accept, .receive 0 ⟨0, 0, 5, 7⟩ [0, 0, 0, 4],
    .finish 0 (.wrote 3) true, .transmit (.writable 0 [.wrote 99]),
    .receive 0 ⟨0, 0, 6, 7⟩ [0, 0, 0, 4], .finish 0 (.wrote 99) true]

theorem retmsg_statusesArrive_drained :
    ∃ state, proto.run drainedBetween = some state ∧
      StatusesArrive state := by
  refine ⟨_, rfl, @retmsg_statusesArrive drainedBetween _ ?_ rfl⟩
  apply Machine.Meets.cons trivial rfl
  apply Machine.Meets.cons
  · intro cl member
    rw [List.mem_singleton.mp member]
    rfl
  · rfl
  apply Machine.Meets.cons
  · intro request serving _
    cases serving
    refine ⟨fun cl member => ?_, fun _ _ _ => ⟨3, rfl⟩⟩
    rw [List.mem_singleton.mp member]
    rfl
  · rfl
  apply Machine.Meets.cons trivial rfl
  apply Machine.Meets.cons
  · intro cl member
    rw [List.mem_singleton.mp member]
    rfl
  · rfl
  apply Machine.Meets.cons
  · intro request serving _
    cases serving
    refine ⟨fun cl member => ?_, fun _ _ _ => ⟨99, rfl⟩⟩
    rw [List.mem_singleton.mp member]
    rfl
  · rfl
  exact trivial

/-- The status of a client with a blocked socket waits in its queue while the
request of another client rewrites `retmsg`. -/
theorem retmsg_overwritten :
    ∃ state,
      proto.run
          [.transmit .accept, .transmit .accept,
            .transmit (.effect (.create false ⟨0, 2, 1, 9⟩ [0, 0, 0, 4])),
            .transmit (.effect (.send 0 1 (.wrote 4) true true)),
            .receive 0 ⟨0, 0, 5, 7⟩ [0, 0, 0, 4], .finish 0 (.wrote 99) true,
            .receive 1 ⟨0, 0, 6, 8⟩ [0, 0, 0, 4],
            .finish 0 (.wrote 99) true] = some state ∧
        state.owed 0 = [statusImage 5 7 1] ∧ ¬ StatusesArrive state := by
  refine ⟨_, rfl, rfl, fun arrive => ?_⟩
  have first := arrive 0 _ rfl rfl
  revert first
  decide

end LibubusJni.Ubusd
