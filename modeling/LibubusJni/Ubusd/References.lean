import LibubusJni.Ubusd.Status

/-!
# References to message buffers

A reference is held by a slot of a `tx_queue`, by `pending_msg`, by `retmsg`, by
the handler that runs, and by `ubusd_send_event` for the message it sends.  A
function that makes a buffer and gives it to `ubus_msg_send` with `free` set is
one action; where `ubus_msg_new` fails there is none.  A write error other than
`EAGAIN` and `EINTR`, a message that is too long and the end of a stream lead to
the label `disconnect` of `client_cb`.

Which clients a handler sends to, and what, is decided by the actions; they are
clients that exist.  What is written into the header of a request that is freed
without being sent is left out.
-/

namespace LibubusJni.Ubusd

open LibubusJni.Lib

/-- The fields of `struct ubus_client` that refer to message buffers. -/
structure MsgClient where
  tx : UbusClient
  pendingMsg : Option MsgId

/-- What runs on top of the event loop. -/
inductive MsgFrame where
  /-- The handler of a message of this type. -/
  | serving (client : Nat) (ub : MsgId) (type : UInt8)
  /-- `ubusd_proto_free_client`, called by `handle_client_disconnect`. -/
  | leaving (client : Nat)

/-- `clients` lists the clients by the order in which they connected; those that
were freed are `none`. -/
structure MsgOwners where
  store : MsgStore
  clients : List (Option MsgClient)
  frame : Option MsgFrame
  /-- `ub` of `ubusd_send_event`. -/
  event : Option MsgId

inductive OwnerAction where
  /-- `ubusd_proto_new_client` and its HELLO. -/
  | accept (id : UInt32) (result : WriteResult) (alloc : Bool)
  /-- The first loop of `client_cb`. -/
  | writable (client : Nat) (results : List WriteResult)
  /-- The header of a message is complete and `pending_msg` is made. -/
  | header (client : Nat) (hdr : UbusMsghdr) (data : List UInt8)
  /-- The message is complete and `ubusd_proto_receive_message` is called. -/
  | message (client : Nat) (data : List UInt8)
  /-- `ubusd_send_pong`. -/
  | sendPong (result : WriteResult) (alloc : Bool)
  /-- `ubusd_handle_response` up to its return. -/
  | handleResponse (receiver : Nat) (peer : UInt32) (result : WriteResult)
      (alloc : Bool)
  /-- `ubus_send_msg_from_blob`, `ubus_notify_subscription`, or the message of
  `ubus_notify_unsubscribe`. -/
  | sendMsg (receiver : Nat) (shared : Bool) (hdr : UbusMsghdr) (data : List UInt8)
      (result : WriteResult) (alloc : Bool)
  /-- `fill_cb` in `ubusd_send_event_msg`. -/
  | fillEvent (data : List UInt8)
  /-- `ubusd_send_event_msg` behind `fill_cb`. -/
  | sendEventMsg (receiver : Nat) (seq : UInt16) (data : List UInt8)
      (result : WriteResult) (alloc : Bool)
  /-- The end of `ubusd_send_event`. -/
  | freeEvent
  /-- `ubus_msg_free(ub)` and `return -1` in a handler. -/
  | freeMsg
  /-- The handler has returned another value. -/
  | status (ret : UInt32) (result : WriteResult) (alloc : Bool)
  /-- `handle_client_disconnect` up to `ubusd_proto_free_client`. -/
  | disconnect (client : Nat)
  /-- `handle_client_disconnect` behind `ubusd_proto_free_client`. -/
  | freeClient

/-- Handlers that end with `ubus_msg_free(ub)` themselves. -/
def freesMsg (type : UInt8) : Bool :=
  type = UbusMsgType.status.code || type = UbusMsgType.data.code ||
    type = UbusMsgType.invoke.code || type = UbusMsgType.notify.code

/-- `ubusd_handle_response` never returns a status. -/
def returnsStatus (type : UInt8) : Bool :=
  type ≠ UbusMsgType.status.code && type ≠ UbusMsgType.data.code

namespace MsgClient

/-- What `calloc` makes of a new client. -/
def fresh : MsgClient := ⟨.fresh, none⟩

/-- The references of a client. -/
def holds (cl : MsgClient) : List MsgId :=
  cl.tx.txQueue.items ++ cl.pendingMsg.toList

end MsgClient

namespace MsgFrame

/-- The reference of the handler. -/
def holds : MsgFrame → List MsgId
  | .serving _ ub _ => [ub]
  | .leaving _ => []

end MsgFrame

namespace MsgOwners

/-- All references. -/
def holders (state : MsgOwners) : List MsgId :=
  state.clients.flatMap (fun cl => cl.elim [] MsgClient.holds) ++
    (state.frame.elim [] MsgFrame.holds ++ (state.event.toList ++ [retmsg]))

def onClient (state : MsgOwners) (client : Nat)
    (operation : MsgStore → UbusClient → MsgStore × UbusClient) :
    Option MsgOwners :=
  match state.clients[client]? with
  | some (some cl) =>
      let (store, tx) := operation state.store cl.tx
      some
        { state with
          store := store
          clients := state.clients.set client (some { cl with tx := tx }) }
  | some none | none => none

/-- `ubus_msg_send` without `free`. -/
def send (state : MsgOwners) (receiver : Nat) (id : MsgId) (result : WriteResult)
    (alloc : Bool) : Option MsgOwners :=
  state.onClient receiver fun store cl =>
    ubusMsgSend store cl id result alloc (id = retmsg)

def free (state : MsgOwners) (id : MsgId) : MsgOwners :=
  { state with store := state.store.ubusMsgFree id }

/-- `ubus_msg_send` of a buffer made for it, with `free`. -/
def sendNew (state : MsgOwners) (receiver : Nat) (shared : Bool) (hdr : UbusMsghdr)
    (data : List UInt8) (result : WriteResult) (alloc : Bool) :
    Option MsgOwners :=
  let ub := state.store.next
  let state :=
    { state with store := state.store.ubusMsgNew hdr data shared }
  (state.send receiver ub result alloc).map fun state => state.free ub

/-- Header and data of a buffer are written. -/
def rewrite (state : MsgOwners) (id : MsgId)
    (change : UbusMsghdr × List UInt8 → UbusMsghdr × List UInt8) : MsgOwners :=
  let ub := state.store.heap id
  let (hdr, data) := change (ub.hdr, ub.data)
  { state with
    store := state.store.write id { ub with hdr := hdr, data := data } }

def step (state : MsgOwners) : OwnerAction → Option MsgOwners
  | .accept id result alloc =>
      match state.frame with
      | none =>
          let made : MsgOwners :=
            { state with
              clients := state.clients ++ [some .fresh] }
          made.sendNew state.clients.length true
            ⟨0, UbusMsgType.hello.code, 0, id⟩ (be32Bytes 4) result alloc
      | some _ => none
  | .writable client results =>
      match state.frame with
      | none =>
          if WriteResult.failed ∈ results then none
          else state.onClient client (clientCbTx results)
      | some _ => none
  | .header client hdr data =>
      match state.frame, state.clients[client]? with
      | none, some (some ⟨tx, none⟩) =>
          some
            { state with
              store := state.store.ubusMsgNew hdr data false
              clients :=
                state.clients.set client (some ⟨tx, some state.store.next⟩) }
      | _, _ => none
  | .message client data =>
      match state.frame, state.clients[client]? with
      | none, some (some ⟨tx, some ub⟩) =>
          let hdr := (state.store.heap ub).hdr
          let received := state.rewrite ub fun (hdr, start) =>
            (hdr, start.take 4 ++ data)
          some
            { received with
              store := received.store.setRetmsgHdr hdr
              clients := state.clients.set client (some ⟨tx, none⟩)
              frame := some (.serving client ub hdr.type) }
      | _, _ => none
  | .sendPong result alloc =>
      match state.frame with
      | some (.serving client ub type) =>
          if type = UbusMsgType.ping.code then
            (state.rewrite ub fun (hdr, data) =>
              ({ hdr with type := UbusMsgType.data.code }, data)).send client ub
                result alloc
          else none
      | some (.leaving _) | none => none
  | .handleResponse receiver peer result alloc =>
      match state.frame with
      | some (.serving _ ub type) =>
          if returnsStatus type then none
          else
            ((state.rewrite ub fun (hdr, data) =>
              ({ hdr with peer := peer }, data)).send receiver ub result alloc).map
                fun state => { state.free ub with frame := none }
      | some (.leaving _) | none => none
  | .sendMsg receiver shared hdr data result alloc =>
      match state.frame with
      | some _ => state.sendNew receiver shared hdr data result alloc
      | none => none
  | .fillEvent data =>
      match state.frame, state.event with
      | some _, none =>
          some
            { state with
              store :=
                state.store.ubusMsgNew ⟨0, UbusMsgType.invoke.code, 0, 0⟩ data
                  true
              event := some state.store.next }
      | _, _ => none
  | .sendEventMsg receiver seq data result alloc =>
      match state.event with
      | some ub =>
          (state.rewrite ub fun (hdr, _) => ({ hdr with seq := seq }, data)).send
            receiver ub result alloc
      | none => none
  | .freeEvent =>
      match state.event with
      | some ub => some { state.free ub with event := none }
      | none => none
  | .freeMsg =>
      match state.frame, state.event with
      | some (.serving _ ub type), none =>
          if freesMsg type then some { state.free ub with frame := none }
          else none
      | _, _ => none
  | .status ret result alloc =>
      match state.frame, state.event with
      | some (.serving client ub type), none =>
          if returnsStatus type then
            let state := { state.free ub with frame := none }
            { state with store := state.store.setRetmsgData ret }.send client
              retmsg result alloc
          else none
      | _, _ => none
  | .disconnect client =>
      match state.frame with
      | none =>
          (state.onClient client handleClientDisconnect).map fun state =>
            { state with frame := some (.leaving client) }
      | some _ => none
  | .freeClient =>
      match state.frame, state.event with
      | some (.leaving client), none =>
          some
            { state with
              clients := state.clients.set client none
              frame := none }
      | _, _ => none

end MsgOwners

/-- ubusd behind `ubusd_proto_init`. -/
def owners : Machine MsgOwners OwnerAction where
  init :=
    { store :=
        MsgStore.empty.ubusMsgNew ⟨0, UbusMsgType.status.code, 0, 0⟩
          (statusData 0) false
      clients := []
      frame := none
      event := none }
  step := MsgOwners.step

/-! ## The claim about references -/

namespace MsgOwners

/-- The direct write of `ubus_msg_send` counts as complete. -/
def WritesWhole (ub : UbusMsgBuf) (result : WriteResult) : Prop :=
  ub.data.length + sizeofMsghdr ≤ sizeT (directWritten ub result)

/-- The references to a buffer are counted, and it is freed when there are
none. -/
structure RefsCounted (state : MsgOwners) : Prop where
  refs : ∀ id, state.store.refs id = state.holders.count id
  freed : ∀ id, state.store.heap id = .freed ↔ state.holders.count id = 0

/-- A client that is being disconnected is sent nothing that enters its queue. -/
def NotQueued (state : MsgOwners) (receiver : Nat) (ub : UbusMsgBuf)
    (result : WriteResult) (alloc : Bool) : Prop :=
  state.frame = some (.leaving receiver) →
    WritesWhole ub result ∨ (ub.refcount = .shared ∧ alloc = false)

/-- When a client is disconnected it has no `pending_msg` and no gap in its
queue, and nothing enters the queue after that. -/
def LeavesNothing (state : MsgOwners) : OwnerAction → Prop
  | .disconnect client =>
      ∀ cl, state.clients[client]? = some (some cl) →
        cl.pendingMsg = none ∧ cl.tx.txQueue.Gapless
  | .sendMsg receiver shared hdr data result alloc =>
      state.NotQueued receiver
        ⟨if shared then .shared else .owned 1, hdr, data⟩ result alloc
  | .sendEventMsg receiver seq data result alloc =>
      ∀ ub, state.event = some ub →
        state.NotQueued receiver
          { state.store.heap ub with
            hdr := { (state.store.heap ub).hdr with seq := seq }
            data := data } result alloc
  | .accept _ _ _ | .writable _ _ | .header _ _ _ | .message _ _
  | .sendPong _ _ | .handleResponse _ _ _ _ | .fillEvent _ | .freeEvent
  | .freeMsg | .status _ _ _ | .freeClient => True

end MsgOwners

/-! ## Buffers -/

namespace MsgStore

/-- All references are in the list, and what has none is freed. -/
structure Counted (store : MsgStore) (holders : List MsgId) : Prop where
  accounted : store.Accounted (fun _ => 0) holders
  freed : ∀ id, store.refs id = 0 → store.heap id = .freed

namespace Counted

variable {store : MsgStore} {holders : List MsgId} {id : MsgId}

theorem perm {others : List MsgId} (counted : store.Counted holders)
    (same : holders.Perm others) : store.Counted others :=
  ⟨counted.accounted.perm same, counted.freed⟩

theorem live (counted : store.Counted holders) (member : id ∈ holders) :
    0 < store.refs id :=
  counted.accounted.live_of_mem member

theorem ubusMsgNew (counted : store.Counted holders) (hdr : UbusMsghdr)
    (data : List UInt8) (shared : Bool) :
    (store.ubusMsgNew hdr data shared).Counted (store.next :: holders) := by
  have isHeld : Function.update (fun _ => 0) store.next 1 =
      fun id => 0 + [store.next].count id := by
    funext id
    by_cases isNew : id = store.next
    · rw [isNew, Function.update_self, List.count_singleton_self]
    · rw [Function.update_of_ne isNew, List.count_eq_zero.mpr]
      exact fun member => isNew (List.mem_singleton.mp member)
  have accounted := counted.accounted.ubusMsgNew hdr data shared
  rw [isHeld] at accounted
  refine ⟨(Accounted.append_iff.mpr accounted).perm List.perm_append_comm,
    fun id none => ?_⟩
  by_cases isNew : id = store.next
  · rw [isNew, refs_ubusMsgNew_self] at none
    cases none
  · rw [MsgStore.refs, heap_ubusMsgNew_of_ne hdr data shared isNew] at none
    rw [heap_ubusMsgNew_of_ne hdr data shared isNew]
    exact counted.freed id none

theorem ubusMsgRef (counted : store.Counted holders) (live : 0 < store.refs id)
    (alloc : Bool) :
    (store.ubusMsgRef id alloc).1.Counted
      ((store.ubusMsgRef id alloc).2.toList ++ holders) := by
  cases isCount : (store.heap id).refcount with
  | shared =>
      cases alloc with
      | false =>
          simp only [MsgStore.ubusMsgRef, isCount]
          exact counted
      | true =>
          simp only [MsgStore.ubusMsgRef, isCount]
          exact counted.ubusMsgNew _ _ _
  | owned count =>
      have same : store.ubusMsgRef id alloc = store.ubusMsgRef id true := by
        simp only [MsgStore.ubusMsgRef, isCount]
      obtain ⟨after, copy, isRef, accounted, _⟩ :=
        counted.accounted.ubusMsgRef live
      rw [same, isRef]
      refine ⟨accounted, fun other none => ?_⟩
      simp only [MsgStore.ubusMsgRef, isCount, Prod.mk.injEq] at isRef
      rw [← isRef.1] at none ⊢
      by_cases isId : other = id
      · rw [isId, MsgStore.refs, write_self] at none
        cases none
      · rw [MsgStore.refs, write_of_ne _ isId] at none
        rw [write_of_ne _ isId]
        exact counted.freed other none

theorem ubusMsgFree (counted : store.Counted (id :: holders)) :
    (store.ubusMsgFree id).Counted holders := by
  refine ⟨counted.accounted.ubusMsgFree_queued, fun other none => ?_⟩
  by_cases isId : other = id
  · have live := counted.live List.mem_cons_self
    subst isId
    rw [refs_ubusMsgFree_self] at none
    have one : store.refs other = 1 := by omega
    rw [MsgStore.refs] at one
    rw [MsgStore.ubusMsgFree]
    split
    · exact write_self _
    · exact write_self _
    · rename_i count notOne isOwned
      rw [isOwned, Refcount.toNat] at one
      exact absurd one notOne
  · rw [MsgStore.refs, heap_ubusMsgFree_of_ne isId] at none
    rw [heap_ubusMsgFree_of_ne isId]
    exact counted.freed other none

/-- Writing to a buffer leaves its reference count. -/
theorem write (counted : store.Counted holders) (live : 0 < store.refs id)
    (hdr : UbusMsghdr) (data : List UInt8) :
    (store.write id { store.heap id with hdr := hdr, data := data }).Counted
      holders := by
  have same : ∀ other,
      (store.write id { store.heap id with hdr := hdr, data := data }).refs
        other = store.refs other := by
    intro other
    by_cases isId : other = id
    · rw [isId, MsgStore.refs, write_self]
      rfl
    · rw [MsgStore.refs, write_of_ne _ isId]
      rfl
  refine ⟨⟨fun other => ?_, fun other above => ?_⟩, fun other none => ?_⟩
  · rw [same]
    exact counted.accounted.refs other
  · rw [same]
    exact counted.accounted.fresh other above
  · rw [same] at none
    have isOther : other ≠ id := by
      rintro rfl
      exact absurd none (Nat.ne_of_gt live)
    rw [write_of_ne _ isOther]
    exact counted.freed other none

end Counted

end MsgStore

/-! ## Operations on one client -/

/-- The references of the queue and those held elsewhere. -/
structure ClientCounted (rest : List MsgId) (out : MsgStore × UbusClient) :
    Prop where
  counted : out.1.Counted (out.2.txQueue.items ++ rest)
  bounds : out.2.txQueue.InBounds

namespace ClientCounted

variable {store : MsgStore} {cl : UbusClient} {rest : List MsgId} {id : MsgId}

theorem enqueue (inv : ClientCounted rest (store, cl))
    (live : 0 < store.refs id) (alloc status : Bool) :
    ClientCounted rest (ubusMsgEnqueue store cl id alloc status) := by
  rw [ubusMsgEnqueue]
  cases full : cl.txQueue.full with
  | true =>
      exact inv
  | false =>
      have taken := inv.counted.ubusMsgRef live alloc
      simp only [Bool.false_eq_true, if_false]
      generalize store.ubusMsgRef id alloc = result at taken
      obtain ⟨after, ref⟩ := result
      refine ⟨taken.perm ?_, inv.bounds.put ref⟩
      cases ref with
      | none =>
          rw [Ring.items_put_none full]
          rfl
      | some copy =>
          exact ((Ring.items_put_some inv.bounds.tail full copy).symm).append_right
            rest

theorem send (inv : ClientCounted rest (store, cl)) (live : 0 < store.refs id)
    (result : WriteResult) (alloc status : Bool) :
    ClientCounted rest (ubusMsgSend store cl id result alloc status) := by
  rw [ubusMsgSend]
  split
  · exact inv.enqueue live alloc status
  · dsimp only
    split
    · split
      · exact ⟨inv.counted, inv.bounds⟩
      · exact ⟨inv.counted, inv.bounds⟩
    · refine enqueue ?_ live alloc status
      exact ⟨inv.counted, inv.bounds⟩

theorem dequeue (inv : ClientCounted rest (store, cl)) :
    ClientCounted rest (ubusMsgDequeue store cl) := by
  rw [ubusMsgDequeue]
  cases isHead : cl.txQueue.head with
  | none =>
      exact inv
  | some id =>
      have popped := Ring.items_pop inv.bounds.cur isHead
      exact ⟨(inv.counted.perm (popped.append_right rest)).ubusMsgFree,
        inv.bounds.pop⟩

theorem dequeueAll :
    ∀ (slots : Nat) (store : MsgStore) (cl : UbusClient),
      ClientCounted rest (store, cl) →
        ClientCounted rest (ubusMsgDequeueAll slots store cl)
  | 0, _, _, inv => inv
  | slots + 1, store, cl, inv => by
      rw [ubusMsgDequeueAll]
      split
      · exact inv
      · exact dequeueAll slots _ _ inv.dequeue

/-- Without a gap nothing is left in the queue. -/
theorem dequeueAll_nil :
    ∀ (slots : Nat) (store : MsgStore) (cl : UbusClient),
      cl.txQueue.InBounds → cl.txQueue.Gapless →
        cl.txQueue.items.length ≤ slots →
          (ubusMsgDequeueAll slots store cl).2.txQueue.items = []
  | 0, _, _, _, _, short => List.length_eq_zero_iff.mp (Nat.le_zero.mp short)
  | slots + 1, store, cl, bounds, gapless, short => by
      rw [ubusMsgDequeueAll]
      cases isHead : cl.txQueue.head with
      | none =>
          exact gapless.items_nil bounds.cur isHead
      | some id =>
          simp only [ubusMsgDequeue_of_head isHead]
          have popped := (Ring.items_pop bounds.cur isHead).length_eq
          rw [List.length_cons] at popped
          exact dequeueAll_nil slots _ _ bounds.pop (gapless.pop bounds.cur)
            (show cl.txQueue.pop.items.length ≤ slots by omega)

theorem disconnect (inv : ClientCounted rest (store, cl)) :
    ClientCounted rest (handleClientDisconnect store cl) := by
  have drained := dequeueAll ubusdClientBacklog store cl inv
  exact ⟨drained.counted, drained.bounds⟩

theorem clientCbTx :
    ∀ (results : List WriteResult) (store : MsgStore) (cl : UbusClient),
      ClientCounted rest (store, cl) →
        ClientCounted rest (Ubusd.clientCbTx results store cl)
  | [], _, _, inv => inv
  | result :: results, store, cl, inv => by
      rw [Ubusd.clientCbTx]
      split
      · exact inv
      · dsimp only
        split
        · split
          · exact inv.disconnect
          · exact inv
        · split
          · exact ⟨inv.counted, inv.bounds⟩
          · refine clientCbTx results _ _ (dequeue ?_)
            exact ⟨inv.counted, inv.bounds⟩

end ClientCounted

/-! ## All clients -/

namespace MsgOwners

/-- The references are counted, and a client that is being disconnected has none
left; `loose` are those of the function that runs. -/
structure OwnersInv (loose : List MsgId) (state : MsgOwners) : Prop where
  counted : state.store.Counted (loose ++ state.holders)
  bounds : ∀ cl, some cl ∈ state.clients → cl.tx.txQueue.InBounds
  leaving : ∀ client, state.frame = some (.leaving client) →
    ∃ cl, state.clients[client]? = some (some cl) ∧ cl.holds = []

variable {state next : MsgOwners} {loose : List MsgId} {client : Nat}
  {cl : MsgClient} {id : MsgId}

/-- The references of one client among all. -/
theorem holders_perm (isClient : state.clients[client]? = some (some cl))
    (after : Option MsgClient) :
    ∃ rest, state.holders.Perm (cl.holds ++ rest) ∧
      { state with clients := state.clients.set client after }.holders.Perm
        (after.elim [] MsgClient.holds ++ rest) := by
  obtain ⟨bound, isEntry⟩ := List.getElem?_eq_some_iff.mp isClient
  have isSplit : state.clients = state.clients.take client ++
      some cl :: state.clients.drop (client + 1) := by
    rw [← isEntry, List.getElem_cons_drop, List.take_append_drop]
  refine ⟨(state.clients.take client).flatMap (fun cl => cl.elim [] MsgClient.holds) ++
    ((state.clients.drop (client + 1)).flatMap
      (fun cl => cl.elim [] MsgClient.holds) ++
    (state.frame.elim [] MsgFrame.holds ++ (state.event.toList ++ [retmsg]))),
    ?_, ?_⟩
  · rw [holders]
    nth_rewrite 1 [isSplit]
    rw [List.flatMap_append, List.flatMap_cons, List.append_assoc,
      List.append_assoc]
    exact List.perm_append_comm_assoc _ _ _
  · rw [holders]
    dsimp only
    rw [List.set_eq_take_append_cons_drop, if_pos bound, List.flatMap_append,
      List.flatMap_cons, List.append_assoc, List.append_assoc]
    exact List.perm_append_comm_assoc _ _ _

theorem onClient_eq_some
    {operation : MsgStore → UbusClient → MsgStore × UbusClient}
    (taken : state.onClient client operation = some next) :
    ∃ cl, state.clients[client]? = some (some cl) ∧
      next =
        { state with
          store := (operation state.store cl.tx).1
          clients :=
            state.clients.set client
              (some { cl with tx := (operation state.store cl.tx).2 }) } := by
  rw [onClient] at taken
  split at taken
  · rename_i cl isClient
    exact ⟨cl, isClient, (Option.some.inj taken).symm⟩
  · cases taken
  · cases taken

namespace OwnersInv

/-- An operation on the queue of one client. -/
theorem onClient (inv : OwnersInv loose state)
    {operation : MsgStore → UbusClient → MsgStore × UbusClient}
    (isClient : state.clients[client]? = some (some cl))
    (counts : ∀ rest, ClientCounted rest (state.store, cl.tx) →
      ClientCounted rest (operation state.store cl.tx))
    (staysEmpty : state.frame = some (.leaving client) →
      cl.tx.txQueue.items = [] →
        (operation state.store cl.tx).2.txQueue.items = []) :
    OwnersInv loose
      { state with
        store := (operation state.store cl.tx).1
        clients :=
          state.clients.set client
            (some { cl with tx := (operation state.store cl.tx).2 }) } := by
  obtain ⟨rest, before, after⟩ := holders_perm isClient
    (some { cl with tx := (operation state.store cl.tx).2 })
  have member : some cl ∈ state.clients := List.mem_of_getElem? isClient
  have whole : (loose ++ state.holders).Perm
      (cl.tx.txQueue.items ++ (cl.pendingMsg.toList ++ (loose ++ rest))) := by
    refine (before.append_left loose).trans ?_
    rw [MsgClient.holds, List.append_assoc]
    exact (List.perm_append_comm_assoc _ _ _).trans
      ((List.perm_append_comm_assoc _ _ _).append_left _)
  have done := counts (cl.pendingMsg.toList ++ (loose ++ rest))
    ⟨inv.counted.perm whole, inv.bounds cl member⟩
  refine ⟨done.counted.perm ?_, fun other otherMember => ?_,
    fun other isLeaving => ?_⟩
  · refine List.Perm.trans ?_ (after.append_left loose).symm
    rw [Option.elim_some, MsgClient.holds, List.append_assoc]
    exact ((List.perm_append_comm_assoc _ _ _).trans
      ((List.perm_append_comm_assoc _ _ _).append_left _)).symm
  · rcases List.mem_or_eq_of_mem_set otherMember with old | new
    · exact inv.bounds other old
    · cases new
      exact done.bounds
  · obtain ⟨leaver, isLeaver, empty⟩ := inv.leaving other isLeaving
    by_cases same : other = client
    · subst same
      rw [isClient] at isLeaver
      cases isLeaver
      obtain ⟨noItems, noPending⟩ := List.append_eq_nil_iff.mp empty
      refine ⟨_, List.getElem?_set_self
        (List.getElem?_eq_some_iff.mp isClient).1, ?_⟩
      exact List.append_eq_nil_iff.mpr
        ⟨staysEmpty isLeaving noItems, noPending⟩
    · exact ⟨leaver,
        (List.getElem?_set_ne (Ne.symm same)).trans isLeaver, empty⟩

theorem free (inv : OwnersInv (id :: loose) state) :
    OwnersInv loose (state.free id) :=
  ⟨inv.counted.ubusMsgFree, inv.bounds, inv.leaving⟩

theorem rewrite (inv : OwnersInv loose state) (live : 0 < state.store.refs id)
    (change : UbusMsghdr × List UInt8 → UbusMsghdr × List UInt8) :
    OwnersInv loose (state.rewrite id change) :=
  ⟨inv.counted.write live _ _, inv.bounds, inv.leaving⟩

theorem create (inv : OwnersInv loose state) (hdr : UbusMsghdr)
    (data : List UInt8) (shared : Bool) :
    OwnersInv (state.store.next :: loose)
      { state with store := state.store.ubusMsgNew hdr data shared } :=
  ⟨inv.counted.ubusMsgNew hdr data shared, inv.bounds, inv.leaving⟩

/-- The handler gives its reference away. -/
theorem serveEnd {ub : MsgId} {type : UInt8} (inv : OwnersInv loose state)
    (isFrame : state.frame = some (.serving client ub type)) :
    OwnersInv (ub :: loose) { state with frame := none } := by
  refine ⟨inv.counted.perm ?_, inv.bounds, fun _ isLeaving => nomatch isLeaving⟩
  rw [holders, isFrame]
  exact (List.Perm.append_left loose List.perm_middle).trans List.perm_middle

/-- `ubusd_send_event` gives its reference away. -/
theorem eventEnd (inv : OwnersInv loose state) (isEvent : state.event = some id) :
    OwnersInv (id :: loose) { state with event := none } := by
  refine ⟨inv.counted.perm ?_, inv.bounds, inv.leaving⟩
  rw [holders, isEvent]
  refine (List.Perm.append_left loose ?_).trans List.perm_middle
  exact (List.Perm.append_left _ List.perm_middle).trans List.perm_middle

theorem live_event (inv : OwnersInv loose state)
    (isEvent : state.event = some id) : 0 < state.store.refs id :=
  (inv.eventEnd isEvent).counted.live List.mem_cons_self

theorem live_served {ub : MsgId} {type : UInt8} (inv : OwnersInv loose state)
    (isFrame : state.frame = some (.serving client ub type)) :
    0 < state.store.refs ub :=
  (inv.serveEnd isFrame).counted.live List.mem_cons_self

theorem live_retmsg (inv : OwnersInv loose state) : 0 < state.store.refs retmsg := by
  refine inv.counted.live (List.mem_append_right loose ?_)
  simp [holders]

end OwnersInv

/-- What does not enter the queue leaves it empty. -/
theorem items_ubusMsgSend {store : MsgStore} {tx : UbusClient}
    {result : WriteResult} {alloc status : Bool} (bounds : tx.txQueue.InBounds)
    (noItems : tx.txQueue.items = [])
    (notQueued : WritesWhole (store.heap id) result ∨
      ((store.heap id).refcount = .shared ∧ alloc = false)) :
    (ubusMsgSend store tx id result alloc status).2.txQueue.items = [] := by
  have emptySlot : ∀ place < ubusdClientBacklog,
      tx.txQueue.slots place = none := fun place bound =>
    List.filterMap_eq_nil_iff.mp noItems place (List.mem_range.mpr bound)
  have noHead : tx.txQueue.head = none := emptySlot _ bounds.cur
  have notFull : tx.txQueue.full = false := by
    rw [Ring.full, emptySlot _ bounds.tail]
    rfl
  rw [ubusMsgSend, noHead]
  dsimp only
  split
  · split
    · exact noItems
    · exact noItems
  · rename_i notWhole
    obtain ⟨isShared, noCopy⟩ := notQueued.resolve_left notWhole
    have noRef : store.ubusMsgRef id alloc = (store, none) := by
      simp [MsgStore.ubusMsgRef, isShared, noCopy]
    rw [ubusMsgEnqueue, if_neg (by rw [notFull]; exact Bool.false_ne_true), noRef]
    exact (Ring.items_put_none notFull).trans noItems

theorem send_frame {receiver : Nat} {result : WriteResult} {alloc : Bool}
    (taken : state.send receiver id result alloc = some next) :
    next.frame = state.frame := by
  obtain ⟨_, _, isNext⟩ := onClient_eq_some taken
  rw [isNext]

namespace OwnersInv

theorem send {receiver : Nat} {result : WriteResult} {alloc : Bool}
    (inv : OwnersInv loose state) (live : 0 < state.store.refs id)
    (notQueued : state.NotQueued receiver (state.store.heap id) result alloc)
    (taken : state.send receiver id result alloc = some next) :
    OwnersInv loose next := by
  obtain ⟨cl, isClient, isNext⟩ := onClient_eq_some taken
  rw [isNext]
  refine @onClient _ _ _ _ inv
    (fun store cl => ubusMsgSend store cl id result alloc (id = retmsg)) isClient
    (fun rest counted => counted.send live _ _ _) fun isLeaving noItems => ?_
  exact items_ubusMsgSend (inv.bounds cl (List.mem_of_getElem? isClient)) noItems
    (notQueued isLeaving)

theorem sendNew {receiver : Nat} {shared : Bool} {hdr : UbusMsghdr}
    {data : List UInt8} {result : WriteResult} {alloc : Bool}
    (inv : OwnersInv loose state)
    (notQueued : state.NotQueued receiver
      ⟨if shared then .shared else .owned 1, hdr, data⟩ result alloc)
    (taken : state.sendNew receiver shared hdr data result alloc = some next) :
    OwnersInv loose next := by
  rw [MsgOwners.sendNew] at taken
  obtain ⟨sent, isSent, isNext⟩ := Option.map_eq_some_iff.mp taken
  have made := inv.create hdr data shared
  have isNew := @MsgStore.heap_ubusMsgNew_self state.store hdr data shared
  have sentInv := made.send
    (made.counted.live List.mem_cons_self) (isNew ▸ notQueued) isSent
  rw [← isNext]
  exact sentInv.free

/-! ## Steps -/

/-- A client takes references or gives them away. -/
theorem replace (inv : OwnersInv loose state)
    (isClient : state.clients[client]? = some (some cl)) (idle : state.frame = none)
    (after : MsgClient) (bounds : after.tx.txQueue.InBounds)
    {looseAfter : List MsgId}
    (same : (loose ++ cl.holds).Perm (looseAfter ++ after.holds)) :
    OwnersInv looseAfter
      { state with clients := state.clients.set client (some after) } := by
  obtain ⟨rest, before, behind⟩ := holders_perm isClient (some after)
  refine ⟨inv.counted.perm ?_, fun other member => ?_, fun other isLeaving => ?_⟩
  · refine (before.append_left loose).trans ?_
    rw [← List.append_assoc]
    refine (same.append_right rest).trans ?_
    rw [List.append_assoc]
    exact (behind.append_left looseAfter).symm
  · rcases List.mem_or_eq_of_mem_set member with old | new
    · exact inv.bounds other old
    · cases new
      exact bounds
  · rw [show state.frame = some (.leaving other) from isLeaving] at idle
    cases idle

theorem live_pending {ub : MsgId} {tx : UbusClient}
    (inv : OwnersInv loose state)
    (isClient : state.clients[client]? = some (some ⟨tx, some ub⟩)) :
    0 < state.store.refs ub := by
  obtain ⟨rest, before, _⟩ := holders_perm isClient none
  refine inv.counted.live (List.mem_append_right loose (before.symm.subset ?_))
  exact List.mem_append_left rest (List.mem_append_right _ (List.mem_singleton_self ub))

/-- The handler takes a reference. -/
theorem serveBegin {ub : MsgId} (inv : OwnersInv (ub :: loose) state)
    (idle : state.frame = none) (type : UInt8) :
    OwnersInv loose { state with frame := some (.serving client ub type) } := by
  refine ⟨inv.counted.perm ?_, inv.bounds, nofun⟩
  rw [holders, holders, idle]
  exact List.perm_middle.symm.trans
    (List.Perm.append_left loose List.perm_middle.symm)

theorem eventBegin (inv : OwnersInv (id :: loose) state)
    (noEvent : state.event = none) :
    OwnersInv loose { state with event := some id } := by
  refine ⟨inv.counted.perm ?_, inv.bounds, inv.leaving⟩
  rw [holders, holders, noEvent]
  refine List.perm_middle.symm.trans (List.Perm.append_left loose ?_)
  refine List.perm_middle.symm.trans (List.Perm.append_left _ ?_)
  exact List.perm_middle.symm

theorem accept {receiver : Nat} {hdr : UbusMsghdr} {data : List UInt8}
    {result : WriteResult} {alloc : Bool} (inv : OwnersInv [] state)
    (idle : state.frame = none)
    (taken : { state with
      clients := state.clients ++ [some MsgClient.fresh] }.sendNew receiver true hdr
        data result alloc = some next) : OwnersInv [] next := by
  have made : OwnersInv []
      { state with clients := state.clients ++ [some .fresh] } := by
    refine ⟨inv.counted.perm (List.Perm.of_eq ?_), fun cl member => ?_,
      fun client isLeaving => ?_⟩
    · have noItems : MsgClient.fresh.holds = [] :=
        List.append_eq_nil_iff.mpr ⟨Ring.items_empty, rfl⟩
      rw [holders, holders, List.flatMap_append, List.flatMap_singleton,
        Option.elim_some, noItems, List.append_nil]
    · rcases List.mem_append.mp member with old | new
      · exact inv.bounds cl old
      · rw [List.mem_singleton, Option.some.injEq] at new
        rw [new]
        exact ⟨Nat.zero_lt_succ _, Nat.zero_lt_succ _⟩
    · rw [show state.frame = some (.leaving client) from isLeaving] at idle
      cases idle
  exact made.sendNew (fun isLeaving => by
    rw [show state.frame = some (.leaving receiver) from isLeaving] at idle
    cases idle) taken

theorem header {tx : UbusClient} (inv : OwnersInv [] state)
    (idle : state.frame = none)
    (isClient : state.clients[client]? = some (some ⟨tx, none⟩))
    (hdr : UbusMsghdr) (data : List UInt8) :
    OwnersInv []
      { state with
        store := state.store.ubusMsgNew hdr data false
        clients := state.clients.set client (some ⟨tx, some state.store.next⟩) } := by
  have made := inv.create hdr data false
  refine made.replace isClient idle ⟨tx, some state.store.next⟩
    (made.bounds ⟨tx, none⟩ (List.mem_of_getElem? isClient)) ?_
  show (state.store.next :: (tx.txQueue.items ++ [])).Perm
    (tx.txQueue.items ++ [state.store.next])
  exact List.perm_middle.symm

theorem message {ub : MsgId} {tx : UbusClient} (inv : OwnersInv [] state)
    (idle : state.frame = none)
    (isClient : state.clients[client]? = some (some ⟨tx, some ub⟩))
    (change : UbusMsghdr × List UInt8 → UbusMsghdr × List UInt8)
    (hdr : UbusMsghdr) (type : UInt8) :
    OwnersInv []
      { state.rewrite ub change with
        store := (state.rewrite ub change).store.setRetmsgHdr hdr
        clients := state.clients.set client (some ⟨tx, none⟩)
        frame := some (.serving client ub type) } := by
  have received := inv.rewrite (inv.live_pending isClient) change
  have prepared : OwnersInv []
      { state.rewrite ub change with
        store := (state.rewrite ub change).store.setRetmsgHdr hdr } :=
    ⟨received.counted.write received.live_retmsg _ _, received.bounds,
      received.leaving⟩
  have given : (tx.txQueue.items ++ [ub]).Perm
      (ub :: (tx.txQueue.items ++ [])) := List.perm_middle
  have taken := @replace _ _ _ _ prepared isClient idle ⟨tx, none⟩
    (inv.bounds ⟨tx, some ub⟩ (List.mem_of_getElem? isClient)) [ub] given
  exact taken.serveBegin idle type

theorem status {ub : MsgId} {type : UInt8} {ret : UInt32} {result : WriteResult}
    {alloc : Bool} (inv : OwnersInv [] state)
    (isFrame : state.frame = some (.serving client ub type))
    (taken : { { state.free ub with frame := none } with
      store := (state.free ub).store.setRetmsgData ret }.send client retmsg result
        alloc = some next) : OwnersInv [] next := by
  have ended : OwnersInv [] { state.free ub with frame := none } :=
    (inv.serveEnd isFrame).free
  have written : OwnersInv []
      { { state.free ub with frame := none } with
        store := (state.free ub).store.setRetmsgData ret } :=
    ⟨ended.counted.write ended.live_retmsg _ _, ended.bounds, ended.leaving⟩
  exact written.send written.live_retmsg nofun taken

theorem disconnect (inv : OwnersInv [] state) (idle : state.frame = none)
    (nothing : ∀ cl, state.clients[client]? = some (some cl) →
      cl.pendingMsg = none ∧ cl.tx.txQueue.Gapless) {drained : MsgOwners}
    (taken : state.onClient client handleClientDisconnect = some drained) :
    OwnersInv [] { drained with frame := some (.leaving client) } := by
  obtain ⟨cl, isClient, isDrained⟩ := onClient_eq_some taken
  obtain ⟨noPending, gapless⟩ := nothing cl isClient
  have bounds := inv.bounds cl (List.mem_of_getElem? isClient)
  have after := inv.onClient isClient (fun rest counted => counted.disconnect)
    fun isLeaving => absurd isLeaving (by rw [idle]; exact nofun)
  rw [← isDrained] at after
  refine ⟨after.counted.perm (List.Perm.of_eq ?_), after.bounds, ?_⟩
  · rw [isDrained, holders, holders, idle]
    rfl
  · rintro _ ⟨⟩
    refine ⟨{ cl with tx := (handleClientDisconnect state.store cl.tx).2 }, ?_, ?_⟩
    · rw [isDrained]
      exact List.getElem?_set_self (List.getElem?_eq_some_iff.mp isClient).1
    · exact List.append_eq_nil_iff.mpr
        ⟨ClientCounted.dequeueAll_nil _ _ _ bounds gapless
          (Ring.length_items_le _), by rw [noPending]; rfl⟩

theorem freeClient (inv : OwnersInv [] state)
    (isFrame : state.frame = some (.leaving client)) :
    OwnersInv []
      { state with
        clients := state.clients.set client none
        frame := none } := by
  obtain ⟨cl, isClient, empty⟩ := inv.leaving client isFrame
  obtain ⟨rest, before, after⟩ := holders_perm isClient none
  rw [empty] at before
  refine ⟨inv.counted.perm (before.trans (after.symm.trans (List.Perm.of_eq ?_))),
    fun other member => ?_, nofun⟩
  · rw [holders, holders, isFrame]
    rfl
  · rcases List.mem_or_eq_of_mem_set member with old | new
    · exact inv.bounds other old
    · cases new

theorem step (inv : OwnersInv [] state) {action : OwnerAction}
    (permitted : state.LeavesNothing action)
    (taken : state.step action = some next) : OwnersInv [] next := by
  cases action with
  | accept id result alloc =>
      simp only [MsgOwners.step] at taken
      split at taken
      · rename_i idle
        exact inv.accept idle taken
      · cases taken
  | writable client results =>
      simp only [MsgOwners.step] at taken
      split at taken
      · rename_i idle
        split at taken
        · cases taken
        · obtain ⟨cl, isClient, isNext⟩ := onClient_eq_some taken
          rw [isNext]
          exact inv.onClient isClient
            (fun rest counted => counted.clientCbTx results _ _) fun isLeaving =>
              absurd isLeaving (by rw [idle]; exact nofun)
      · cases taken
  | header client hdr data =>
      simp only [MsgOwners.step] at taken
      split at taken
      · rename_i tx idle isClient
        cases taken
        exact inv.header idle isClient hdr data
      · cases taken
  | message client data =>
      simp only [MsgOwners.step] at taken
      split at taken
      · rename_i tx ub idle isClient
        cases taken
        exact inv.message idle isClient _ _ _
      · cases taken
  | sendPong result alloc =>
      simp only [MsgOwners.step] at taken
      split at taken
      · rename_i client ub type isFrame
        split at taken
        · have live := inv.live_served isFrame
          have rewritten := inv.rewrite live fun (hdr, data) =>
            ({ hdr with type := UbusMsgType.data.code }, data)
          exact rewritten.send (rewritten.live_served isFrame)
            (fun isLeaving => nomatch isFrame.symm.trans isLeaving) taken
        · cases taken
      · cases taken
      · cases taken
  | handleResponse receiver peer result alloc =>
      simp only [MsgOwners.step] at taken
      split at taken
      · rename_i client ub type isFrame
        split at taken
        · cases taken
        · obtain ⟨sent, isSent, isNext⟩ := Option.map_eq_some_iff.mp taken
          have rewritten := inv.rewrite (inv.live_served isFrame)
            fun (hdr, data) => ({ hdr with peer := peer }, data)
          have sentInv := rewritten.send (rewritten.live_served isFrame)
            (fun isLeaving => nomatch isFrame.symm.trans isLeaving) isSent
          rw [← isNext]
          exact (sentInv.serveEnd ((send_frame isSent).trans isFrame)).free
      · cases taken
      · cases taken
  | sendMsg receiver shared hdr data result alloc =>
      simp only [MsgOwners.step] at taken
      split at taken
      · exact inv.sendNew permitted taken
      · cases taken
  | fillEvent data =>
      simp only [MsgOwners.step] at taken
      split at taken
      · rename_i noEvent
        cases taken
        exact (inv.create _ data true).eventBegin noEvent
      · cases taken
  | sendEventMsg receiver seq data result alloc =>
      simp only [MsgOwners.step] at taken
      split at taken
      · rename_i ub isEvent
        have rewritten := inv.rewrite (inv.live_event isEvent)
          fun (hdr, _) => ({ hdr with seq := seq }, data)
        refine rewritten.send (rewritten.live_event isEvent) ?_ taken
        rw [MsgOwners.rewrite, MsgStore.write_self]
        exact permitted ub isEvent
      · cases taken
  | freeEvent =>
      simp only [MsgOwners.step] at taken
      split at taken
      · rename_i ub isEvent
        cases taken
        exact (inv.eventEnd isEvent).free
      · cases taken
  | freeMsg =>
      simp only [MsgOwners.step] at taken
      split at taken
      · rename_i client ub type isFrame _
        split at taken
        · cases taken
          exact (inv.serveEnd isFrame).free
        · cases taken
      · cases taken
  | status ret result alloc =>
      simp only [MsgOwners.step] at taken
      split at taken
      · rename_i client ub type isFrame _
        split at taken
        · exact inv.status isFrame taken
        · cases taken
      · cases taken
  | disconnect client =>
      simp only [MsgOwners.step] at taken
      split at taken
      · rename_i idle
        obtain ⟨drained, isDrained, isNext⟩ := Option.map_eq_some_iff.mp taken
        rw [← isNext]
        exact inv.disconnect idle permitted isDrained
      · cases taken
  | freeClient =>
      simp only [MsgOwners.step] at taken
      split at taken
      · rename_i client isFrame _
        cases taken
        exact inv.freeClient isFrame
      · cases taken

theorem init : OwnersInv [] owners.init := by
  have noBuffer : MsgStore.empty.Counted [] :=
    ⟨MsgStore.Accounted.empty, fun _ _ => rfl⟩
  exact ⟨noBuffer.ubusMsgNew _ _ _, nofun, nofun⟩

theorem refsCounted (inv : OwnersInv [] state) : state.RefsCounted := by
  have counts : ∀ id, state.store.refs id = state.holders.count id := fun id =>
    (inv.counted.accounted.refs id).trans (Nat.zero_add _)
  refine ⟨counts, fun id => ⟨fun isFreed => ?_, fun none => ?_⟩⟩
  · rw [← counts, MsgStore.refs, isFreed]
    rfl
  · exact inv.counted.freed id ((counts id).trans none)

end OwnersInv

end MsgOwners

open MsgOwners

/-- As long as disconnected clients leave nothing, all references are counted in
every state. -/
theorem owners_refsCounted {actions : List OwnerAction} {state : MsgOwners}
    (reached : owners.run actions = some state)
    (meets : owners.Meets LeavesNothing owners.init actions) :
    state.RefsCounted := by
  have inv : OwnersInv [] state :=
    Machine.invariant_of_permitted OwnersInv.init
      (fun _ _ _ inv permitted taken => inv.step permitted taken) meets reached
  exact inv.refsCounted

/-- A client asks for an unknown object and leaves. -/
def asksAndLeaves : List OwnerAction :=
  [.accept 1 (.wrote 12) true,
    .header 0 ⟨0, UbusMsgType.lookup.code, 1, 0⟩ (be32Bytes 4),
    .message 0 [], .status 4 .again true, .disconnect 0, .freeClient]

theorem owners_refsCounted_leaving :
    ∃ state, owners.run asksAndLeaves = some state ∧ state.RefsCounted := by
  refine ⟨_, rfl, @owners_refsCounted asksAndLeaves _ rfl ?_⟩
  apply Machine.Meets.cons trivial rfl
  apply Machine.Meets.cons trivial rfl
  apply Machine.Meets.cons trivial rfl
  apply Machine.Meets.cons trivial rfl
  apply Machine.Meets.cons
  · rintro cl ⟨⟩
    exact ⟨rfl, by decide⟩
  · rfl
  · exact Machine.Meets.cons trivial rfl trivial

/-- A client leaves while a message of it is being received. -/
theorem owners_leaks_pendingMsg :
    ∃ state,
      owners.run
          [.accept 1 (.wrote 12) true,
            .header 0 ⟨0, UbusMsgType.lookup.code, 1, 0⟩ (be32Bytes 12),
            .disconnect 0, .freeClient] = some state ∧
        state.clients = [none] ∧ ¬ state.RefsCounted := by
  refine ⟨_, rfl, rfl, fun counted => ?_⟩
  have isCount := counted.refs 2
  revert isCount
  decide

end LibubusJni.Ubusd
