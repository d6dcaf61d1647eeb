import LibubusJni.Lib.Machine
import LibubusJni.Lib.Ring
import LibubusJni.Ubusd.MsgBuf
import Mathlib.Data.List.Perm.Basic

/-!
# Sending: `ubus_msg_send`, `ubus_msg_enqueue` and the write loop of `client_cb`

`socket` holds the bytes that were put on the socket of a client, and `sent`
the messages that were sent to it and not dropped, as they were at the time of
`ubus_msg_send`.  A message is dropped when the queue is full, and when the
direct write fails: `written` is compared as a `size_t`, so minus one counts as
complete.
-/

namespace LibubusJni.Ubusd

open LibubusJni.Lib

/-- `UBUSD_CLIENT_BACKLOG`. -/
def ubusdClientBacklog : Nat := 32

/-- A message as it was when it was sent; `status` marks those of the static
`retmsg`. -/
structure SentMsg where
  image : List UInt8
  status : Bool
  deriving DecidableEq, Repr

/-- The sending side of `struct ubus_client`. -/
structure UbusClient where
  txQueue : Ring ubusdClientBacklog MsgId
  txqOfs : Nat
  connected : Bool
  socket : List UInt8
  sent : List SentMsg

/-- What `calloc` makes of a new client. -/
def UbusClient.fresh : UbusClient := ⟨Ring.empty, 0, true, [], []⟩

/-- An `int` in a comparison with a `size_t`. -/
def sizeT (value : Int) : Nat := (value % 2 ^ 64).toNat

/-- `ubus_msg_enqueue`. -/
def ubusMsgEnqueue (store : MsgStore) (cl : UbusClient) (id : MsgId)
    (alloc status : Bool) : MsgStore × UbusClient :=
  if cl.txQueue.full then (store, cl)
  else
    let (after, ref) := store.ubusMsgRef id alloc
    (after,
      { cl with
        txQueue := cl.txQueue.put ref
        sent := cl.sent ++ [⟨store.image id, status⟩] })

/-- `written` behind the direct write of `ubus_msg_send`. -/
def directWritten (ub : UbusMsgBuf) (result : WriteResult) : Int :=
  match ubusMsgWritev ub 0 result with
  | some bytes => bytes.length
  | none => -1

/-- `ubus_msg_send` up to its label `out`. -/
def ubusMsgSend (store : MsgStore) (cl : UbusClient) (id : MsgId)
    (result : WriteResult) (alloc status : Bool) : MsgStore × UbusClient :=
  match cl.txQueue.head with
  | some _ => ubusMsgEnqueue store cl id alloc status
  | none =>
      let ub := store.heap id
      let bytes := ubusMsgWritev ub 0 result
      let written := directWritten ub result
      let cl := { cl with socket := cl.socket ++ bytes.getD [] }
      if ub.data.length + sizeofMsghdr ≤ sizeT written then
        (store,
          if bytes.isSome then
            { cl with sent := cl.sent ++ [⟨ub.image, status⟩] }
          else cl)
      else
        ubusMsgEnqueue store { cl with txqOfs := written.toNat } id alloc
          status

/-- `ubus_msg_dequeue`. -/
def ubusMsgDequeue (store : MsgStore) (cl : UbusClient) :
    MsgStore × UbusClient :=
  match cl.txQueue.head with
  | none => (store, cl)
  | some id =>
      (store.ubusMsgFree id,
        { cl with txqOfs := 0, txQueue := cl.txQueue.pop })

/-- `while (ubus_msg_head(cl)) ubus_msg_dequeue(cl);` for so many slots. -/
def ubusMsgDequeueAll :
    Nat → MsgStore → UbusClient → MsgStore × UbusClient
  | 0, store, cl => (store, cl)
  | slots + 1, store, cl =>
      match cl.txQueue.head with
      | none => (store, cl)
      | some _ =>
          let (store, cl) := ubusMsgDequeue store cl
          ubusMsgDequeueAll slots store cl

/-- `handle_client_disconnect`. -/
def handleClientDisconnect (store : MsgStore) (cl : UbusClient) :
    MsgStore × UbusClient :=
  let (store, cl) := ubusMsgDequeueAll ubusdClientBacklog store cl
  (store, { cl with connected := false })

/-- The first loop of `client_cb`, with the results of its writes; a write
behind the last one would block. -/
def clientCbTx :
    List WriteResult → MsgStore → UbusClient → MsgStore × UbusClient
  | [], store, cl => (store, cl)
  | result :: results, store, cl =>
      match cl.txQueue.head with
      | none => (store, cl)
      | some id =>
          let ub := store.heap id
          match ubusMsgWritev ub cl.txqOfs result with
          | none =>
              if result = .failed then handleClientDisconnect store cl
              else (store, cl)
          | some bytes =>
              let cl :=
                { cl with
                  socket := cl.socket ++ bytes
                  txqOfs := cl.txqOfs + bytes.length }
              if cl.txqOfs < ub.data.length + sizeofMsghdr then (store, cl)
              else
                let (store, cl) := ubusMsgDequeue store cl
                clientCbTx results store cl

/-- All buffers, the references that callers hold, and all clients. -/
structure Daemon where
  store : MsgStore
  held : MsgId → Nat
  clients : List UbusClient

/-- What code outside of `ubusd.c` does with message buffers. -/
inductive MsgEffect where
  /-- `ubus_msg_new` and `ubus_msg_init`. -/
  | create (shared : Bool) (hdr : UbusMsghdr) (data : List UInt8)
  /-- `ubus_msg_send`, whose last argument is `free`. -/
  | send (client : Nat) (id : MsgId) (result : WriteResult) (alloc : Bool)
      (free : Bool)
  /-- `ubus_msg_free`. -/
  | release (id : MsgId)
  deriving DecidableEq, Repr

namespace Daemon

/-- A caller gives a reference back. -/
def release (daemon : Daemon) (id : MsgId) : Option Daemon :=
  if 0 < daemon.held id then
    some
      { daemon with
        store := daemon.store.ubusMsgFree id
        held := Function.update daemon.held id (daemon.held id - 1) }
  else none

/-- Run an operation on one connected client. -/
def onClient (daemon : Daemon) (client : Nat)
    (operation : MsgStore → UbusClient → MsgStore × UbusClient) :
    Option Daemon :=
  match daemon.clients[client]? with
  | some cl =>
      if cl.connected then
        let (store, cl) := operation daemon.store cl
        some
          { daemon with
            store := store
            clients := daemon.clients.set client cl }
      else none
  | none => none

/-- `ubus_msg_send` up to its label `out`; the caller holds the message. -/
def send (daemon : Daemon) (client : Nat) (id : MsgId)
    (result : WriteResult) (alloc status : Bool) : Option Daemon :=
  if 0 < daemon.held id then
    daemon.onClient client fun store cl =>
      ubusMsgSend store cl id result alloc status
  else none

def effect (daemon : Daemon) : MsgEffect → Option Daemon
  | .create shared hdr data =>
      some
        { daemon with
          store := daemon.store.ubusMsgNew hdr data shared
          held := Function.update daemon.held daemon.store.next 1 }
  | .send client id result alloc free =>
      match daemon.send client id result alloc false with
      | some daemon => if free then daemon.release id else some daemon
      | none => none
  | .release id => daemon.release id

end Daemon

inductive TransmitAction where
  /-- A client connects. -/
  | accept
  | effect (effect : MsgEffect)
  /-- `client_cb` is called for a socket that can be written. -/
  | writable (client : Nat) (results : List WriteResult)
  /-- `client_cb` disconnects a client. -/
  | disconnect (client : Nat)
  deriving DecidableEq, Repr

def Daemon.step (daemon : Daemon) : TransmitAction → Option Daemon
  | .accept => some { daemon with clients := daemon.clients ++ [.fresh] }
  | .effect effect => daemon.effect effect
  | .writable client results => daemon.onClient client (clientCbTx results)
  | .disconnect client => daemon.onClient client handleClientDisconnect

/-- ubusd before its first client. -/
def transmitter : Machine Daemon TransmitAction where
  init := ⟨.empty, fun _ => 0, []⟩
  step := Daemon.step

/-- How many bytes the direct write put on the socket when the message then
enters the queue; `none` if it does not enter it. -/
def enqueuedAt (cl : UbusClient) (ub : UbusMsgBuf) (result : WriteResult) :
    Option Nat :=
  if cl.txQueue.head.isSome then
    if cl.txQueue.full then none else some 0
  else if ub.data.length + sizeofMsghdr ≤ sizeT (directWritten ub result) then
    none
  else some (directWritten ub result).toNat

/-- A shared message enters a queue only when the copy can be allocated and the
header bytes that were not written yet are zero. -/
def TransmitPermitted (daemon : Daemon) : TransmitAction → Prop
  | .effect (.send client id result alloc _) =>
      ∀ cl already, daemon.clients[client]? = some cl →
        enqueuedAt cl (daemon.store.heap id) result = some already →
          (daemon.store.heap id).refcount = .shared →
            alloc = true ∧
              (daemon.store.heap id).hdr.bytes.drop already =
                UbusMsghdr.zero.bytes.drop already
  | _ => True

/-- The bytes on the socket are the first bytes of the messages sent. -/
def InSendOrder (cl : UbusClient) : Prop :=
  cl.socket <+: (cl.sent.map SentMsg.image).flatten

end LibubusJni.Ubusd
