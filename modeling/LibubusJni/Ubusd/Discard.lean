import LibubusJni.Ubusd.Flow

/-!
# What `ubus_msg_send` discards

A message is meant to be dropped only when all slots of the queue are taken.
The direct write of `ubus_msg_send` and the copy of a shared message lose others
as well.
-/

namespace LibubusJni.Ubusd

open LibubusJni.Lib

/-- `sendmsg` returns minus one. -/
def WriteResult.isError : WriteResult → Bool
  | .wrote _ => false
  | .again | .failed => true

/-- Every slot of the queue holds a message. -/
def UbusClient.Occupied (cl : UbusClient) : Prop :=
  ∀ slot < ubusdClientBacklog, (cl.txQueue.slots slot).isSome = true

/-- The bytes of a message that `ubus_msg_send` itself puts on the socket. -/
def directBytes (cl : UbusClient) (ub : UbusMsgBuf) (result : WriteResult) :
    List UInt8 :=
  if cl.txQueue.head.isSome then []
  else (ubusMsgWritev ub 0 result).getD []

/-- The message went to the socket as a whole. -/
structure Written (cl : UbusClient) (ub : UbusMsgBuf) (next : UbusClient) :
    Prop where
  socket : next.socket = cl.socket ++ ub.image
  queue : next.txQueue = cl.txQueue

/-- The message is behind the others in the queue, and what was written of it
is known: `txq_ofs` is about the first message of the queue, and of a message
behind it nothing was written. -/
structure Stored (cl : UbusClient) (ub : UbusMsgBuf) (result : WriteResult)
    (next : MsgStore × UbusClient) : Prop where
  socket : next.2.socket = cl.socket ++ directBytes cl ub result
  slot : cl.txQueue.full = false ∧
    ∃ copy, next.2.txQueue = cl.txQueue.put (some copy) ∧
      (next.1.heap copy).image.drop (directBytes cl ub result).length =
        ub.image.drop (directBytes cl ub result).length
  offset : next.2.txqOfs =
    if cl.txQueue.head.isSome then cl.txqOfs
    else (directBytes cl ub result).length

/-- Only a full queue is a reason to drop a message. -/
def NotDiscarded (cl : UbusClient) (ub : UbusMsgBuf) (result : WriteResult)
    (next : MsgStore × UbusClient) : Prop :=
  Written cl ub next.2 ∨ Stored cl ub result next ∨ cl.Occupied

/-- The bytes of a buffer behind the first ones survive `ubus_msg_ref`. -/
def Copied (ub : UbusMsgBuf) (already : Nat) (alloc : Bool) : Prop :=
  ub.refcount = .shared →
    alloc = true ∧
      ub.hdr.bytes.drop already = UbusMsghdr.zero.bytes.drop already

/-- Nothing is lost but for a full queue: the socket takes the whole message,
or the direct write is not refused, the slot to fill is free and holds the rest
of the message. -/
def KeepsMessage (cl : UbusClient) (ub : UbusMsgBuf) (result : WriteResult)
    (alloc : Bool) : Prop :=
  cl.Occupied ∨ directBytes cl ub result = ub.image ∨
    (¬ (cl.txQueue.head = none ∧ result.isError = true) ∧
      cl.txQueue.full = false ∧
      Copied ub (directBytes cl ub result).length alloc)

/-- No copy of a shared message fails. -/
def CopiesAllocated (_ : Daemon) : TransmitAction → Prop
  | .effect (.send _ _ _ alloc _) => alloc = true
  | _ => True

section Sends

variable {store : MsgStore} {cl : UbusClient} {id : MsgId}
variable {result : WriteResult} {alloc status : Bool}

theorem drop_image (hdr : UbusMsghdr) (refcount : Refcount)
    (data : List UInt8) (already : Nat) :
    (UbusMsgBuf.image ⟨refcount, hdr, data⟩).drop already =
      hdr.bytes.drop already ++ data.drop (already - 8) := by
  rw [UbusMsgBuf.image, List.drop_append, UbusMsghdr.length_bytes]

/-- The reference that a slot gets. -/
theorem ubusMsgRef_copied_iff (already : Nat) :
    (∃ copy, (store.ubusMsgRef id alloc).2 = some copy ∧
      ((store.ubusMsgRef id alloc).1.heap copy).image.drop already =
        (store.heap id).image.drop already) ↔
      Copied (store.heap id) already alloc := by
  rw [Copied]
  cases counted : (store.heap id).refcount with
  | owned count =>
      simp only [MsgStore.ubusMsgRef, counted, Option.some.injEq,
        exists_eq_left', MsgStore.write_self, reduceCtorEq, false_implies,
        iff_true]
      rfl
  | shared =>
      cases alloc with
      | false =>
          simp [MsgStore.ubusMsgRef, counted]
      | true =>
          simp only [MsgStore.ubusMsgRef, counted, if_true,
            Option.some.injEq, exists_eq_left',
            MsgStore.heap_ubusMsgNew_self, true_implies, true_and]
          rw [drop_image, show store.heap id =
            ⟨(store.heap id).refcount, (store.heap id).hdr,
              (store.heap id).data⟩ from rfl, drop_image]
          dsimp only
          rw [List.append_cancel_right_eq]
          exact eq_comm

/-- A slot tells what was put into it. -/
theorem put_injective {ring : Ring ubusdClientBacklog MsgId}
    {first second : Option MsgId} (same : ring.put first = ring.put second) :
    first = second := by
  have slots := congrArg (fun next => next.slots ring.tail) same
  simpa only [Ring.put, Function.update_self] using slots

/-- A message that gets to the queue is stored if its copy is made. -/
theorem stored_ubusMsgEnqueue_iff {waiting : UbusClient}
    (room : cl.txQueue.full = false)
    (sameQueue : waiting.txQueue = cl.txQueue)
    (socket : waiting.socket =
      cl.socket ++ directBytes cl (store.heap id) result)
    (offset : waiting.txqOfs = if cl.txQueue.head.isSome then cl.txqOfs
      else (directBytes cl (store.heap id) result).length) :
    Stored cl (store.heap id) result
        (ubusMsgEnqueue store waiting id alloc status) ↔
      Copied (store.heap id)
        (directBytes cl (store.heap id) result).length alloc := by
  have notFull : ¬ waiting.txQueue.full = true := by
    rw [sameQueue, room]
    exact Bool.false_ne_true
  rw [ubusMsgEnqueue, if_neg notFull, ← ubusMsgRef_copied_iff]
  constructor
  · intro stored
    obtain ⟨copy, isPut, same⟩ := stored.slot.2
    rw [sameQueue] at isPut
    exact ⟨copy, put_injective isPut, same⟩
  · rintro ⟨copy, isCopy, same⟩
    exact
      { socket := socket
        slot := ⟨room, copy, by
          rw [sameQueue]
          exact congrArg cl.txQueue.put isCopy, same⟩
        offset := offset }

/-- A message that gets to the queue is not discarded if it is stored, or if
all slots are taken. -/
theorem notDiscarded_ubusMsgEnqueue_iff {waiting : UbusClient}
    (sameQueue : waiting.txQueue = cl.txQueue)
    (socket : waiting.socket =
      cl.socket ++ directBytes cl (store.heap id) result)
    (offset : waiting.txqOfs = if cl.txQueue.head.isSome then cl.txqOfs
      else (directBytes cl (store.heap id) result).length)
    (partly : directBytes cl (store.heap id) result ≠ (store.heap id).image)
    (accepted : ¬ (cl.txQueue.head = none ∧ result.isError = true)) :
    NotDiscarded cl (store.heap id) result
        (ubusMsgEnqueue store waiting id alloc status) ↔
      KeepsMessage cl (store.heap id) result alloc := by
  have notWritten : ¬ Written cl (store.heap id)
      (ubusMsgEnqueue store waiting id alloc status).2 := by
    intro written
    have stays : (ubusMsgEnqueue store waiting id alloc status).2.socket =
        waiting.socket := by
      rw [ubusMsgEnqueue]
      split <;> rfl
    have same := written.socket
    rw [stays, socket, List.append_cancel_left_eq] at same
    exact partly same
  rw [NotDiscarded, KeepsMessage]
  cases isFull : cl.txQueue.full with
  | true =>
      have notStored : ¬ Stored cl (store.heap id) result
          (ubusMsgEnqueue store waiting id alloc status) := by
        intro stored
        rw [stored.slot.1] at isFull
        cases isFull
      simp [notWritten, notStored, partly]
  | false =>
      rw [stored_ubusMsgEnqueue_iff isFull sameQueue socket offset]
      simp only [notWritten, partly, accepted, false_or, not_false_eq_true,
        true_and]
      exact or_comm

/-- A direct write that is not refused is complete when it wrote the whole
message. -/
theorem complete_iff
    (accepted : result.isError = false)
    (fits : (store.heap id).data.length < 2 ^ 31) :
    (store.heap id).data.length + sizeofMsghdr ≤
        sizeT (directWritten (store.heap id) result) ↔
      (ubusMsgWritev (store.heap id) 0 result).getD [] =
        (store.heap id).image := by
  cases result with
  | again =>
      cases accepted
  | failed =>
      cases accepted
  | wrote count =>
      constructor
      · intro complete
        exact @ubusMsgWritev_complete _ (.wrote count) _ rfl complete
      · intro whole
        have lengthEq : directWritten (store.heap id) (.wrote count) =
            ((ubusMsgWritev (store.heap id) 0 (.wrote count)).getD
              []).length := rfl
        rw [lengthEq, whole, UbusMsgBuf.length_image, sizeT, sizeofMsghdr]
        omega

/-- What is stored takes a slot. -/
theorem Stored.takes {next : MsgStore × UbusClient}
    (stored : Stored cl (store.heap id) result next) :
    next.2.txQueue ≠ cl.txQueue := by
  intro same
  obtain ⟨free, copy, isPut, _⟩ := stored.slot
  have slots := congrArg (fun ring => ring.slots cl.txQueue.tail)
    (same.symm.trans isPut)
  rw [Ring.full] at free
  dsimp only [Ring.put] at slots
  rw [slots, Function.update_self] at free
  cases free

theorem image_ne_nil (ub : UbusMsgBuf) : [] ≠ ub.image := by
  intro none
  have lengths := congrArg List.length none
  rw [UbusMsgBuf.length_image, List.length_nil] at lengths
  omega

/-- Minus one counts as complete. -/
theorem sizeT_directWritten_of_isError
    (isError : result.isError = true)
    (fits : (store.heap id).data.length < 2 ^ 31) :
    (store.heap id).data.length + sizeofMsghdr ≤
      sizeT (directWritten (store.heap id) result) := by
  have minusOne : directWritten (store.heap id) result = -1 := by
    cases result with
    | wrote count =>
        cases isError
    | again =>
        rfl
    | failed =>
        rfl
  rw [minusOne, sizeT, sizeofMsghdr]
  omega

/-- `ubus_msg_send` discards no message but for a full queue if and only if
the slot to fill is free, the socket does not refuse the direct write and the
copy of a shared message is complete. -/
theorem notDiscarded_iff (fits : (store.heap id).data.length < 2 ^ 31) :
    NotDiscarded cl (store.heap id) result
        (ubusMsgSend store cl id result alloc status) ↔
      KeepsMessage cl (store.heap id) result alloc := by
  rw [ubusMsgSend]
  cases headEq : cl.txQueue.head with
  | some first =>
      have nothing : directBytes cl (store.heap id) result = [] := by
        rw [directBytes, headEq]
        rfl
      apply notDiscarded_ubusMsgEnqueue_iff rfl
      · rw [nothing, List.append_nil]
      · rw [headEq]
        rfl
      · rw [nothing]
        exact image_ne_nil _
      · rw [headEq]
        exact fun impossible => by cases impossible.1
  | none =>
      dsimp only
      have direct : directBytes cl (store.heap id) result =
          (ubusMsgWritev (store.heap id) 0 result).getD [] := by
        rw [directBytes, headEq]
        rfl
      cases isError : result.isError with
      | true =>
          have noBytes : ubusMsgWritev (store.heap id) 0 result = none := by
            cases result with
            | wrote count =>
                cases isError
            | again =>
                rfl
            | failed =>
                rfl
          have nothing : directBytes cl (store.heap id) result = [] := by
            rw [direct, noBytes, Option.getD_none]
          rw [if_pos (sizeT_directWritten_of_isError isError fits), noBytes,
            NotDiscarded, KeepsMessage]
          constructor
          · intro kept
            rcases kept with written | stored | occupied
            · have same := written.socket
              dsimp only [Option.isSome_none, Option.getD_none] at same
              rw [if_neg Bool.false_ne_true, List.append_cancel_left_eq]
                at same
              exact absurd same (image_ne_nil _)
            · exact absurd rfl stored.takes
            · exact Or.inl occupied
          · intro keeps
            rcases keeps with occupied | whole | ⟨accepted, _⟩
            · exact Or.inr (Or.inr occupied)
            · rw [nothing] at whole
              exact absurd whole (image_ne_nil _)
            · exact absurd ⟨headEq, isError⟩ accepted
      | false =>
          by_cases complete : (store.heap id).data.length + sizeofMsghdr ≤
              sizeT (directWritten (store.heap id) result)
          · have whole := (complete_iff isError fits).mp complete
            rw [if_pos complete, whole]
            refine ⟨fun _ => ?_, fun _ => ?_⟩
            · exact Or.inr (Or.inl (direct.trans whole))
            · refine Or.inl { socket := ?_, queue := ?_ }
              · dsimp only
                split <;> rfl
              · dsimp only
                split <;> rfl
          · rw [if_neg complete]
            have partly := mt (complete_iff isError fits).mpr complete
            obtain ⟨isPart, within⟩ :=
              ubusMsgWritev_direct (store.heap id) result
            refine @notDiscarded_ubusMsgEnqueue_iff store cl id result alloc
              status _ ?_ ?_ ?_ ?_ ?_
            · rfl
            · rw [direct]
            · rw [headEq, direct, isPart, List.length_take,
                Nat.min_eq_left within]
              rfl
            · rw [direct]
              exact partly
            · rw [isError]
              exact fun impossible => by cases impossible.2

end Sends

/-- What the queues of a run without a failed copy hold stays without a gap. -/
theorem DaemonInv.step_of_copies {daemon next : Daemon}
    (inv : DaemonInv (fun _ => False) daemon) {action : TransmitAction}
    (allocated : CopiesAllocated daemon action)
    (taken : daemon.step action = some next) :
    DaemonInv (fun _ => False) next := by
  cases action with
  | accept =>
      rw [Daemon.step, Option.some.injEq] at taken
      subst taken
      exact inv.accept
  | effect effect =>
      have permitted : EffectPermitted (fun _ => False) daemon effect := by
        cases effect with
        | create shared hdr data =>
            exact trivial
        | release id =>
            exact trivial
        | send client id result alloc free =>
            exact fun _ _ _ _ _ => ⟨allocated, False.elim⟩
      exact (inv.effect permitted taken).inv
  | writable client results =>
      exact (inv.writable taken).inv
  | disconnect client =>
      exact (inv.disconnect taken).inv

/-- In a queue without a gap the slot to fill is the last one to be taken. -/
theorem occupied_of_full {cl : UbusClient} {queue : List MsgId}
    (holds : cl.txQueue.Holds queue) (isFull : cl.txQueue.full = true) :
    cl.Occupied := by
  have whole := holds.full_iff.mp isFull
  intro slot below
  obtain ⟨offset, offsetBelow, isSlot⟩ :
      ∃ offset < ubusdClientBacklog,
        (cl.txQueue.cur + offset) % ubusdClientBacklog = slot := by
    have curBelow : cl.txQueue.cur < 32 := holds.cur
    have slotBelow : slot < 32 := below
    refine ⟨(slot + 32 - cl.txQueue.cur) % 32, Nat.mod_lt _ (by decide), ?_⟩
    show (cl.txQueue.cur + (slot + 32 - cl.txQueue.cur) % 32) % 32 = slot
    omega
  rw [← isSlot, holds.slots offset offsetBelow,
    List.getElem?_eq_getElem (whole.symm ▸ offsetBelow)]
  rfl

/-- Whatever the state of the client and the message, `ubus_msg_send` either
writes or stores the message, or the queue is full, if and only if
`KeepsMessage` holds; and unless a copy of a shared message could not be
allocated, the slot to fill is taken only when all slots are. -/
theorem ubusMsgSend_notDiscarded_iff
    (store : MsgStore) (cl : UbusClient) (id : MsgId) (result : WriteResult)
    (alloc status : Bool) (fits : (store.heap id).data.length < 2 ^ 31) :
    (NotDiscarded cl (store.heap id) result
        (ubusMsgSend store cl id result alloc status) ↔
      KeepsMessage cl (store.heap id) result alloc) ∧
      ∀ (actions : List TransmitAction) (daemon : Daemon),
        transmitter.Meets CopiesAllocated transmitter.init actions →
          transmitter.run actions = some daemon →
            ∀ cl ∈ daemon.clients,
              cl.txQueue.full = true → cl.Occupied := by
  refine ⟨notDiscarded_iff fits, fun actions daemon allocated reached cl member
    isFull => ?_⟩
  have inv : DaemonInv (fun _ => False) daemon :=
    Machine.invariant_of_permitted DaemonInv.init
      (fun _ _ _ holds copies taken => holds.step_of_copies copies taken)
      allocated reached
  exact occupied_of_full (inv.clients cl member).ring isFull

/-- The first buffer, which is not shared. -/
def oneMessage : MsgStore :=
  MsgStore.empty.ubusMsgNew ⟨0, 2, 7, 9⟩ [0, 0, 0, 4] false

/-- Two bytes are written directly, and the client keeps the rest. -/
theorem ubusMsgSend_notDiscarded_iff_partial :
    NotDiscarded .fresh (oneMessage.heap 0) (.wrote 2)
        (ubusMsgSend oneMessage .fresh 0 (.wrote 2) true false) ∧
      ∃ daemon, transmitter.run [.accept] = some daemon ∧
        ∀ cl ∈ daemon.clients, cl.txQueue.full = true → cl.Occupied := by
  have both := ubusMsgSend_notDiscarded_iff oneMessage .fresh 0 (.wrote 2) true
    false (by decide)
  constructor
  · refine both.1.mpr (Or.inr (Or.inr ⟨?_, rfl, ?_⟩))
    · exact fun refused => nomatch refused.2
    · exact fun shared => nomatch shared
  · exact ⟨_, rfl, both.2 [.accept] _ (Machine.Meets.cons trivial rfl trivial)
      rfl⟩

/-- The queue of a new client is empty, `sendmsg` reports `EAGAIN`, and the
message is neither written nor stored. -/
theorem ubusMsgSend_discards :
    (ubusMsgSend oneMessage .fresh 0 .again true false).2.socket = [] ∧
      (ubusMsgSend oneMessage .fresh 0 .again true false).2.txQueue.contents =
        [] ∧
      ¬ NotDiscarded .fresh (oneMessage.heap 0) .again
        (ubusMsgSend oneMessage .fresh 0 .again true false) := by
  refine ⟨by decide, by decide, ?_⟩
  intro kept
  rcases kept with written | stored | occupied
  · have socket := written.socket
    revert socket
    decide
  · exact stored.takes (by rfl)
  · exact absurd (occupied 0 (by decide)) (by decide)

end LibubusJni.Ubusd
