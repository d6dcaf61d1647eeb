import LibubusJni.Ubusd.Transmit

/-!
# The stream of a client

Every message that was not dropped contributes one frame of its own length to
the stream of its client, in the order of the calls of `ubus_msg_send`.  The
bytes on the socket followed by those that the queue still holds are the
frames.  Frames of `strict` messages are the messages themselves.

`content` gives the bytes of a buffer.
-/

namespace LibubusJni.Ubusd

open LibubusJni.Lib

/-- The bytes that the queue of a client still has to write. -/
def unsent (content : MsgId → List UInt8) (cl : UbusClient) : List UInt8 :=
  (cl.txQueue.contents.flatMap content).drop cl.txqOfs

/-- A message and its frame in the stream. -/
def Carries (strict : SentMsg → Prop) (message : SentMsg)
    (frame : List UInt8) : Prop :=
  frame.length = message.image.length ∧
    (strict message → frame = message.image)

/-- The invariant of a client. -/
structure ClientInv (strict : SentMsg → Prop) (content : MsgId → List UInt8)
    (cl : UbusClient) : Prop where
  ring : cl.txQueue.Holds cl.txQueue.contents
  offset : ∀ id, cl.txQueue.head = some id →
    cl.txqOfs ≤ (content id).length
  frames : ∃ frames, List.Forall₂ (Carries strict) cl.sent frames ∧
    cl.socket ++ unsent content cl <+: frames.flatten ∧
    (cl.connected = true → cl.socket ++ unsent content cl = frames.flatten)

section Clients

variable {strict : SentMsg → Prop} {content : MsgId → List UInt8}
variable {cl : UbusClient}

theorem ClientInv.fresh : ClientInv strict content .fresh := by
  have positive : 0 < ubusdClientBacklog := by decide
  have holds := @Ring.holds_empty ubusdClientBacklog MsgId positive
  have nothing : UbusClient.fresh.txQueue.contents = [] := holds.contents
  have unsentEq : unsent content .fresh = [] := by
    rw [unsent, nothing, List.flatMap_nil, List.drop_nil]
  refine
    { ring := ?_
      offset := fun id first => nomatch first
      frames := ⟨[], List.Forall₂.nil, ?_, fun _ => ?_⟩ }
  · rw [nothing]
    exact holds
  · rw [unsentEq]
    exact List.prefix_refl _
  · rw [unsentEq]
    rfl

/-- Only the bytes of the queued buffers matter. -/
theorem unsent_congr
    {other : MsgId → List UInt8}
    (same : ∀ id ∈ cl.txQueue.contents, other id = content id) :
    unsent other cl = unsent content cl := by
  rw [unsent, unsent]
  congr 1
  exact List.flatMap_congr same

theorem ClientInv.congr
    (inv : ClientInv strict content cl) {other : MsgId → List UInt8}
    (same : ∀ id ∈ cl.txQueue.contents, other id = content id) :
    ClientInv strict other cl := by
  have unsentEq : unsent other cl = unsent content cl := unsent_congr same
  refine { ring := inv.ring, offset := fun id first => ?_, frames := ?_ }
  · have member : id ∈ cl.txQueue.contents := by
      rw [inv.ring.head] at first
      exact List.mem_of_mem_head? first
    rw [same id member]
    exact inv.offset id first
  · rw [unsentEq]
    exact inv.frames

theorem ClientInv.queue_nil
    (inv : ClientInv strict content cl) (idle : cl.txQueue.head = none) :
    cl.txQueue.contents = [] := by
  rw [inv.ring.head] at idle
  exact List.head?_eq_none_iff.mp idle

theorem unsent_nil (nothing : cl.txQueue.contents = []) :
    unsent content cl = [] := by
  rw [unsent, nothing, List.flatMap_nil, List.drop_nil]

/-- Another message follows the frames. -/
theorem Carries.snoc
    {sent : List SentMsg} {frames : List (List UInt8)}
    (carried : List.Forall₂ (Carries strict) sent frames)
    {message : SentMsg} {frame : List UInt8}
    (last : Carries strict message frame) :
    List.Forall₂ (Carries strict) (sent ++ [message]) (frames ++ [frame]) :=
  List.rel_append carried (List.Forall₂.cons last List.Forall₂.nil)

/-- A message whose first bytes were written directly and whose copy follows
from there. -/
theorem carries_copy
    {ub : UbusMsgBuf} {status : Bool} (already : Nat)
    (kept : strict ⟨ub.image, status⟩ → ub.refcount = .shared →
      ub.hdr.bytes.drop already = UbusMsghdr.zero.bytes.drop already) :
    Carries strict ⟨ub.image, status⟩
      (ub.image.take already ++ ub.queuedImage.drop already) := by
  constructor
  · rw [List.length_append, List.length_take, List.length_drop,
      ub.length_queuedImage, ub.length_image]
    omega
  · intro isStrict
    have rest : ub.queuedImage.drop already = ub.image.drop already := by
      by_cases shared : ub.refcount = .shared
      · rw [UbusMsgBuf.queuedImage, if_pos shared, UbusMsgBuf.image, List.drop_append,
          List.drop_append, kept isStrict shared, UbusMsghdr.length_bytes,
          UbusMsghdr.length_bytes]
      · rw [UbusMsgBuf.queuedImage, if_neg shared]
    rw [rest, List.take_append_drop]

/-! ## One operation on one client -/

variable {store : MsgStore}
variable {held : MsgId → Nat}

/-- What an operation on one client promises: the references still add up, the
client keeps its invariant, and buffers referenced from elsewhere keep their
bytes. -/
structure Serves (strict : SentMsg → Prop)
    (held : MsgId → Nat)
    (store : MsgStore) (out : MsgStore × UbusClient) : Prop where
  accounted : out.1.Accounted held out.2.txQueue.contents
  client : ClientInv strict out.1.image out.2
  next : store.next ≤ out.1.next
  views : ∀ id, 0 < held id → out.1.view id = store.view id

/-- Nothing happens. -/
theorem Serves.refl
    (accounted : store.Accounted held cl.txQueue.contents)
    (inv : ClientInv strict store.image cl) :
    Serves strict held store (store, cl) :=
  { accounted := accounted
    client := inv
    next := Nat.le_refl _
    views := fun _ _ => rfl }

/-- The state of a client inside `ubus_msg_send`, when `already` bytes of the
message are on the socket and are not part of a frame yet. -/
structure Sending (strict : SentMsg → Prop) (content : MsgId → List UInt8)
    (cl : UbusClient) (image : List UInt8) (already : Nat) : Prop where
  ring : cl.txQueue.Holds cl.txQueue.contents
  offset : ∀ id, cl.txQueue.head = some id →
    cl.txqOfs ≤ (content id).length
  beyond : cl.txqOfs - (cl.txQueue.contents.flatMap content).length = already
  within : cl.txQueue.contents = [] → cl.txqOfs ≤ image.length
  frames : ∃ frames, List.Forall₂ (Carries strict) cl.sent frames ∧
    cl.socket ++ unsent content cl = frames.flatten ++ image.take already

/-- `ubus_msg_enqueue` on a queue that is not full. -/
theorem Serves.enqueue
    {id : MsgId} {already : Nat} {alloc status : Bool}
    (accounted : store.Accounted held cl.txQueue.contents)
    (isHeld : 0 < held id)
    (sending : Sending strict store.image cl
      (store.image id) already)
    (room : cl.txQueue.full = false)
    (allocated : (store.heap id).refcount = .shared → alloc = true)
    (kept : strict ⟨store.image id, status⟩ →
      (store.heap id).refcount = .shared →
        (store.heap id).hdr.bytes.drop already =
          UbusMsghdr.zero.bytes.drop already) :
    Serves strict held store
      (ubusMsgEnqueue store cl id alloc status) := by
  have refEq : store.ubusMsgRef id alloc = store.ubusMsgRef id true := by
    cases counted : (store.heap id).refcount with
    | shared =>
        rw [allocated counted]
    | owned count =>
        simp only [MsgStore.ubusMsgRef, counted]
  have live := accounted.live_of_held isHeld
  obtain ⟨after, copy, taken, accountedAfter, newer, copyImage,
      others⟩ := accounted.ubusMsgRef live
  have short : cl.txQueue.contents.length < ubusdClientBacklog := by
    refine Nat.lt_of_le_of_ne sending.ring.length fun whole => ?_
    rw [sending.ring.full_iff.mpr whole] at room
    cases room
  have holds := sending.ring.put short copy
  have contentsEq := holds.contents
  have contentOthers :
      cl.txQueue.contents.flatMap after.image =
        cl.txQueue.contents.flatMap store.image :=
    List.flatMap_congr fun other member =>
      MsgStore.image_of_view (others other (accounted.live_of_mem member))
  have enqueued :
      ubusMsgEnqueue store cl id alloc status =
        (after,
          { cl with
            txQueue := cl.txQueue.put (some copy)
            sent := cl.sent ++ [⟨store.image id, status⟩] }) := by
    rw [ubusMsgEnqueue, room, refEq, taken]
    rfl
  have unsentEq :
      ((cl.txQueue.contents ++ [copy]).flatMap
          after.image).drop cl.txqOfs =
        unsent store.image cl ++
          (store.heap id).queuedImage.drop already := by
    rw [List.flatMap_append, List.flatMap_singleton, contentOthers,
      copyImage, List.drop_append, sending.beyond, unsent]
  obtain ⟨frames, carried, streamEq⟩ := sending.frames
  have frameEq :
      cl.socket ++
          ((cl.txQueue.contents ++ [copy]).flatMap
            after.image).drop cl.txqOfs =
        (frames ++
          [(store.image id).take already ++
            (store.heap id).queuedImage.drop already]).flatten := by
    rw [unsentEq, ← List.append_assoc, streamEq, List.flatten_append,
      List.flatten_singleton, List.append_assoc]
  rw [enqueued]
  refine
    { accounted := ?_
      client :=
        { ring := ?_
          offset := fun first isFirst => ?_
          frames :=
            ⟨_, Carries.snoc carried (carries_copy already kept), ?_,
              fun _ => ?_⟩ }
      next := newer
      views := fun other otherHeld =>
        others other (accounted.live_of_held otherHeld) }
  · show after.Accounted held (cl.txQueue.put (some copy)).contents
    rw [contentsEq]
    exact accountedAfter.perm (List.perm_append_singleton _ _).symm
  · show (cl.txQueue.put (some copy)).Holds
      (cl.txQueue.put (some copy)).contents
    rw [contentsEq]
    exact holds
  · show cl.txqOfs ≤ _
    have firstEq : (cl.txQueue.contents ++ [copy]).head? = some first := by
      rw [← holds.head]
      exact isFirst
    cases queueEq : cl.txQueue.contents with
    | nil =>
        rw [queueEq, List.nil_append, List.head?_cons,
          Option.some.injEq] at firstEq
        rw [← firstEq, copyImage, UbusMsgBuf.length_queuedImage,
          ← UbusMsgBuf.length_image]
        exact sending.within queueEq
    | cons oldest rest =>
        rw [queueEq, List.cons_append, List.head?_cons,
          Option.some.injEq] at firstEq
        have headEq : cl.txQueue.head = some first := by
          rw [sending.ring.head, queueEq, ← firstEq, List.head?_cons]
        have member : first ∈ cl.txQueue.contents := by
          rw [queueEq, firstEq]
          exact List.mem_cons_self
        rw [MsgStore.image_of_view (others first (accounted.live_of_mem member))]
        exact sending.offset first headEq
  · show cl.socket ++ unsent _ _ <+: _
    rw [unsent, contentsEq, frameEq]
    exact List.prefix_refl _
  · show cl.socket ++ unsent _ _ = _
    rw [unsent, contentsEq, frameEq]
    rfl

theorem sizeT_le (count : Nat) : sizeT count ≤ count := by
  rw [sizeT]
  omega

/-- A direct write that counts as complete and put bytes on the socket wrote
the whole message. -/
theorem ubusMsgWritev_complete
    {ub : UbusMsgBuf} {result : WriteResult} {bytes : List UInt8}
    (written : ubusMsgWritev ub 0 result = some bytes)
    (complete :
      ub.data.length + sizeofMsghdr ≤ sizeT (directWritten ub result)) :
    bytes = ub.image := by
  have lengthEq : directWritten ub result = bytes.length := by
    rw [directWritten, written]
  rw [lengthEq] at complete
  have enough := Nat.le_trans complete (sizeT_le bytes.length)
  cases result with
  | wrote count =>
      rw [ubusMsgWritev, ubusMsgIov_eq_drop, List.drop_zero,
        Option.some.injEq] at written
      rw [← written, List.length_take, UbusMsgBuf.length_image,
        sizeofMsghdr] at enough
      rw [← written]
      apply List.take_of_length_le
      rw [UbusMsgBuf.length_image]
      omega
  | again =>
      cases written
  | failed =>
      cases written

/-- The bytes of a direct write are the first ones of the message. -/
theorem ubusMsgWritev_direct (ub : UbusMsgBuf) (result : WriteResult) :
    (ubusMsgWritev ub 0 result).getD [] =
        ub.image.take (directWritten ub result).toNat ∧
      (directWritten ub result).toNat ≤ ub.image.length := by
  cases result with
  | wrote count =>
      rw [directWritten, ubusMsgWritev, ubusMsgIov_eq_drop, List.drop_zero]
      dsimp only [Option.getD_some]
      rw [Int.toNat_natCast, List.length_take, List.take_eq_take_min]
      exact ⟨rfl, Nat.min_le_right _ _⟩
  | again =>
      exact ⟨rfl, Nat.zero_le _⟩
  | failed =>
      exact ⟨rfl, Nat.zero_le _⟩

/-- `ubus_msg_send` up to its label `out`. -/
theorem Serves.send
    {id : MsgId} {result : WriteResult} {alloc status : Bool}
    (accounted : store.Accounted held cl.txQueue.contents)
    (inv : ClientInv strict store.image cl)
    (connected : cl.connected = true)
    (isHeld : 0 < held id)
    (allowed : ∀ already,
      enqueuedAt cl (store.heap id) result = some already →
        (store.heap id).refcount = .shared →
          alloc = true ∧
            (strict ⟨store.image id, status⟩ →
              (store.heap id).hdr.bytes.drop already =
                UbusMsghdr.zero.bytes.drop already)) :
    Serves strict held store
      (ubusMsgSend store cl id result alloc status) := by
  obtain ⟨frames, carried, _, whole⟩ := inv.frames
  cases headEq : cl.txQueue.head with
  | some first =>
      have sendEq : ubusMsgSend store cl id result alloc status =
          ubusMsgEnqueue store cl id alloc status := by
        rw [ubusMsgSend, headEq]
      rw [sendEq]
      cases room : cl.txQueue.full with
      | true =>
          rw [ubusMsgEnqueue, room]
          exact Serves.refl accounted inv
      | false =>
          have position :
              enqueuedAt cl (store.heap id) result = some 0 := by
            rw [enqueuedAt, headEq, room]
            rfl
          have offset := inv.offset first headEq
          have queueEq : ∃ rest, cl.txQueue.contents = first :: rest := by
            have firstEq := headEq
            rw [inv.ring.head] at firstEq
            exact List.head?_eq_some_iff.mp firstEq
          obtain ⟨rest, queueEq⟩ := queueEq
          apply Serves.enqueue accounted isHeld _ room
          · exact fun shared => (allowed 0 position shared).1
          · exact fun isStrict shared => (allowed 0 position shared).2 isStrict
          · exact
              { ring := inv.ring
                offset := inv.offset
                beyond := by
                  rw [queueEq, List.flatMap_cons, List.length_append]
                  omega
                within := fun nothing => by
                  rw [nothing] at queueEq
                  cases queueEq
                frames := ⟨frames, carried, by
                  rw [whole connected, List.take_zero, List.append_nil]⟩ }
  | none =>
      have nothing := inv.queue_nil headEq
      have socketEq : cl.socket = frames.flatten := by
        have streamEq := whole connected
        rwa [unsent_nil nothing, List.append_nil] at streamEq
      by_cases complete :
          (store.heap id).data.length + sizeofMsghdr ≤
            sizeT (directWritten (store.heap id) result)
      · rw [ubusMsgSend, headEq]
        dsimp only
        rw [if_pos complete]
        cases written : ubusMsgWritev (store.heap id) 0 result with
        | none =>
            rw [Option.getD_none, List.append_nil]
            exact Serves.refl accounted inv
        | some bytes =>
            have bytesEq := ubusMsgWritev_complete written complete
            rw [Option.getD_some, bytesEq]
            have streamEq :
                cl.socket ++ (store.heap id).image ++
                    unsent store.image cl =
                  (frames ++ [(store.heap id).image]).flatten := by
              rw [List.flatten_append, List.flatten_singleton, socketEq,
                unsent_nil nothing, List.append_nil]
            refine
              { accounted := accounted
                client :=
                  { ring := inv.ring
                    offset := fun first isFirst => ?_
                    frames := ⟨frames ++ [(store.heap id).image],
                      Carries.snoc carried ⟨rfl, fun _ => rfl⟩, ?_,
                      fun _ => ?_⟩ }
                next := Nat.le_refl _
                views := fun _ _ => rfl }
            · rw [show cl.txQueue.head = some first from isFirst] at headEq
              cases headEq
            · rw [← streamEq]
              exact List.prefix_refl _
            · exact streamEq
      · have position :
            enqueuedAt cl (store.heap id) result =
              some (directWritten (store.heap id) result).toNat := by
          rw [enqueuedAt, headEq, Option.isSome_none, if_neg complete]
          rfl
        have room : cl.txQueue.full = false := by
          rw [Bool.eq_false_iff]
          intro isFull
          have lengthEq := inv.ring.full_iff.mp isFull
          rw [nothing] at lengthEq
          cases lengthEq
        obtain ⟨bytesEq, within⟩ :=
          ubusMsgWritev_direct (store.heap id) result
        rw [ubusMsgSend, headEq]
        dsimp only
        rw [if_neg complete]
        have sending :
            Sending strict store.image
              { cl with
                socket :=
                  cl.socket ++
                    (ubusMsgWritev (store.heap id) 0 result).getD []
                txqOfs := (directWritten (store.heap id) result).toNat }
              (store.image id) (directWritten (store.heap id) result).toNat :=
          { ring := inv.ring
            offset := fun first isFirst => by
              rw [show cl.txQueue.head = some first from isFirst] at headEq
              cases headEq
            beyond := by
              rw [nothing, List.flatMap_nil, List.length_nil, Nat.sub_zero]
            within := fun _ => within
            frames := ⟨frames, carried, by
              rw [unsent]
              dsimp only
              rw [nothing, List.flatMap_nil, List.drop_nil, List.append_nil,
                socketEq, bytesEq]
              rfl⟩ }
        refine Serves.enqueue ?_ isHeld sending room ?_ ?_
        · exact accounted
        · exact fun shared => (allowed _ position shared).1
        · exact fun isStrict shared => (allowed _ position shared).2 isStrict

/-- The queue of a client with a first message. -/
theorem ClientInv.queue_cons
    (inv : ClientInv strict content cl) {id : MsgId}
    (first : cl.txQueue.head = some id) :
    ∃ rest, cl.txQueue.contents = id :: rest ∧
      unsent content cl =
        (content id).drop cl.txqOfs ++ rest.flatMap content := by
  have headEq := first
  rw [inv.ring.head] at headEq
  obtain ⟨rest, queueEq⟩ := List.head?_eq_some_iff.mp headEq
  refine ⟨rest, queueEq, ?_⟩
  rw [unsent, queueEq, List.flatMap_cons,
    List.drop_append_of_le_length (inv.offset id first)]

/-- Bytes of the first message move to the socket. -/
theorem ClientInv.wrote
    (inv : ClientInv strict content cl) {id : MsgId}
    (first : cl.txQueue.head = some id) {bytes : List UInt8}
    (isFront : bytes <+: (content id).drop cl.txqOfs) :
    ClientInv strict content
      { cl with
        socket := cl.socket ++ bytes
        txqOfs := cl.txqOfs + bytes.length } := by
  obtain ⟨rest, queueEq, unsentEq⟩ := inv.queue_cons first
  obtain ⟨left, leftEq⟩ := isFront
  have within := inv.offset id first
  have bound : bytes.length + left.length = (content id).length - cl.txqOfs := by
    rw [← List.length_append, leftEq, List.length_drop]
  have dropEq : (content id).drop (cl.txqOfs + bytes.length) = left := by
    rw [← List.drop_drop, ← leftEq, List.drop_left]
  have movedEq :
      unsent content
          { cl with
            socket := cl.socket ++ bytes
            txqOfs := cl.txqOfs + bytes.length } =
        left ++ rest.flatMap content := by
    rw [unsent]
    dsimp only
    rw [queueEq, List.flatMap_cons,
      List.drop_append_of_le_length (by omega), dropEq]
  have streamEq :
      cl.socket ++ bytes ++ (left ++ rest.flatMap content) =
        cl.socket ++ unsent content cl := by
    rw [unsentEq, ← leftEq]
    simp only [List.append_assoc]
  obtain ⟨frames, carried, isPart, whole⟩ := inv.frames
  refine
    { ring := inv.ring
      offset := fun other otherFirst => ?_
      frames := ⟨frames, carried, ?_, fun connected => ?_⟩ }
  · rw [show cl.txQueue.head = some other from otherFirst,
      Option.some.injEq] at first
    rw [first]
    show cl.txqOfs + bytes.length ≤ (content id).length
    omega
  · rw [movedEq, streamEq]
    exact isPart
  · rw [movedEq, streamEq]
    exact whole connected

section Dequeue

variable {id : MsgId} {rest : List MsgId}

theorem ubusMsgDequeue_of_head (first : cl.txQueue.head = some id) :
    ubusMsgDequeue store cl =
      (store.ubusMsgFree id,
        { cl with txqOfs := 0, txQueue := cl.txQueue.pop }) := by
  rw [ubusMsgDequeue, first]

/-- Freeing the first reference of a queue keeps the bytes of the others. -/
theorem view_of_dequeued
    (accounted : store.Accounted held (id :: rest)) {other : MsgId}
    (referenced : other ∈ rest ∨ 0 < held other) :
    (store.ubusMsgFree id).view other = store.view other := by
  apply MsgStore.Accounted.view_ubusMsgFree
  by_cases same : other = id
  · subst same
    refine Or.inr ?_
    rw [accounted.refs, List.count_cons_self]
    rcases referenced with member | isHeld
    · have counted : 0 < rest.count other := List.count_pos_iff.mpr member
      omega
    · omega
  · exact Or.inl same

/-- `ubus_msg_dequeue` behind the last byte of the first message. -/
theorem Serves.dequeue
    (accounted : store.Accounted held cl.txQueue.contents)
    (inv : ClientInv strict store.image cl)
    (first : cl.txQueue.head = some id)
    (written : (store.image id).length ≤ cl.txqOfs) :
    Serves strict held store (ubusMsgDequeue store cl) := by
  obtain ⟨rest, queueEq, unsentEq⟩ := inv.queue_cons first
  have holds := inv.ring
  rw [queueEq] at accounted holds
  have popped := holds.pop
  have contentsEq := popped.contents
  have sameContent : rest.flatMap (store.ubusMsgFree id).image =
      rest.flatMap store.image :=
    List.flatMap_congr fun other member =>
      MsgStore.image_of_view (view_of_dequeued accounted (Or.inl member))
  have movedEq :
      unsent (store.ubusMsgFree id).image
          { cl with txqOfs := 0, txQueue := cl.txQueue.pop } =
        unsent store.image cl := by
    rw [unsentEq, List.drop_of_length_le written, List.nil_append, unsent]
    dsimp only
    rw [contentsEq, List.drop_zero, sameContent]
  obtain ⟨frames, carried, isPart, whole⟩ := inv.frames
  rw [ubusMsgDequeue_of_head first]
  refine
    { accounted := ?_
      client :=
        { ring := ?_
          offset := fun _ _ => Nat.zero_le _
          frames := ⟨frames, carried, ?_, fun connected => ?_⟩ }
      next := Nat.le_of_eq MsgStore.next_ubusMsgFree.symm
      views := fun other isHeld =>
        view_of_dequeued accounted (Or.inr isHeld) }
  · show MsgStore.Accounted held _ cl.txQueue.pop.contents
    rw [contentsEq]
    exact accounted.ubusMsgFree_queued
  · show cl.txQueue.pop.Holds cl.txQueue.pop.contents
    rw [contentsEq]
    exact popped
  · rw [movedEq]
    exact isPart
  · rw [movedEq]
    exact whole connected

/-- The loop of `handle_client_disconnect` empties the queue. -/
theorem ubusMsgDequeueAll_spec :
    ∀ (slots : Nat) (store : MsgStore) (cl : UbusClient),
      cl.txQueue.Holds cl.txQueue.contents →
      cl.txQueue.contents.length ≤ slots →
      store.Accounted held cl.txQueue.contents →
      ∃ ring, ubusMsgDequeueAll slots store cl =
          ((ubusMsgDequeueAll slots store cl).1,
            { cl with
              txQueue := ring
              txqOfs := (ubusMsgDequeueAll slots store cl).2.txqOfs }) ∧
        ring.Holds [] ∧
        (ubusMsgDequeueAll slots store cl).1.Accounted held [] ∧
        (ubusMsgDequeueAll slots store cl).1.next = store.next ∧
        ∀ other, 0 < held other →
          (ubusMsgDequeueAll slots store cl).1.view other =
            store.view other
  | slots, store, cl, holds, short, accounted => by
      cases headEq : cl.txQueue.head with
      | none =>
          have unchanged : ubusMsgDequeueAll slots store cl = (store, cl) := by
            cases slots with
            | zero =>
                rfl
            | succ slots =>
                rw [ubusMsgDequeueAll, headEq]
          have nothing : cl.txQueue.contents = [] := by
            rw [holds.head] at headEq
            exact List.head?_eq_none_iff.mp headEq
          rw [unchanged]
          rw [nothing] at holds accounted
          exact ⟨cl.txQueue, rfl, holds, accounted, rfl, fun _ _ => rfl⟩
      | some id =>
          have firstEq := headEq
          rw [holds.head] at firstEq
          obtain ⟨rest, queueEq⟩ := List.head?_eq_some_iff.mp firstEq
          rw [queueEq] at holds accounted short
          have popped := holds.pop
          have contentsEq := popped.contents
          cases slots with
          | zero =>
              cases short
          | succ slots =>
              have oneLess :
                  ubusMsgDequeueAll (slots + 1) store cl =
                    ubusMsgDequeueAll slots (store.ubusMsgFree id)
                      { cl with txqOfs := 0, txQueue := cl.txQueue.pop } := by
                rw [ubusMsgDequeueAll, headEq, ubusMsgDequeue_of_head headEq]
              obtain ⟨ring, outEq, empty, accountedAfter, nextEq, views⟩ :=
                ubusMsgDequeueAll_spec slots (store.ubusMsgFree id)
                  { cl with txqOfs := 0, txQueue := cl.txQueue.pop }
                  (by
                    show cl.txQueue.pop.Holds cl.txQueue.pop.contents
                    rw [contentsEq]
                    exact popped)
                  (by
                    show cl.txQueue.pop.contents.length ≤ slots
                    rw [contentsEq]
                    exact Nat.le_of_succ_le_succ short)
                  (by
                    show MsgStore.Accounted held _ cl.txQueue.pop.contents
                    rw [contentsEq]
                    exact accounted.ubusMsgFree_queued)
              rw [oneLess]
              exact ⟨ring, outEq, empty, accountedAfter,
                nextEq.trans MsgStore.next_ubusMsgFree,
                fun other isHeld =>
                  (views other isHeld).trans
                    (view_of_dequeued accounted (Or.inr isHeld))⟩

end Dequeue

/-- `handle_client_disconnect`. -/
theorem Serves.disconnect
    (accounted : store.Accounted held cl.txQueue.contents)
    (inv : ClientInv strict store.image cl) :
    Serves strict held store (handleClientDisconnect store cl) := by
  obtain ⟨ring, outEq, empty, accountedAfter, nextEq, views⟩ :=
    ubusMsgDequeueAll_spec ubusdClientBacklog store cl inv.ring
      inv.ring.length accounted
  have nothing := empty.contents
  obtain ⟨frames, carried, isPart, _⟩ := inv.frames
  rw [handleClientDisconnect, outEq]
  refine
    { accounted := ?_
      client :=
        { ring := ?_
          offset := fun other isFirst => ?_
          frames := ⟨frames, carried, ?_, fun connected => nomatch connected⟩ }
      next := Nat.le_of_eq nextEq.symm
      views := views }
  · show MsgStore.Accounted held _ ring.contents
    rw [nothing]
    exact accountedAfter
  · show ring.Holds ring.contents
    rw [nothing]
    exact empty
  · have noFirst : ring.head = none := empty.head
    rw [show ring.head = some other from isFirst] at noFirst
    cases noFirst
  · rw [unsent]
    dsimp only
    rw [nothing, List.flatMap_nil, List.drop_nil, List.append_nil]
    exact (List.prefix_append _ _).trans isPart

theorem Serves.trans
    {after : MsgStore} {out : MsgStore × UbusClient}
    (newer : store.next ≤ after.next)
    (views : ∀ id, 0 < held id → after.view id = store.view id)
    (serves : Serves strict held after out) :
    Serves strict held store out :=
  { accounted := serves.accounted
    client := serves.client
    next := Nat.le_trans newer serves.next
    views := fun id isHeld =>
      (serves.views id isHeld).trans (views id isHeld) }

/-- The write loop of `client_cb`; nothing is being rewritten then. -/
theorem Serves.clientCbTx :
    ∀ (results : List WriteResult) (store : MsgStore) (cl : UbusClient),
      store.Accounted held cl.txQueue.contents →
      ClientInv strict store.image cl →
      Serves strict held store (clientCbTx results store cl)
  | [], store, cl, accounted, inv => Serves.refl accounted inv
  | result :: results, store, cl, accounted, inv => by
      rw [Ubusd.clientCbTx]
      split
      · exact Serves.refl accounted inv
      · rename_i id first
        dsimp only
        split
        · split
          · exact Serves.disconnect accounted inv
          · exact Serves.refl accounted inv
        · rename_i bytes written
          have isFront :
              bytes <+: (store.image id).drop
                cl.txqOfs := by
            cases result with
            | wrote count =>
                rw [ubusMsgWritev, ubusMsgIov_eq_drop,
                  Option.some.injEq] at written
                rw [← written]
                exact List.take_prefix _ _
            | again =>
                cases written
            | failed =>
                cases written
          have moved := inv.wrote first isFront
          split
          · exact Serves.refl accounted moved
          · rename_i complete
            have lengthEq :
                (store.image id).length =
                  8 + (store.heap id).data.length :=
              (store.heap id).length_image
            have allWritten :
                (store.image id).length ≤
                  cl.txqOfs + bytes.length := by
              rw [lengthEq, Nat.add_comm 8]
              exact Nat.le_of_not_lt complete
            have dequeued :
                Serves strict held store
                  (ubusMsgDequeue store
                    { cl with
                      socket := cl.socket ++ bytes
                      txqOfs := cl.txqOfs + bytes.length }) := by
              apply Serves.dequeue
              · exact accounted
              · exact moved
              · exact first
              · exact allWritten
            exact
              (Serves.clientCbTx results _ _ dequeued.accounted
                dequeued.client).trans dequeued.next dequeued.views

end Clients

/-! ## All clients -/

/-- The invariant of ubusd. -/
structure DaemonInv (strict : SentMsg → Prop)
    (daemon : Daemon) : Prop where
  accounted : daemon.store.Accounted daemon.held
    (daemon.clients.flatMap fun cl => cl.txQueue.contents)
  clients : ∀ cl ∈ daemon.clients,
    ClientInv strict daemon.store.image cl

/-- What an operation promises on the buffers that callers hold and that are not
its `target`. -/
structure Steps (strict : SentMsg → Prop)
    (target : Option MsgId)
    (daemon next : Daemon) : Prop where
  inv : DaemonInv strict next
  newer : daemon.store.next ≤ next.store.next
  keeps : ∀ id, 0 < daemon.held id → target ≠ some id →
    next.held id = daemon.held id ∧
      next.store.view id = daemon.store.view id

section Daemons

variable {strict : SentMsg → Prop}
variable {daemon next : Daemon}

/-- An operation on one client that serves it keeps the invariant. -/
theorem DaemonInv.onClient
    (inv : DaemonInv strict daemon) {client : Nat}
    {operation : MsgStore → UbusClient → MsgStore × UbusClient}
    (taken : daemon.onClient client operation = some next)
    (serves : ∀ (cl : UbusClient) (held : MsgId → Nat),
      daemon.clients[client]? = some cl → cl.connected = true →
      (∀ id, daemon.held id ≤ held id) →
      daemon.store.Accounted held cl.txQueue.contents →
      ClientInv strict daemon.store.image cl →
        Serves strict held daemon.store
          (operation daemon.store cl)) :
    Steps strict none daemon next := by
  rw [Daemon.onClient] at taken
  split at taken
  · rename_i cl found
    split at taken
    · rename_i connected
      rw [Option.some.injEq] at taken
      obtain ⟨bound, clEq⟩ := List.getElem?_eq_some_iff.mp found
      have splitBefore :
          daemon.clients.Perm (cl :: daemon.clients.eraseIdx client) := by
        rw [← clEq]
        exact (List.getElem_cons_eraseIdx_perm bound).symm
      have clientInv := inv.clients cl (List.mem_of_getElem? found)
      have accounted := (inv.accounted.perm
        (splitBefore.flatMap_right _))
      rw [List.flatMap_cons, MsgStore.Accounted.append_iff] at accounted
      have served := serves cl _ found connected
        (fun id => Nat.le_add_right _ _) accounted clientInv
      have splitAfter :
          (daemon.clients.set client (operation daemon.store cl).2).Perm
            ((operation daemon.store cl).2 ::
              daemon.clients.eraseIdx client) :=
        List.set_perm_cons_eraseIdx bound _
      subst taken
      refine
        { inv :=
            { accounted := ?_
              clients := fun other member => ?_ }
          newer := served.next
          keeps := fun id isHeld _ =>
            ⟨rfl, served.views id (Nat.add_pos_left isHeld _)⟩ }
      · refine MsgStore.Accounted.perm ?_
          (splitAfter.flatMap_right _).symm
        rw [List.flatMap_cons, MsgStore.Accounted.append_iff]
        exact served.accounted
      · rcases List.mem_cons.mp (splitAfter.mem_iff.mp member) with
          rfl | elsewhere
        · exact served.client
        · have otherInv :=
            inv.clients other (List.mem_of_mem_eraseIdx elsewhere)
          refine otherInv.congr fun id queued => MsgStore.image_of_view ?_
          apply served.views
          have counted :
              0 < ((daemon.clients.eraseIdx client).flatMap
                fun cl => cl.txQueue.contents).count id :=
            List.count_pos_iff.mpr
              (List.mem_flatMap.mpr ⟨other, elsewhere, queued⟩)
          omega
    · cases taken
  · cases taken

/-- A buffer that is queued outlives the reference of a caller. -/
theorem DaemonInv.view_of_queued
    (inv : DaemonInv strict daemon) {id : MsgId} (isHeld : 0 < daemon.held id)
    {cl : UbusClient} (member : cl ∈ daemon.clients) {other : MsgId}
    (queued : other ∈ cl.txQueue.contents) :
    (daemon.store.ubusMsgFree id).view other = daemon.store.view other := by
  apply MsgStore.Accounted.view_ubusMsgFree
  by_cases same : other = id
  · subst same
    have counted :
        0 < (daemon.clients.flatMap
          fun cl => cl.txQueue.contents).count other :=
      List.count_pos_iff.mpr (List.mem_flatMap.mpr ⟨cl, member, queued⟩)
    refine Or.inr ?_
    rw [inv.accounted.refs]
    omega
  · exact Or.inl same

/-- A caller gives a reference back. -/
theorem DaemonInv.release
    (inv : DaemonInv strict daemon) {id : MsgId}
    (taken : daemon.release id = some next) :
    Steps strict (some id) daemon next := by
  rw [Daemon.release] at taken
  split at taken
  · rename_i isHeld
    rw [Option.some.injEq] at taken
    subst taken
    exact
      { inv :=
          { accounted := inv.accounted.ubusMsgFree_held isHeld
            clients := fun cl member =>
              (inv.clients cl member).congr fun other queued =>
                MsgStore.image_of_view
                  (inv.view_of_queued isHeld member queued) }
        newer := Nat.le_of_eq MsgStore.next_ubusMsgFree.symm
        keeps := fun other _ untouched => by
          have different : other ≠ id :=
            fun same => untouched (by rw [same])
          exact ⟨Function.update_of_ne different _ _,
            MsgStore.Accounted.view_ubusMsgFree (Or.inl different)⟩ }
  · cases taken

/-- A caller makes a new message. -/
theorem DaemonInv.create
    (inv : DaemonInv strict daemon)
    (shared : Bool) (hdr : UbusMsghdr) (data : List UInt8) :
    Steps strict none daemon
      { daemon with
        store := daemon.store.ubusMsgNew hdr data shared
        held := Function.update daemon.held daemon.store.next 1 } := by
  have older : ∀ other, other < daemon.store.next →
      (daemon.store.ubusMsgNew hdr data shared).view other =
        daemon.store.view other := by
    intro other below
    rw [MsgStore.view,
      MsgStore.heap_ubusMsgNew_of_ne _ _ _ (Nat.ne_of_lt below)]
    rfl
  exact
    { inv :=
        { accounted := inv.accounted.ubusMsgNew hdr data shared
          clients := fun cl member =>
            (inv.clients cl member).congr fun other queued =>
              MsgStore.image_of_view (older other (inv.accounted.lt_next
                (inv.accounted.live_of_mem
                  (List.mem_flatMap.mpr ⟨cl, member, queued⟩)))) }
      newer := Nat.le_succ _
      keeps := fun other isHeld _ => by
        have below := inv.accounted.lt_next
          (inv.accounted.live_of_held isHeld)
        exact ⟨Function.update_of_ne (Nat.ne_of_lt below) _ _,
          older other below⟩ }

/-- What a send must not meet: a copy that cannot be allocated, and a strict
message that loses header bytes. -/
def SendPermitted (strict : SentMsg → Prop) (daemon : Daemon) (client : Nat)
    (id : MsgId) (result : WriteResult) (alloc status : Bool) : Prop :=
  ∀ cl already, daemon.clients[client]? = some cl →
    enqueuedAt cl (daemon.store.heap id) result = some already →
      (daemon.store.heap id).refcount = .shared →
        alloc = true ∧
          (strict ⟨daemon.store.image id, status⟩ →
            (daemon.store.heap id).hdr.bytes.drop already =
              UbusMsghdr.zero.bytes.drop already)

theorem DaemonInv.send
    (inv : DaemonInv strict daemon)
    {client : Nat} {id : MsgId} {result : WriteResult} {alloc status : Bool}
    (permitted :
      SendPermitted strict daemon client id result alloc status)
    (taken : daemon.send client id result alloc status = some next) :
    Steps strict none daemon next := by
  rw [Daemon.send] at taken
  split at taken
  · rename_i isHeld
    exact inv.onClient taken fun cl held found connected atLeast accounted
        clientInv =>
      Serves.send accounted clientInv connected
        (Nat.lt_of_lt_of_le isHeld (atLeast id))
        (fun already enters shared =>
          permitted cl already found enters shared)
  · cases taken

/-- The buffer an effect gives back. -/
def MsgEffect.target : MsgEffect → Option MsgId
  | .create _ _ _ => none
  | .send _ id _ _ free => if free then some id else none
  | .release id => some id

/-- `SendPermitted` for the messages of other code. -/
def EffectPermitted (strict : SentMsg → Prop) (daemon : Daemon) :
    MsgEffect → Prop
  | .send client id result alloc _ =>
      SendPermitted strict daemon client id result alloc false
  | .create _ _ _ | .release _ => True

theorem DaemonInv.effect
    (inv : DaemonInv strict daemon) {effect : MsgEffect}
    (permitted : EffectPermitted strict daemon effect)
    (taken : daemon.effect effect = some next) :
    Steps strict effect.target daemon next := by
  cases effect with
  | create shared hdr data =>
      rw [Daemon.effect, Option.some.injEq] at taken
      subst taken
      exact inv.create shared hdr data
  | release id =>
      exact inv.release taken
  | send client id result alloc free =>
      rw [Daemon.effect] at taken
      split at taken
      · rename_i sentDaemon sent
        have sending := inv.send permitted sent
        cases free with
        | false =>
            rw [if_neg Bool.false_ne_true, Option.some.injEq] at taken
            subst taken
            exact sending
        | true =>
            rw [if_pos rfl] at taken
            have releasing := sending.inv.release taken
            exact
              { inv := releasing.inv
                newer := Nat.le_trans sending.newer releasing.newer
                keeps := fun other isHeld untouched => by
                  obtain ⟨heldEq, viewEq⟩ :=
                    sending.keeps other isHeld (fun impossible =>
                      nomatch impossible)
                  obtain ⟨heldAfter, viewAfter⟩ :=
                    releasing.keeps other (by rw [heldEq]; exact isHeld)
                      untouched
                  exact ⟨heldAfter.trans heldEq,
                    viewAfter.trans viewEq⟩ }
      · cases taken

/-- A new client has nothing to send. -/
theorem DaemonInv.accept (inv : DaemonInv strict daemon) :
    DaemonInv strict
      { daemon with clients := daemon.clients ++ [.fresh] } := by
  have nothing : UbusClient.fresh.txQueue.contents = [] := rfl
  refine
    { accounted := ?_
      clients := fun cl member => ?_ }
  · show daemon.store.Accounted daemon.held
      ((daemon.clients ++ [UbusClient.fresh]).flatMap _)
    rw [List.flatMap_append, List.flatMap_singleton, nothing,
      List.append_nil]
    exact inv.accounted
  · rcases List.mem_append.mp member with older | newest
    · exact inv.clients cl older
    · rw [List.mem_singleton] at newest
      rw [newest]
      exact ClientInv.fresh

theorem DaemonInv.init :
    DaemonInv strict ⟨.empty, fun _ => 0, []⟩ :=
  { accounted := MsgStore.Accounted.empty
    clients := fun _ member => nomatch member }

theorem DaemonInv.writable
    (inv : DaemonInv strict daemon)
    {client : Nat} {results : List WriteResult}
    (taken : daemon.onClient client (clientCbTx results) = some next) :
    Steps strict none daemon next :=
  inv.onClient taken fun cl _ _ _ _ accounted clientInv =>
    Serves.clientCbTx results daemon.store cl accounted clientInv

theorem DaemonInv.disconnect
    (inv : DaemonInv strict daemon) {client : Nat}
    (taken : daemon.onClient client handleClientDisconnect = some next) :
    Steps strict none daemon next :=
  inv.onClient taken fun _ _ _ _ _ accounted clientInv =>
    Serves.disconnect accounted clientInv

end Daemons

/-! ## The order of the messages -/

theorem DaemonInv.step
    {daemon next : Daemon}
    (inv : DaemonInv (fun _ => True) daemon)
    {action : TransmitAction} (permitted : TransmitPermitted daemon action)
    (taken : daemon.step action = some next) :
    DaemonInv (fun _ => True) next := by
  cases action with
  | accept =>
      rw [Daemon.step, Option.some.injEq] at taken
      subst taken
      exact inv.accept
  | effect effect =>
      have effectPermitted : EffectPermitted (fun _ => True) daemon effect := by
        cases effect with
        | create shared hdr data =>
            exact trivial
        | release id =>
            exact trivial
        | send client id result alloc free =>
            intro cl already found enters shared
            obtain ⟨allocated, kept⟩ :=
              permitted cl already found enters shared
            exact ⟨allocated, fun _ => kept⟩
      exact (inv.effect effectPermitted taken).inv
  | writable client results =>
      exact (inv.writable taken).inv
  | disconnect client =>
      exact (inv.disconnect taken).inv

/-- If every message is strict, the frames are the messages. -/
theorem frames_of_strict
    {sent : List SentMsg} {frames : List (List UInt8)}
    (carried : List.Forall₂ (Carries fun _ => True) sent frames) :
    frames = sent.map SentMsg.image := by
  induction carried with
  | nil =>
      rfl
  | cons carries _ inductionHypothesis =>
      rw [List.map_cons, carries.2 trivial, inductionHypothesis]

theorem ClientInv.inSendOrder
    {content : MsgId → List UInt8} {cl : UbusClient}
    (inv : ClientInv (fun _ => True) content cl) : InSendOrder cl := by
  obtain ⟨frames, carried, isPart, _⟩ := inv.frames
  rw [InSendOrder, ← frames_of_strict carried]
  exact (List.prefix_append _ _).trans isPart

/-- If no shared message enters a queue before its header was written, every
client receives the messages that were sent to it and not dropped, in their
order and with the bytes they had. -/
theorem ubusMsgSend_inSendOrder
    {actions : List TransmitAction} {daemon : Daemon}
    (permitted :
      transmitter.Meets TransmitPermitted transmitter.init actions)
    (reached : transmitter.run actions = some daemon) :
    ∀ cl ∈ daemon.clients, InSendOrder cl := by
  have inv : DaemonInv (fun _ => True) daemon :=
    Machine.invariant_of_permitted DaemonInv.init
      (fun _ _ _ holds stepPermitted taken => holds.step stepPermitted taken)
      permitted reached
  exact fun cl member => (inv.clients cl member).inSendOrder

/-- A reply is written up to its data, and the rest later. -/
def splitBehindHeader : List TransmitAction :=
  [.accept, .effect (.create true ⟨0, 2, 7, 9⟩ [0, 0, 0, 4]),
    .effect (.send 0 0 (.wrote 8) true true), .writable 0 [.wrote 99]]

theorem ubusMsgSend_inSendOrder_split :
    ∃ daemon, transmitter.run splitBehindHeader = some daemon ∧
      ∀ cl ∈ daemon.clients, InSendOrder cl := by
  refine ⟨_, rfl, @ubusMsgSend_inSendOrder splitBehindHeader _ ?_ rfl⟩
  apply Machine.Meets.cons trivial rfl
  apply Machine.Meets.cons trivial rfl
  apply Machine.Meets.cons
  · intro cl already found enters _
    cases found
    cases enters
    exact ⟨rfl, rfl⟩
  · rfl
  · exact Machine.Meets.cons trivial rfl trivial

/-- A reply of which two bytes were written directly: its copy in the queue has
the header that `calloc` left. -/
theorem ubusMsgSend_loses_header :
    ∃ daemon,
      transmitter.run
          [.accept, .effect (.create true ⟨0, 2, 7, 9⟩ [0, 0, 0, 4]),
            .effect (.send 0 0 (.wrote 2) true true),
            .writable 0 [.wrote 99]] = some daemon ∧
        daemon.clients.map UbusClient.socket =
          [[0, 2, 0, 0, 0, 0, 0, 0, 0, 0, 0, 4]] ∧
        ¬ ∀ cl ∈ daemon.clients, InSendOrder cl := by
  refine ⟨_, rfl, by decide, fun ordered => ?_⟩
  have isFront := ordered _ List.mem_cons_self
  revert isFront
  rw [InSendOrder]
  decide

end LibubusJni.Ubusd
