import LibubusJni.Libubus.GivenBytes

/-!
# The capacity of `ctx->msgbuf.data`

`msgbuf_data_len` is set once, to the size of the first block.  Every block that
becomes `ctx->msgbuf.data` later has a multiple of that size, so the number is
a lower bound for as long as it stands: while the block grows and shrinks,
while a handler has it, and when it comes back or another takes its place.
-/

namespace LibubusJni.Libubus

open LibubusJni.Lib LibubusJni.Libubox

namespace MsgbufFrame

/-- The block that was `ctx->msgbuf.data` and may become it again. -/
def buffer (frame : MsgbufFrame) : Option Nat :=
  if frame.detached then frame.kept.map Prod.fst else none

/-- The copy that the call frees at its end. -/
def copied (frame : MsgbufFrame) : Option Nat :=
  if frame.detached then none else frame.kept.map Prod.fst

end MsgbufFrame

namespace MsgbufContext

/-- The blocks that messages are read into. -/
def buffers (ctx : MsgbufContext) : List Nat :=
  ctx.data.toList ++ ctx.frames.filterMap MsgbufFrame.buffer

/-- The blocks that messages are copied into. -/
def copies (ctx : MsgbufContext) : List Nat :=
  ctx.frames.filterMap MsgbufFrame.copied ++
    (ctx.pending.map UbusPendingMsg.data ++
      ctx.parked.map UbusPendingData.data)

/-- Each block has one owner, and those that messages are read into are not
smaller than `msgbuf_data_len`; `loose` are copies that no list and no callback
holds at the moment. -/
structure RoomInv (loose : List Nat) (ctx : MsgbufContext) : Prop where
  rooms : ctx.heap.Rooms ubusMsgChunkSize ctx.buffers (loose ++ ctx.copies)
  dataLen : ctx.msgbufDataLen = ubusMsgChunkSize

variable {ctx : MsgbufContext} {frame : MsgbufFrame} {outer : List MsgbufFrame}
  {ptr : Nat} {loose rest others : List Nat}

/-! ## Reading -/

theorem le_roundedLen (len : Nat) : len ≤ roundedLen len := by
  rw [roundedLen]
  split <;> omega

theorem chunk_le_roundedLen {len : Nat} (positive : 0 < len) :
    ubusMsgChunkSize ≤ roundedLen len := by
  rw [roundedLen, ubusMsgChunkSize]
  split <;> omega

/-- If `alloc_msg_buf` succeeds, the message fits into the block. -/
theorem allocMsgBuf_rooms
    (rooms : ctx.heap.Rooms ubusMsgChunkSize (ctx.data.toList ++ rest) others)
    (dataLen : ctx.msgbufDataLen = ubusMsgChunkSize) {len : Nat}
    (positive : 0 < len) (moves : Option Bool) :
    ∃ heap data counter,
      (ctx.allocMsgBuf len moves).2 =
          { ctx with
            heap := heap
            data := data
            msgbufReductionCounter := counter } ∧
        heap.Rooms ubusMsgChunkSize (data.toList ++ rest) others ∧
        ((ctx.allocMsgBuf len moves).1 = true →
          ∃ ptr, data = some ptr ∧ heap.Roomy len ptr) := by
  have within := le_roundedLen len
  have chunk := chunk_le_roundedLen positive
  have size : 0 < ubusMsgChunkSize := by decide
  cases isData : ctx.data with
  | none =>
      rw [isData] at rooms
      have grows : ¬ roundedLen len < 0 := Nat.not_lt_zero _
      have large : ¬ roundedLen len ≤ 0 := by omega
      cases moves with
      | none =>
          refine ⟨_, _, ctx.msgbufReductionCounter, ?_, rooms, ?_⟩
          · simp [allocMsgBuf, isData, grows, large]
          · simp [allocMsgBuf, isData, grows, large]
      | some moves =>
          refine ⟨_, _, ctx.msgbufReductionCounter, ?_,
            rooms.malloc chunk fun _ => 0, fun _ => ⟨_, rfl, ?_⟩⟩
          · simp [allocMsgBuf, isData, grows, large, Heap.realloc]
          · exact Heap.roomy_malloc _ within
  | some ptr =>
      rw [isData] at rooms
      have keepsCounter : ¬ roundedLen len < ubusMsgChunkSize :=
        Nat.not_lt.mpr chunk
      by_cases fits : roundedLen len ≤ ubusMsgChunkSize
      · refine ⟨_, _, ctx.msgbufReductionCounter, ?_, rooms, fun _ =>
          ⟨ptr, rfl, ?_⟩⟩
        · simp [allocMsgBuf, isData, dataLen, keepsCounter, fits]
        · obtain ⟨block, live, enough⟩ := rooms.room ptr List.mem_cons_self
          exact ⟨block, live, by omega⟩
      · cases moves with
        | none =>
            refine ⟨_, _, ctx.msgbufReductionCounter, ?_, rooms, ?_⟩
            · simp [allocMsgBuf, isData, dataLen, keepsCounter, fits]
            · simp [allocMsgBuf, isData, dataLen, keepsCounter, fits]
        | some moves =>
            refine ⟨_, _, ctx.msgbufReductionCounter, ?_,
              rooms.realloc chunk moves, fun _ => ⟨_, rfl, ?_⟩⟩
            · simp [allocMsgBuf, isData, dataLen, keepsCounter, fits]
            · obtain ⟨block, live⟩ := rooms.owned.live ptr List.mem_cons_self
              exact Heap.roomy_realloc live within moves

/-- `get_next_msg` writes into the block and leaves it as large as it is. -/
theorem getNextMsg_rooms
    (rooms : ctx.heap.Rooms ubusMsgChunkSize (ctx.data.toList ++ rest) others)
    (dataLen : ctx.msgbufDataLen = ubusMsgChunkSize) {message : Message}
    (formed : message.WellFormed) (moves : Option Bool) (count : Nat)
    (stops : Bool) :
    ∃ heap data counter,
      (ctx.getNextMsg message moves count stops).2 =
          { ctx with
            heap := heap
            data := data
            msgbufReductionCounter := counter } ∧
        heap.Rooms ubusMsgChunkSize (data.toList ++ rest) others ∧
        ∀ ptr received,
          (ctx.getNextMsg message moves count stops).1 = some (ptr, received) →
            data = some ptr := by
  have positive : 0 < (blobRawLen message.data).toNat :=
    Nat.lt_of_lt_of_le (by decide) formed.rawLen
  obtain ⟨heap, data, counter, isNext, nextRooms, _⟩ :=
    allocMsgBuf_rooms rooms dataLen positive moves
  rw [getNextMsg]
  generalize ctx.allocMsgBuf (blobRawLen message.data).toNat moves = result
    at isNext
  obtain ⟨allocated, next⟩ := result
  subst isNext
  cases allocated with
  | false =>
      exact ⟨_, _, _, rfl, nextRooms, fun _ _ isNone => by cases isNone⟩
  | true =>
      cases data with
      | none =>
          exact ⟨_, _, _, rfl, nextRooms, fun _ _ isNone => by cases isNone⟩
      | some ptr =>
          have stored := nextRooms.store ptr (message.data.take (4 + count))
          simp only [if_true]
          split
          · exact ⟨_, _, _, rfl, stored, fun _ _ isNone => by cases isNone⟩
          · refine ⟨_, _, _, rfl, stored, fun other received isSome => ?_⟩
            cases isSome
            rfl

namespace RoomInv

/-! ## Calls and returns -/

theorem buffers_call (ctx : MsgbufContext) (frame : MsgbufFrame) :
    (ctx.call frame).buffers.Perm (frame.buffer.toList ++ ctx.buffers) := by
  rw [buffers, buffers, call, List.filterMap_cons]
  cases frame.buffer with
  | none =>
      exact List.Perm.refl _
  | some ptr =>
      exact List.perm_middle

theorem copies_call (ctx : MsgbufContext) (frame : MsgbufFrame) :
    (ctx.call frame).copies = frame.copied.toList ++ ctx.copies := by
  rw [copies, copies, call, List.filterMap_cons]
  cases frame.copied <;> rfl

/-- A call is given what lay loose, or nothing. -/
theorem call (inv : RoomInv (frame.copied.toList ++ loose) ctx)
    (noBuffer : frame.buffer = none) : RoomInv loose (ctx.call frame) := by
  refine ⟨inv.rooms.perm ?_ ?_, inv.dataLen⟩
  · have same := buffers_call ctx frame
    rw [noBuffer] at same
    exact same
  · rw [copies_call, ← List.append_assoc]
    exact List.perm_append_comm.append_right ctx.copies

/-- A call ends; its blocks lie loose. -/
theorem pop (inv : RoomInv loose ctx) (isTop : ctx.frames = frame :: outer) :
    ctx.heap.Rooms ubusMsgChunkSize
      (frame.buffer.toList ++ ({ ctx with frames := outer } :
        MsgbufContext).buffers)
      (frame.copied.toList ++ loose ++ ({ ctx with frames := outer } :
        MsgbufContext).copies) := by
  have rejoined : ({ ctx with frames := outer } : MsgbufContext).call frame =
      ctx := by
    rw [MsgbufContext.call, ← isTop]
  have first := buffers_call { ctx with frames := outer } frame
  have second := copies_call { ctx with frames := outer } frame
  rw [rejoined] at first second
  have rooms := inv.rooms
  rw [second, ← List.append_assoc] at rooms
  exact rooms.perm first.symm (List.perm_append_comm.append_right _)

theorem popCopy (inv : RoomInv loose ctx) (isTop : ctx.frames = frame :: outer)
    (noBuffer : frame.buffer = none) :
    RoomInv (frame.copied.toList ++ loose) { ctx with frames := outer } := by
  have rooms := inv.pop isTop
  rw [noBuffer] at rooms
  exact ⟨rooms, inv.dataLen⟩

theorem free (inv : RoomInv (ptr :: loose) ctx) :
    RoomInv loose (ctx.free ptr) :=
  ⟨inv.rooms.free, inv.dataLen⟩

/-! ## Copies -/

theorem nodup_parked (inv : RoomInv loose ctx) :
    (ctx.parked.map UbusPendingData.data).Nodup := by
  have all := inv.rooms.owned.nodup
  rw [copies] at all
  exact all.of_append_right.of_append_right.of_append_right.of_append_right

/-- A copy is taken off the list of a request. -/
theorem takeParked (inv : RoomInv loose ctx) {entry : UbusPendingData}
    (member : entry ∈ ctx.parked) :
    RoomInv (entry.data :: loose)
      { ctx with
        parked := ctx.parked.eraseP fun other => other.data = entry.data } := by
  refine ⟨inv.rooms.perm (List.Perm.refl _) ?_, inv.dataLen⟩
  obtain ⟨first, front, back, _, isData, isList, isRest⟩ :=
    List.exists_of_eraseP (p := fun other => other.data = entry.data) member
      (decide_eq_true rfl)
  have sameData : first.data = entry.data := of_decide_eq_true isData
  have same : ctx.copies.Perm (entry.data ::
      ({ ctx with
        parked := ctx.parked.eraseP fun other => other.data = entry.data } :
          MsgbufContext).copies) := by
    simp only [copies, isRest]
    rw [isList, List.map_append, List.map_cons, List.map_append, sameData,
      ← List.append_assoc, ← List.append_assoc, ← List.append_assoc,
      ← List.append_assoc]
    exact List.perm_middle
  exact ((same.append_left loose).trans List.perm_middle).symm

/-- The first message that was put off is taken off the list. -/
theorem takePending (inv : RoomInv loose ctx) {entry : UbusPendingMsg}
    {pending : List UbusPendingMsg}
    (isPending : ctx.pending = entry :: pending) :
    RoomInv (entry.data :: loose) { ctx with pending := pending } := by
  have rooms := inv.rooms
  rw [copies, isPending] at rooms
  refine ⟨rooms.perm (List.Perm.refl _) ?_, inv.dataLen⟩
  exact ((List.Perm.append_left loose List.perm_middle).trans
    List.perm_middle).symm

/-- The copies of a request are handed over or freed, each of them once. -/
theorem processRest (req : Nat) (calls : Bool) :
    ∀ (entries : List UbusPendingData) (ctx : MsgbufContext),
      RoomInv [] ctx → entries ⊆ ctx.parked →
        (entries.map UbusPendingData.data).Nodup →
          RoomInv [] (ubusProcessReqDataRest req calls entries ctx)
  | [], ctx, inv, _, _ => by
      have unblocked : RoomInv []
          (ctx.setRequest req fun req => { req with blocked := false }) :=
        ⟨inv.rooms, inv.dataLen⟩
      cases calls with
      | true =>
          exact @call _ .callback _ unblocked rfl
      | false =>
          exact unblocked
  | entry :: rest, ctx, inv, parked, nodup => by
      obtain ⟨isParked, restParked⟩ := List.cons_subset.mp parked
      obtain ⟨isFirst, restNodup⟩ := List.nodup_cons.mp nodup
      have taken := inv.takeParked isParked
      rw [ubusProcessReqDataRest]
      dsimp only
      split
      · exact @call _ (.dataCallback req _ entry.data entry.bytes true) _ taken
          rfl
      · refine processRest req calls rest _ taken.free (fun other member => ?_)
          restNodup
        refine (List.mem_eraseP_of_neg ?_).mpr (restParked member)
        intro same
        exact isFirst (of_decide_eq_true same ▸ List.mem_map_of_mem member)

/-- The loose copies are freed one after the other. -/
theorem freeAll :
    ∀ (entries : List UbusPendingData) (ctx : MsgbufContext),
      RoomInv (entries.map UbusPendingData.data) ctx →
        RoomInv [] (entries.foldl (fun ctx entry => ctx.free entry.data) ctx)
  | [], _, inv => inv
  | _ :: rest, _, inv => freeAll rest _ inv.free

theorem abortRequest (inv : RoomInv [] ctx) (req : Nat) :
    RoomInv [] (ctx.ubusAbortRequest req) := by
  have parts := (List.filter_append_perm (fun entry => entry.req = req)
    ctx.parked).map UbusPendingData.data
  rw [ubusAbortRequest, MemoryInv.foldl_free_parked]
  refine freeAll _ _ ⟨inv.rooms.perm (List.Perm.refl _) ?_, inv.dataLen⟩
  rw [List.map_append] at parts
  refine (List.perm_append_comm_assoc _ _ _).trans (List.Perm.append_left _ ?_)
  refine (List.perm_append_comm_assoc _ _ _).trans (List.Perm.append_left _ ?_)
  simp only [ne_eq, decide_not]
  exact parts

/-! ## Processing a message -/

theorem processMsg (inv : RoomInv [] ctx) (message : Message)
    (isData : ctx.data = some ptr) (found : Option Nat) (calls alloc : Bool) :
    RoomInv [] (ctx.ubusProcessMsg message ptr found calls alloc) := by
  unfold ubusProcessMsg
  split
  · split
    · exact @call _ .callback _ inv rfl
    · exact inv
  split
  · cases found with
    | none =>
        exact inv
    | some req =>
        dsimp only
        split
        · rw [ubusProcessReqData]
          split
          · exact @call _ (.dataCallback req _ ptr message.data false) _
              ⟨inv.rooms, inv.dataLen⟩ rfl
          · split
            · refine ⟨(inv.rooms.copy message.data.length _).perm
                (List.Perm.refl _) ?_, inv.dataLen⟩
              simp only [copies, listAdd, List.map_cons, ← List.append_assoc]
              exact List.perm_middle
            · exact inv
        · exact inv
  split
  · split
    · refine ⟨(inv.rooms.copy message.data.length _).perm
        (List.Perm.refl _) ?_, inv.dataLen⟩
      exact List.perm_middle
    · split
      · -- the handler takes the block away from the context
        have rooms := inv.rooms
        rw [buffers, isData] at rooms
        exact ⟨rooms, inv.dataLen⟩
      · exact inv
  · exact inv

/-! ## Returns -/

theorem completeReturn (inv : RoomInv [] ctx) (registered : Bool) :
    RoomInv [] (ctx.completeRequestReturn registered) := by
  have unregistered : RoomInv [] { ctx with sockRegistered := false } :=
    ⟨inv.rooms, inv.dataLen⟩
  rw [completeRequestReturn]
  split
  · exact inv
  split
  · exact @call _ .processPending _ unregistered rfl
  · exact unregistered

/-- The block that a handler had comes back, unless there is another one. -/
theorem objReturn
    (rooms : ctx.heap.Rooms ubusMsgChunkSize (ptr :: ctx.buffers) ctx.copies)
    (dataLen : ctx.msgbufDataLen = ubusMsgChunkSize) :
    RoomInv [] (ctx.objCallbackReturn ptr true) := by
  rw [objCallbackReturn, if_pos rfl]
  cases isData : ctx.data with
  | some block =>
      exact ⟨rooms.forget.free, dataLen⟩
  | none =>
      rw [buffers, isData] at rooms
      exact ⟨rooms, dataLen⟩

/-- A data callback has returned; a copy lies loose. -/
theorem dataReturn {req : Nat} {raw copy : Bool} {bytes : List UInt8}
    (inv : RoomInv
      (MsgbufFrame.dataCallback req raw ptr bytes copy).copied.toList ctx)
    (calls : Bool) :
    RoomInv [] (ctx.dataCallbackReturn req raw ptr bytes copy calls) := by
  have rest : ∀ next : MsgbufContext, RoomInv [] next →
      RoomInv [] (ubusProcessReqDataRest req calls (next.parkedOf req) next) :=
    fun next nextInv =>
      processRest req calls _ next nextInv (List.filter_subset_self _) <|
        nextInv.nodup_parked.sublist
          (List.filter_sublist.map UbusPendingData.data)
  rw [dataCallbackReturn]
  cases copy with
  | true =>
      split
      · exact @call _ (.dataCallback req false ptr bytes true) _ inv rfl
      · exact rest _ inv.free
  | false =>
      split
      · exact @call _ (.dataCallback req false ptr bytes false) _ inv rfl
      · exact rest ctx inv

/-! ## Steps -/

theorem receive (inv : RoomInv [] ctx)
    (isTop : ctx.frames = .handleData :: outer) {message : Message}
    (formed : message.WellFormed) (moves : Option Bool) (count : Nat)
    (stops : Bool) (found : Option Nat) (calls alloc : Bool)
    {next : MsgbufContext}
    (taken : (match ctx.getNextMsg message moves count stops with
      | (none, ctx) => some { ctx with frames := outer }
      | (some (ptr, received), ctx) =>
          some (ctx.ubusProcessMsg received ptr found calls alloc)) = some next) :
    RoomInv [] next := by
  obtain ⟨heap, data, counter, isNext, rooms, isFound⟩ :=
    getNextMsg_rooms inv.rooms inv.dataLen formed moves count stops
  generalize ctx.getNextMsg message moves count stops = result
    at taken isNext isFound
  obtain ⟨read, after⟩ := result
  subst isNext
  have afterInv : RoomInv []
      { ctx with
        heap := heap
        data := data
        msgbufReductionCounter := counter } := ⟨rooms, inv.dataLen⟩
  cases read with
  | none =>
      cases taken
      exact @popCopy _ .handleData outer [] afterInv isTop rfl
  | some entry =>
      cases taken
      exact afterInv.processMsg entry.2 (isFound entry.1 entry.2 rfl) found calls
        alloc

theorem step (inv : RoomInv [] ctx) {action : MsgbufAction}
    {next : MsgbufContext} (taken : ctx.step action = some next) :
    RoomInv [] next := by
  cases action with
  | addUloop =>
      rw [MsgbufContext.step] at taken
      split at taken
      · cases taken
        exact ⟨inv.rooms, inv.dataLen⟩
      · cases taken
  | startRequest rawDataCb dataCb =>
      rw [MsgbufContext.step] at taken
      split at taken
      · cases taken
        exact ⟨inv.rooms, inv.dataLen⟩
      · cases taken
  | handleData =>
      have called := @call _ .handleData _ inv rfl
      simp only [MsgbufContext.step] at taken
      split at taken
      · cases taken
        exact called
      · split at taken
        · cases taken
          exact called
        · cases taken
  | receive message moves count stops found calls alloc =>
      simp only [MsgbufContext.step] at taken
      split at taken
      · rename_i isTop
        exact inv.receive isTop message.property moves count stops found calls
          alloc taken
      · cases taken
  | completeRequest =>
      rw [MsgbufContext.step] at taken
      split at taken
      · cases taken
        have called := @call _ (.completeRequest ctx.sockRegistered) _ inv rfl
        exact ⟨called.rooms, called.dataLen⟩
      · cases taken
  | requestDone =>
      simp only [MsgbufContext.step] at taken
      split at taken
      · rename_i registered outer isTop
        cases taken
        have popped : RoomInv [] { ctx with frames := outer } :=
          inv.popCopy isTop rfl
        have called := @call _ (.completeCallback registered) _ popped rfl
        exact ⟨called.rooms, called.dataLen⟩
      · cases taken
  | abortRequest req =>
      rw [MsgbufContext.step] at taken
      split at taken
      · cases taken
        exact inv.abortRequest req
      · cases taken
  | timerExpired =>
      rw [MsgbufContext.step] at taken
      split at taken
      · cases taken
        have called := @call _ .processPending _ inv rfl
        exact ⟨called.rooms, called.dataLen⟩
      · cases taken
  | processPending calls =>
      simp only [MsgbufContext.step] at taken
      split at taken
      · rename_i outer isTop
        have popped : RoomInv [] { ctx with frames := outer } :=
          inv.popCopy isTop rfl
        split at taken
        · cases taken
          exact popped
        · split at taken
          · cases taken
            exact popped
          · rename_i entry pending isPending
            have loose := inv.takePending isPending
            cases calls with
            | true =>
                cases taken
                exact @call _ (.objCallback entry.data entry.message.data
                  false) _ loose rfl
            | false =>
                cases taken
                exact loose.free
      · cases taken
  | returns calls =>
      simp only [MsgbufContext.step] at taken
      split at taken
      · rename_i outer isTop
        cases taken
        exact inv.popCopy isTop rfl
      · rename_i outer isTop
        cases taken
        exact inv.popCopy isTop rfl
      · rename_i registered outer isTop
        cases taken
        have popped : RoomInv [] { ctx with frames := outer } :=
          inv.popCopy isTop rfl
        exact popped.completeReturn registered
      · rename_i ptr bytes prevData outer isTop
        cases taken
        cases prevData with
        | true =>
            exact objReturn (inv.pop isTop) inv.dataLen
        | false =>
            exact (inv.popCopy isTop rfl).free
      · rename_i req raw ptr bytes copy outer isTop
        cases taken
        have popped := inv.popCopy isTop rfl
        rw [List.append_nil] at popped
        exact popped.dataReturn calls
      · cases taken
      · cases taken
      · cases taken

end RoomInv

end MsgbufContext

open MsgbufContext

theorem receiver_roomInv_init : RoomInv [] receiver.init := by
  refine ⟨⟨⟨List.nodup_singleton _, fun ptr member => ?_⟩,
    fun ptr member => ?_⟩, rfl⟩
  · rw [List.mem_singleton.mp member]
    exact ⟨⟨ubusMsgChunkSize, fun _ => 0⟩, rfl⟩
  · rw [List.mem_singleton.mp member]
    exact ⟨⟨ubusMsgChunkSize, fun _ => 0⟩, rfl, Nat.le_refl _⟩

/-- Whenever `alloc_msg_buf` succeeds for a message, `ctx->msgbuf.data` has room
for it, so no part of it that `get_next_msg` writes lies outside. -/
theorem receiver_msgbuf_room {actions : List MsgbufAction}
    {ctx : MsgbufContext} (reached : receiver.run actions = some ctx)
    {message : Message} (formed : message.WellFormed) {moves : Option Bool}
    (allocated : (ctx.allocMsgBuf (blobRawLen message.data).toNat
      moves).1 = true) :
    ∃ ptr block,
      (ctx.allocMsgBuf (blobRawLen message.data).toNat moves).2.data =
          some ptr ∧
        (ctx.allocMsgBuf (blobRawLen message.data).toNat moves).2.heap.block
            ptr = some block ∧
          (blobRawLen message.data).toNat ≤ block.capacity ∧
            ∀ count, (message.data.take (4 + count)).length ≤
              block.capacity := by
  have inv : RoomInv [] ctx :=
    Machine.invariant_of_step receiver_roomInv_init
      (fun _ _ _ inv taken => inv.step taken) reached
  have positive : 0 < (blobRawLen message.data).toNat :=
    Nat.lt_of_lt_of_le (by decide) formed.rawLen
  obtain ⟨heap, data, counter, isNext, _, room⟩ :=
    allocMsgBuf_rooms inv.rooms inv.dataLen positive moves
  obtain ⟨ptr, isData, block, live, enough⟩ := room allocated
  rw [isNext]
  refine ⟨ptr, block, isData, live, enough, fun count => ?_⟩
  have length := formed.dataLength
  have taken := List.length_take_le (4 + count) message.data
  rw [List.length_take]
  omega

/-- The next message of a handler that asks finds room as well. -/
theorem receiver_msgbuf_room_handlerAsks :
    ∃ ctx ptr block, receiver.run handlerAsks = some ctx ∧
      (ctx.allocMsgBuf 12 none).2.data = some ptr ∧
        (ctx.allocMsgBuf 12 none).2.heap.block ptr = some block ∧
          12 ≤ block.capacity := by
  obtain ⟨ptr, block, isData, live, enough, _⟩ :=
    @receiver_msgbuf_room handlerAsks _ rfl firstData.val firstData.property
      none (by decide)
  exact ⟨_, ptr, block, rfl, isData, live, enough⟩

end LibubusJni.Libubus
