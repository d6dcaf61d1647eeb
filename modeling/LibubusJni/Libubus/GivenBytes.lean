import LibubusJni.Libubus.Msgbuf
import LibubusJni.Lib.Machine
import Mathlib.Data.List.Nodup

/-!
# The bytes a callback was given

A handler is given a buffer that the context has let go of, and a copy is
nobody else's; a callback that was given `ctx->msgbuf` itself keeps its bytes as
long as no further message is read.
-/

namespace LibubusJni.Libubus

open LibubusJni.Lib LibubusJni.Libubox

namespace MsgbufFrame

/-- The block that the call frees or gives back to the context at its end. -/
def kept (frame : MsgbufFrame) : Option (Nat × List UInt8) :=
  if frame.onMsgbuf then none else frame.given

/-- The handler runs while `ctx->msgbuf.data` is taken away. -/
def detached : MsgbufFrame → Bool
  | .objCallback _ _ prevData => prevData
  | .dataCallback .. | .handleData | .callback | .completeRequest _
  | .completeCallback _ | .processPending => false

end MsgbufFrame

namespace MsgbufContext

/-- What every active callback was given is still there. -/
def GivenUnchanged (ctx : MsgbufContext) : Prop :=
  ∀ frame ∈ ctx.frames, ∀ ptr bytes,
    frame.given = some (ptr, bytes) → ctx.heap.Reads ptr bytes

/-- A message is read only while no data callback runs on `ctx->msgbuf`. -/
def ReadsBesideCallbacks (ctx : MsgbufContext) : MsgbufAction → Prop
  | .receive .. => ∀ frame ∈ ctx.frames, frame.onMsgbuf = false
  | .addUloop | .startRequest .. | .handleData | .completeRequest | .requestDone
  | .abortRequest _ | .timerExpired | .processPending _ | .returns _ => True

instance (ctx : MsgbufContext) (action : MsgbufAction) :
    Decidable (ctx.ReadsBesideCallbacks action) :=
  match action with
  | .receive .. =>
      inferInstanceAs (Decidable (∀ frame ∈ ctx.frames, frame.onMsgbuf = false))
  | .addUloop | .startRequest .. | .handleData | .completeRequest | .requestDone
  | .abortRequest _ | .timerExpired | .processPending _ | .returns _ =>
      isTrue trivial

/-- The copies, and the buffers of the active callbacks. -/
def kept (ctx : MsgbufContext) : List (Nat × List UInt8) :=
  ctx.frames.filterMap MsgbufFrame.kept ++
    (ctx.pending.map (fun entry => (entry.data, entry.message.data)) ++
      ctx.parked.map fun entry => (entry.data, entry.bytes))

/-- Each block has one owner; `loose` are copies that no list and no callback
holds at the moment. -/
structure MemoryInv (loose : List (Nat × List UInt8)) (ctx : MsgbufContext) :
    Prop where
  custody : ctx.heap.Custody ctx.data.toList (loose ++ ctx.kept)
  onMsgbuf : ∀ frame ∈ ctx.frames, frame.onMsgbuf = true →
    ∀ ptr bytes, frame.given = some (ptr, bytes) →
      ctx.data = some ptr ∧ ctx.heap.Reads ptr bytes
  /-- A handler does not run on top of a callback on `ctx->msgbuf`. -/
  layered : ctx.frames.Pairwise fun inner outer =>
    inner.detached = true → outer.onMsgbuf = false

variable {ctx : MsgbufContext} {frame : MsgbufFrame} {outer : List MsgbufFrame}
  {ptr : Nat} {bytes : List UInt8} {loose : List (Nat × List UInt8)}

theorem kept_call (ctx : MsgbufContext) (frame : MsgbufFrame) :
    (ctx.call frame).kept = frame.kept.toList ++ ctx.kept := by
  rw [kept, kept, call, List.filterMap_cons]
  cases frame.kept <;> rfl

theorem kept_frames (isTop : ctx.frames = frame :: outer) :
    ctx.kept =
      frame.kept.toList ++ ({ ctx with frames := outer } : MsgbufContext).kept := by
  rw [← kept_call, kept, kept, isTop]
  rfl

namespace MemoryInv

theorem givenUnchanged (inv : MemoryInv loose ctx) : ctx.GivenUnchanged := by
  intro frame member ptr bytes isGiven
  cases onMsgbuf : frame.onMsgbuf with
  | true =>
      exact (inv.onMsgbuf frame member onMsgbuf ptr bytes isGiven).2
  | false =>
      have isKept : frame.kept = some (ptr, bytes) := by
        rw [MsgbufFrame.kept, onMsgbuf]
        exact isGiven
      refine inv.custody.reads (ptr, bytes) (List.mem_append_right loose ?_)
      exact List.mem_append_left _ (List.mem_filterMap.mpr ⟨frame, member, isKept⟩)

/-- Nobody runs on `ctx->msgbuf`. -/
theorem beside (custody : ctx.heap.Custody ctx.data.toList (loose ++ ctx.kept))
    (beside : ∀ frame ∈ ctx.frames, frame.onMsgbuf = false) :
    MemoryInv loose ctx := by
  refine ⟨custody, fun frame member onMsgbuf => ?_, ?_⟩
  · rw [beside frame member] at onMsgbuf
    cases onMsgbuf
  · exact List.pairwise_of_forall_mem_list fun _ _ other member _ =>
      beside other member

/-! ## Calls and returns -/

/-- A call is given what lay loose, or nothing. -/
theorem call (inv : MemoryInv (frame.kept.toList ++ loose) ctx)
    (notDetached : frame.detached = false) (notOnMsgbuf : frame.onMsgbuf = false) :
    MemoryInv loose (ctx.call frame) := by
  refine ⟨?_, fun other member onMsgbuf => ?_, List.pairwise_cons.mpr
    ⟨fun _ _ detached => ?_, inv.layered⟩⟩
  · rw [kept_call, ← List.append_assoc]
    exact inv.custody.perm (List.perm_append_comm.append_right ctx.kept)
  · rcases List.mem_cons.mp member with isNew | old
    · rw [isNew, notOnMsgbuf] at onMsgbuf
      cases onMsgbuf
    · exact inv.onMsgbuf other old onMsgbuf
  · rw [notDetached] at detached
    cases detached

/-- A data callback is given `ctx->msgbuf`. -/
theorem callOnMsgbuf (inv : MemoryInv loose ctx) (req : Nat) (raw : Bool)
    (isData : ctx.data = some ptr) (reads : ctx.heap.Reads ptr bytes) :
    MemoryInv loose (ctx.call (.dataCallback req raw ptr bytes false)) := by
  refine ⟨inv.custody, fun other member onMsgbuf => ?_,
    List.pairwise_cons.mpr
      ⟨fun _ _ detached => Bool.noConfusion detached, inv.layered⟩⟩
  rcases List.mem_cons.mp member with isNew | old
  · rw [isNew]
    intro otherPtr otherBytes isGiven
    cases isGiven
    exact ⟨isData, reads⟩
  · exact inv.onMsgbuf other old onMsgbuf

/-- A call ends; its copy lies loose. -/
theorem pop (inv : MemoryInv loose ctx) (isTop : ctx.frames = frame :: outer) :
    MemoryInv (frame.kept.toList ++ loose) { ctx with frames := outer } := by
  refine ⟨?_, fun other member => ?_, ?_⟩
  · have custody := inv.custody
    rw [kept_frames isTop, ← List.append_assoc] at custody
    exact custody.perm (List.perm_append_comm.append_right _)
  · exact inv.onMsgbuf other (isTop ▸ List.mem_cons_of_mem frame member)
  · exact (List.pairwise_cons.mp (isTop ▸ inv.layered)).2

theorem free (inv : MemoryInv ((ptr, bytes) :: loose) ctx) :
    MemoryInv loose (ctx.free ptr) := by
  refine ⟨inv.custody.free, fun frame member onMsgbuf other otherBytes isGiven => ?_,
    inv.layered⟩
  obtain ⟨isData, reads⟩ :=
    inv.onMsgbuf frame member onMsgbuf other otherBytes isGiven
  refine ⟨isData, inv.custody.free_reads ?_ reads⟩
  rw [isData]
  exact List.mem_singleton_self other

end MemoryInv

/-! ## Reading -/

variable {kept : List (Nat × List UInt8)}

/-- `alloc_msg_buf` changes no block but that of `ctx->msgbuf`. -/
theorem allocMsgBuf_custody (custody : ctx.heap.Custody ctx.data.toList kept)
    (len : Nat) (moves : Option Bool) :
    ∃ heap data counter,
      (ctx.allocMsgBuf len moves).2 =
          { ctx with
            heap := heap
            data := data
            msgbufReductionCounter := counter } ∧
        heap.Custody data.toList kept := by
  rw [allocMsgBuf]
  -- the first split takes the pair of buf_len and the counter apart
  split
  dsimp only
  split
  · exact ⟨_, _, _, rfl, custody⟩
  · cases moves with
    | none =>
        exact ⟨_, _, _, rfl, custody⟩
    | some moves =>
        refine ⟨_, _, _, rfl, ?_⟩
        cases isData : ctx.data with
        | none =>
            rw [isData] at custody
            exact custody.malloc _ _
        | some ptr =>
            rw [isData] at custody
            exact custody.realloc _ _

/-- `get_next_msg` leaves the message in the block of `ctx->msgbuf`. -/
theorem getNextMsg_custody (custody : ctx.heap.Custody ctx.data.toList kept)
    (message : Message) (moves : Option Bool) (count : Nat) (stops : Bool) :
    ∃ heap data counter,
      (ctx.getNextMsg message moves count stops).2 =
          { ctx with
            heap := heap
            data := data
            msgbufReductionCounter := counter } ∧
        heap.Custody data.toList kept ∧
        ∀ ptr received,
          (ctx.getNextMsg message moves count stops).1 = some (ptr, received) →
            data = some ptr ∧ heap.Reads ptr received.data := by
  obtain ⟨heap, data, counter, isNext, nextCustody⟩ :=
    allocMsgBuf_custody custody (blobRawLen message.data).toNat moves
  rw [getNextMsg]
  generalize ctx.allocMsgBuf (blobRawLen message.data).toNat moves = result
    at isNext
  obtain ⟨allocated, next⟩ := result
  subst isNext
  cases allocated with
  | false =>
      exact ⟨_, _, _, rfl, nextCustody, fun _ _ isNone => nomatch isNone⟩
  | true =>
      cases data with
      | none =>
          exact ⟨_, _, _, rfl, nextCustody, fun _ _ isNone => nomatch isNone⟩
      | some ptr =>
          have stored := nextCustody.store (message.data.take (4 + count))
          obtain ⟨block, live⟩ := stored.owned.live ptr List.mem_cons_self
          simp only [if_true]
          split
          · exact ⟨_, _, _, rfl, stored, fun _ _ isNone => nomatch isNone⟩
          · refine ⟨_, _, _, rfl, stored, fun other received isSome => ?_⟩
            cases isSome
            exact ⟨rfl, Heap.reads_contents live _⟩

/-! ## Copies -/

namespace MemoryInv

theorem nodup_parked (inv : MemoryInv loose ctx) :
    (ctx.parked.map UbusPendingData.data).Nodup := by
  have all := inv.custody.owned.nodup
  simp only [kept, List.map_append, List.map_map] at all
  exact all.of_append_right.of_append_right.of_append_right.of_append_right

/-- A copy is taken off the list of a request. -/
theorem takeParked (inv : MemoryInv loose ctx) {entry : UbusPendingData}
    (member : entry ∈ ctx.parked) :
    MemoryInv ((entry.data, entry.bytes) :: loose)
      { ctx with
        parked := ctx.parked.eraseP fun other => other.data = entry.data } := by
  refine ⟨?_, inv.onMsgbuf, inv.layered⟩
  obtain ⟨first, front, back, _, isData, isList, isRest⟩ :=
    List.exists_of_eraseP (p := fun other => other.data = entry.data) member
      (decide_eq_true rfl)
  have isFirst : first = entry :=
    List.inj_on_of_nodup_map inv.nodup_parked
      (isList ▸ List.mem_append_right front List.mem_cons_self) member
      (of_decide_eq_true isData)
  subst isFirst
  have same : ctx.kept.Perm ((first.data, first.bytes) ::
      ({ ctx with
        parked := ctx.parked.eraseP fun other => other.data = first.data } :
          MsgbufContext).kept) := by
    simp only [kept, isRest]
    rw [isList, List.map_append, List.map_cons, List.map_append,
      ← List.append_assoc, ← List.append_assoc, ← List.append_assoc,
      ← List.append_assoc]
    exact List.perm_middle
  have whole := (same.append_left loose).trans List.perm_middle
  exact inv.custody.perm whole.symm

/-- The first message that was put off is taken off the list. -/
theorem takePending (inv : MemoryInv loose ctx) {entry : UbusPendingMsg}
    {pending : List UbusPendingMsg} (isPending : ctx.pending = entry :: pending) :
    MemoryInv ((entry.data, entry.message.data) :: loose)
      { ctx with pending := pending } := by
  refine ⟨?_, inv.onMsgbuf, inv.layered⟩
  have custody := inv.custody
  rw [kept, isPending] at custody
  refine custody.perm ((List.Perm.append_left loose ?_).trans List.perm_middle).symm
  exact List.perm_middle

theorem setRequest (inv : MemoryInv loose ctx) (req : Nat)
    (change : DataRequest → DataRequest) :
    MemoryInv loose (ctx.setRequest req change) :=
  ⟨inv.custody, inv.onMsgbuf, inv.layered⟩

/-- The copies of a request are handed over or freed, each of them once. -/
theorem processRest (req : Nat) (calls : Bool) :
    ∀ (entries : List UbusPendingData) (ctx : MsgbufContext),
      MemoryInv [] ctx → entries ⊆ ctx.parked →
        (entries.map UbusPendingData.data).Nodup →
          MemoryInv [] (ubusProcessReqDataRest req calls entries ctx)
  | [], ctx, inv, _, _ => by
      have unblocked := inv.setRequest req fun req => { req with blocked := false }
      cases calls with
      | true =>
          exact @call _ .callback _ unblocked rfl rfl
      | false =>
          exact unblocked
  | entry :: rest, ctx, inv, parked, nodup => by
      obtain ⟨isParked, restParked⟩ := List.cons_subset.mp parked
      obtain ⟨isFirst, restNodup⟩ := List.nodup_cons.mp nodup
      have taken := inv.takeParked isParked
      rw [ubusProcessReqDataRest]
      dsimp only
      split
      · exact @call _ (.dataCallback req _ entry.data entry.bytes true) _ taken
          rfl rfl
      · refine processRest req calls rest _ taken.free (fun other member => ?_)
          restNodup
        refine (List.mem_eraseP_of_neg ?_).mpr (restParked member)
        intro same
        exact isFirst (of_decide_eq_true same ▸ List.mem_map_of_mem member)

/-- The loose copies are freed one after the other. -/
theorem freeAll :
    ∀ (entries : List UbusPendingData) (ctx : MsgbufContext),
      MemoryInv (entries.map fun entry => (entry.data, entry.bytes)) ctx →
        MemoryInv [] (entries.foldl (fun ctx entry => ctx.free entry.data) ctx)
  | [], _, inv => inv
  | _ :: rest, _, inv => freeAll rest _ inv.free

theorem foldl_free_parked (parked : List UbusPendingData) :
    ∀ (entries : List UbusPendingData) (ctx : MsgbufContext),
      { entries.foldl (fun ctx entry => ctx.free entry.data) ctx with
          parked := parked } =
        entries.foldl (fun ctx entry => ctx.free entry.data)
          { ctx with parked := parked }
  | [], _ => rfl
  | _ :: rest, _ => foldl_free_parked parked rest _

theorem abortRequest (inv : MemoryInv [] ctx) (req : Nat) :
    MemoryInv [] (ctx.ubusAbortRequest req) := by
  have cancelled := inv.setRequest req fun req => { req with cancelled := true }
  have parts := (List.filter_append_perm (fun entry => entry.req = req)
    ctx.parked).map fun entry => (entry.data, entry.bytes)
  rw [ubusAbortRequest, foldl_free_parked]
  refine freeAll _ _ ⟨?_, cancelled.onMsgbuf, cancelled.layered⟩
  refine cancelled.custody.perm ?_
  rw [List.map_append] at parts
  refine (List.perm_append_comm_assoc _ _ _).trans (List.Perm.append_left _ ?_)
  refine (List.perm_append_comm_assoc _ _ _).trans (List.Perm.append_left _ ?_)
  simp only [ne_eq, decide_not]
  exact parts

/-! ## Processing a message -/

/-- A message in `ctx->msgbuf` that is read while nobody runs on it. -/
theorem processMsg (inv : MemoryInv [] ctx)
    (beside : ∀ frame ∈ ctx.frames, frame.onMsgbuf = false)
    (message : Message) (isData : ctx.data = some ptr)
    (reads : ctx.heap.Reads ptr message.data)
    (found : Option Nat) (calls alloc : Bool) :
    MemoryInv [] (ctx.ubusProcessMsg message ptr found calls alloc) := by
  unfold ubusProcessMsg
  split
  · split
    · exact @call _ .callback _ inv rfl rfl
    · exact inv
  split
  · cases found with
    | none =>
        exact inv
    | some req =>
        dsimp only
        split
        · rw [ubusProcessReqData]
          split
          · exact (inv.setRequest req _).callOnMsgbuf req _ isData reads
          · split
            · refine MemoryInv.beside ?_ beside
              refine (inv.custody.copy message.data).perm ?_
              simp only [kept, listAdd, List.map_cons, ← List.append_assoc]
              exact List.perm_middle
            · exact inv
        · exact inv
  split
  · split
    · refine MemoryInv.beside ?_ beside
      refine (inv.custody.copy message.data).perm ?_
      exact List.perm_middle
    · split
      · have custody := inv.custody
        rw [isData] at custody
        refine MemoryInv.beside (custody.keep reads) fun frame member => ?_
        rcases List.mem_cons.mp member with isNew | old
        · rw [isNew]
          rfl
        · exact beside frame old
      · exact inv
  · exact inv

/-! ## Returns -/

theorem completeReturn (inv : MemoryInv [] ctx) (registered : Bool) :
    MemoryInv [] (ctx.completeRequestReturn registered) := by
  have unregistered : MemoryInv [] { ctx with sockRegistered := false } :=
    ⟨inv.custody, inv.onMsgbuf, inv.layered⟩
  rw [completeRequestReturn]
  split
  · exact inv
  split
  · exact @call _ .processPending _ unregistered rfl rfl
  · exact unregistered

/-- A handler has returned and its buffer lies loose. -/
theorem objReturn {prevData : Bool} (inv : MemoryInv [(ptr, bytes)] ctx)
    (beside : prevData = true → ∀ frame ∈ ctx.frames, frame.onMsgbuf = false) :
    MemoryInv [] (ctx.objCallbackReturn ptr prevData) := by
  rw [objCallbackReturn]
  cases prevData with
  | false =>
      exact inv.free
  | true =>
      simp only [if_true]
      cases isData : ctx.data with
      | some block =>
          exact inv.free
      | none =>
          have custody := inv.custody
          rw [isData] at custody
          exact MemoryInv.beside custody.work (beside rfl)

/-- A data callback has returned; a copy lies loose. -/
theorem dataReturn {req : Nat} {raw copy : Bool}
    (inv : MemoryInv
      (MsgbufFrame.dataCallback req raw ptr bytes copy).kept.toList ctx)
    (onMsgbuf : copy = false →
      ctx.data = some ptr ∧ ctx.heap.Reads ptr bytes)
    (calls : Bool) :
    MemoryInv [] (ctx.dataCallbackReturn req raw ptr bytes copy calls) := by
  have rest : ∀ next : MsgbufContext, MemoryInv [] next →
      MemoryInv [] (ubusProcessReqDataRest req calls (next.parkedOf req) next) :=
    fun next nextInv =>
      processRest req calls _ next nextInv (List.filter_subset_self _) <|
        nextInv.nodup_parked.sublist
          (List.filter_sublist.map UbusPendingData.data)
  rw [dataCallbackReturn]
  cases copy with
  | true =>
      split
      · exact @call _ (.dataCallback req false ptr bytes true) _ inv rfl rfl
      · exact rest _ inv.free
  | false =>
      split
      · obtain ⟨isData, reads⟩ := onMsgbuf rfl
        exact inv.callOnMsgbuf req false isData reads
      · exact rest ctx inv

/-! ## Steps -/

/-- A message is read beside the active callbacks. -/
theorem receive (inv : MemoryInv [] ctx)
    (isTop : ctx.frames = .handleData :: outer)
    (beside : ∀ frame ∈ ctx.frames, frame.onMsgbuf = false)
    (message : Message) (moves : Option Bool) (count : Nat) (stops : Bool)
    (found : Option Nat) (calls alloc : Bool) {next : MsgbufContext}
    (taken : (match ctx.getNextMsg message moves count stops with
      | (none, ctx) => some { ctx with frames := outer }
      | (some (ptr, received), ctx) =>
          some (ctx.ubusProcessMsg received ptr found calls alloc)) = some next) :
    MemoryInv [] next := by
  obtain ⟨heap, data, counter, isNext, custody, isFound⟩ :=
    getNextMsg_custody inv.custody message moves count stops
  generalize ctx.getNextMsg message moves count stops = result
    at taken isNext isFound
  obtain ⟨read, after⟩ := result
  subst isNext
  have afterInv : MemoryInv []
      { ctx with
        heap := heap
        data := data
        msgbufReductionCounter := counter } :=
    MemoryInv.beside custody beside
  cases read with
  | none =>
      cases taken
      exact @pop _ .handleData outer [] afterInv isTop
  | some entry =>
      cases taken
      obtain ⟨isData, reads⟩ := isFound entry.1 entry.2 rfl
      exact afterInv.processMsg beside entry.2 isData reads found calls alloc

theorem step (inv : MemoryInv [] ctx) {action : MsgbufAction}
    (beside : ReadsBesideCallbacks ctx action) {next : MsgbufContext}
    (taken : ctx.step action = some next) : MemoryInv [] next := by
  cases action with
  | addUloop =>
      rw [MsgbufContext.step] at taken
      split at taken
      · cases taken
        exact ⟨inv.custody, inv.onMsgbuf, inv.layered⟩
      · cases taken
  | startRequest rawDataCb dataCb =>
      rw [MsgbufContext.step] at taken
      split at taken
      · cases taken
        exact ⟨inv.custody, inv.onMsgbuf, inv.layered⟩
      · cases taken
  | handleData =>
      have called := @call _ .handleData _ inv rfl rfl
      simp only [MsgbufContext.step] at taken
      split at taken
      · cases taken
        exact called
      · split at taken
        · cases taken
          exact called
        · cases taken
  | receive message moves count stops found calls alloc =>
      simp only [MsgbufContext.step] at taken
      split at taken
      · rename_i isTop
        exact inv.receive isTop beside message.val moves count stops found calls
          alloc taken
      · cases taken
  | completeRequest =>
      rw [MsgbufContext.step] at taken
      split at taken
      · cases taken
        have called := @call _ (.completeRequest ctx.sockRegistered) _ inv rfl rfl
        exact ⟨called.custody, called.onMsgbuf, called.layered⟩
      · cases taken
  | requestDone =>
      simp only [MsgbufContext.step] at taken
      split at taken
      · rename_i registered outer isTop
        cases taken
        have popped : MemoryInv [] { ctx with frames := outer } := inv.pop isTop
        have called := @call _ (.completeCallback registered) _ popped rfl rfl
        exact ⟨called.custody, called.onMsgbuf, called.layered⟩
      · cases taken
  | abortRequest req =>
      rw [MsgbufContext.step] at taken
      split at taken
      · cases taken
        exact inv.abortRequest req
      · cases taken
  | timerExpired =>
      rw [MsgbufContext.step] at taken
      split at taken
      · cases taken
        have called := @call _ .processPending _ inv rfl rfl
        exact ⟨called.custody, called.onMsgbuf, called.layered⟩
      · cases taken
  | processPending calls =>
      simp only [MsgbufContext.step] at taken
      split at taken
      · rename_i outer isTop
        have popped : MemoryInv [] { ctx with frames := outer } := inv.pop isTop
        split at taken
        · cases taken
          exact popped
        · split at taken
          · cases taken
            exact popped
          · rename_i entry pending isPending
            have loose := inv.takePending isPending
            cases calls with
            | true =>
                cases taken
                exact @call _ (.objCallback entry.data entry.message.data
                  false) _ loose rfl rfl
            | false =>
                cases taken
                exact loose.free
      · cases taken
  | returns calls =>
      simp only [MsgbufContext.step] at taken
      split at taken
      · rename_i outer isTop
        cases taken
        exact inv.pop isTop
      · rename_i outer isTop
        cases taken
        exact inv.pop isTop
      · rename_i registered outer isTop
        cases taken
        have popped : MemoryInv [] { ctx with frames := outer } := inv.pop isTop
        exact popped.completeReturn registered
      · rename_i ptr bytes prevData outer isTop
        cases taken
        have below := (List.pairwise_cons.mp (isTop ▸ inv.layered)).1
        exact (inv.pop isTop).objReturn fun isDetached frame member =>
          below frame member isDetached
      · rename_i req raw ptr bytes copy outer isTop
        cases taken
        have popped := inv.pop isTop
        rw [List.append_nil] at popped
        refine popped.dataReturn (fun isMsgbuf => ?_) calls
        subst isMsgbuf
        exact inv.onMsgbuf _ (isTop ▸ List.mem_cons_self) rfl ptr bytes rfl
      · cases taken
      · cases taken
      · cases taken

end MemoryInv

end MsgbufContext

open MsgbufContext

variable {actions : List MsgbufAction} {ctx : MsgbufContext}

theorem receiver_memoryInv_init : MemoryInv [] receiver.init := by
  refine ⟨⟨⟨List.nodup_singleton _, fun ptr member => ?_⟩, nofun⟩, nofun,
    List.Pairwise.nil⟩
  rw [List.mem_singleton.mp member]
  exact ⟨⟨ubusMsgChunkSize, fun _ => 0⟩, rfl⟩

/-- As long as no message is read while a data callback runs on `ctx->msgbuf`,
every active callback finds the bytes it was given. -/
theorem receiver_givenUnchanged (reached : receiver.run actions = some ctx)
    (meets : receiver.Meets ReadsBesideCallbacks receiver.init actions) :
    ctx.GivenUnchanged := by
  have inv : MemoryInv [] ctx :=
    Machine.invariant_of_permitted receiver_memoryInv_init
      (fun _ _ _ inv beside taken => inv.step beside taken) meets reached
  exact inv.givenUnchanged

def invokeMsg : { message : Message // message.WellFormed } :=
  ⟨⟨[0, 5, 0, 1, 0, 0, 0, 1], [0, 0, 0, 12, 7, 0, 0, 8, 1, 1, 1, 1]⟩,
    by decide⟩

def firstData : { message : Message // message.WellFormed } :=
  ⟨⟨[0, 2, 0, 1, 0, 0, 0, 1], [0, 0, 0, 12, 7, 0, 0, 8, 1, 2, 3, 4]⟩,
    by decide⟩

def secondData : { message : Message // message.WellFormed } :=
  ⟨⟨[0, 2, 0, 2, 0, 0, 0, 1], [0, 0, 0, 12, 7, 0, 0, 8, 5, 6, 7, 8]⟩,
    by decide⟩

/-- A handler makes a synchronous request, to which an answer arrives. -/
def handlerAsks : List MsgbufAction :=
  [.handleData, .receive invokeMsg none 8 false none true true,
    .startRequest false true, .completeRequest, .handleData,
    .receive secondData (some false) 8 false (some 1) true true]

theorem receiver_givenUnchanged_handlerAsks :
    ∃ ctx, receiver.run handlerAsks = some ctx ∧
      ctx.frames.length = 5 ∧ ctx.GivenUnchanged := by
  refine ⟨_, rfl, rfl, @receiver_givenUnchanged handlerAsks _ rfl ?_⟩
  apply Machine.Meets.cons trivial rfl
  apply Machine.Meets.cons (by decide) rfl
  apply Machine.Meets.cons trivial rfl
  apply Machine.Meets.cons trivial rfl
  apply Machine.Meets.cons trivial rfl
  apply Machine.Meets.cons (by decide) rfl
  exact trivial

/-- `data_cb` makes a synchronous request of its own; the answer is written over
the message it was given. -/
theorem receiver_overwrites_given :
    ∃ ctx,
      receiver.run
          [.startRequest false true, .handleData,
            .receive firstData none 8 false (some 1) true true,
            .startRequest false true, .completeRequest, .handleData,
            .receive secondData none 8 false (some 2) true true] = some ctx ∧
        ¬ ctx.GivenUnchanged := by
  refine ⟨_, rfl, fun unchanged => ?_⟩
  obtain ⟨block, live, holds⟩ := unchanged
    (.dataCallback 1 false 0 firstData.val.data false)
    (@List.mem_of_getElem? _ _ 3 _ rfl) 0 firstData.val.data rfl
  cases live
  have overwritten := holds 8 (by decide)
  revert overwritten
  decide

end LibubusJni.Libubus
