import LibubusJni.Libubox.Blobmsg
import LibubusJni.Ubusd.Policy
import LibubusJni.Ubusd.Receive

/-!
# What is copied into a message buffer and read out of it

`client_cb` allocates the raw length of a message, copies the attribute header
and then the payload, and hands the buffer to `ubusd_proto_receive_message`.
There `blob_parse` runs over the message if its type has a handler, and
`ubus_create_obj_type` runs over the signature of a new object.  The bytes
behind the stored ones are whatever the memory holds.
-/

namespace LibubusJni.Ubusd

open LibubusJni.Lib LibubusJni.Libubox

/-- What `blob_for_each_attr` reads in `ubus_create_obj_type`, which leaves the
loop at the first attribute that `blobmsg_check_attr` rejects. -/
def signatureReads (mem : Memory) (type : UInt8) : List Nat :=
  if type = UbusMsgType.addObject.code then
    match ubusParseMsg mem .objtype, ubusParseMsg mem .signature with
    | none, some sig =>
        blobForEachAttrReads mem sig fun pos => blobmsgCheckAttr mem pos true
    | _, _ => []
  else []

/-- What a handler's `blob_parse` and `blob_for_each_attr` read. -/
def handlerReads (mem : Memory) (type : UInt8) : List Nat :=
  if hasHandler type then
    blobParseReads mem 0 ubusPolicy ubusAttrMax ++ signatureReads mem type
  else []

/-- `hdr.type` of a message. -/
def messageType (message : Message) : UInt8 := message.hdr.getD 1 0

/-- All that was copied into the buffer and all that is read out of it lies
inside the raw length allocated for it. -/
def AccessesInside (message : Message) : Prop :=
  message.data.length ≤ (blobRawLen message.data).toNat ∧
    ∀ mem : Memory,
      (∀ addr, addr < message.data.length →
        mem addr = memoryOf message.data addr) →
      ∀ addr ∈ handlerReads mem (messageType message),
        addr < (blobRawLen message.data).toNat

/-- The length field covers the attribute header; if the type has a handler,
the attributes leave nothing or at least four bytes behind the last one, and
those that the policy calls strings have a length field of at least four. -/
structure Readable (message : Message) : Prop where
  rawLen : 4 ≤ (blobRawLen message.data).toNat
  remainder :
    hasHandler (messageType message) = true →
      blobForEachAttrRem (memoryOf message.data) 0 = 0 ∨
        4 ≤ blobForEachAttrRem (memoryOf message.data) 0
  strings :
    hasHandler (messageType message) = true →
      ∀ attr ∈ blobForEachAttr (memoryOf message.data) 0,
        let header := attrAt (memoryOf message.data) attr
        blobId header < ubusAttrMax → ubusPolicy (blobId header) = .string →
          4 ≤ (blobRawLen header).toNat

/-! ## One message -/

theorem headerBytes_inside_iff {pos limit : Nat} :
    (∀ addr ∈ headerBytes pos, addr < limit) ↔ pos + 4 ≤ limit := by
  simp only [headerBytes, List.mem_cons, List.not_mem_nil, or_false,
    forall_eq_or_imp, forall_eq]
  omega

/-- The loop of `blob_parse` reads headers only, and reads them inside the
message unless the attributes leave one to three bytes. -/
theorem forEachReads_inside_iff
    {mem : Memory}
    (four : 4 ≤ (blobRawLen (attrAt mem 0)).toNat) :
    (∀ addr ∈ blobForEachAttrReads mem 0 fun _ => true,
        addr < (blobRawLen (attrAt mem 0)).toNat) ↔
      blobForEachAttrRem mem 0 = 0 ∨ 4 ≤ blobForEachAttrRem mem 0 := by
  have whole :
      4 + ((blobRawLen (attrAt mem 0)).toNat - 4) =
        (blobRawLen (attrAt mem 0)).toNat := by omega
  have headers := headersRead_inside_iff mem
    ((blobRawLen (attrAt mem 0)).toNat - 4) 4
    ((blobRawLen (attrAt mem 0)).toNat - 4) (Nat.le_refl _)
  rw [whole] at headers
  rw [blobForEachAttrReads, blobForEachAttrRem, blobRem_blobLen,
    ← headers]
  simp only [List.mem_append, or_imp, forall_and, List.mem_flatMap,
    forall_exists_index, and_imp]
  constructor
  · rintro ⟨_, loop⟩ attr member
    exact headerBytes_inside_iff.mp fun addr => loop addr attr member
  · intro loop
    refine ⟨headerBytes_inside_iff.mpr (by omega), ?_⟩
    intro addr attr member
    exact headerBytes_inside_iff.mpr (loop attr member) addr

/-- The last byte of a string attribute lies inside the message unless its
length field does not even cover its own header. -/
theorem checkReads_inside_iff
    {mem : Memory} {attr : Nat}
    (member : attr ∈ blobForEachAttr mem 0) :
    (∀ addr ∈ blobParseChecks mem ubusPolicy ubusAttrMax attr,
        addr < (blobRawLen (attrAt mem 0)).toNat) ↔
      (blobId (attrAt mem attr) < ubusAttrMax →
        ubusPolicy (blobId (attrAt mem attr)) = .string →
          4 ≤ (blobRawLen (attrAt mem attr)).toNat) := by
  rw [blobForEachAttr, blobRem_blobLen] at member
  obtain ⟨lower, upper, positive⟩ := bounds_of_mem_attrsFrom member
  have small := blobRawLen_lt (attrAt mem 0)
  have len : blobLen (attrAt mem attr) = blobRawLen (attrAt mem attr) - 4 :=
    (UInt32.add_sub_cancel _ _).symm
  rw [blobParseChecks]
  split
  · rename_i known
    rw [blobCheckTypeReads, len]
    by_cases isString : ubusPolicy (blobId (attrAt mem attr)) = .string
    · rw [isString, beq_self_eq_true, Bool.and_true]
      by_cases covered : 4 ≤ (blobRawLen (attrAt mem attr)).toNat
      · have value : (blobRawLen (attrAt mem attr) - 4).toNat =
            (blobRawLen (attrAt mem attr)).toNat - 4 :=
          UInt32.toNat_sub_of_le _ _ (UInt32.le_iff_toNat_le.mpr covered)
        refine iff_of_true ?_ fun _ _ => covered
        split
        · rename_i long
          have nonempty : 1 ≤ (blobRawLen (attrAt mem attr) - 4).toNat := by
            apply Nat.pos_of_ne_zero
            simpa [blobCheckLen, blobTypeMinlen, UInt32.lt_iff_toNat_lt]
              using long
          have last : (blobRawLen (attrAt mem attr) - 4 - 1).toNat =
              (blobRawLen (attrAt mem attr) - 4).toNat - 1 :=
            UInt32.toNat_sub_of_le _ _ (UInt32.le_iff_toNat_le.mpr nonempty)
          simp only [List.mem_singleton, forall_eq, lastByte]
          omega
        · exact fun _ none => absurd none List.not_mem_nil
      · have value : (blobRawLen (attrAt mem attr) - 4).toNat =
            4294967292 + (blobRawLen (attrAt mem attr)).toNat := by
          rw [UInt32.toNat_sub]
          simp
          omega
        have long :
            blobCheckLen (blobRawLen (attrAt mem attr) - 4) .string = true := by
          simp [blobCheckLen, blobTypeMinlen, UInt32.lt_iff_toNat_lt, value]
        have nonempty : 1 ≤ (blobRawLen (attrAt mem attr) - 4).toNat := by
          omega
        have last : (blobRawLen (attrAt mem attr) - 4 - 1).toNat =
            (blobRawLen (attrAt mem attr) - 4).toNat - 1 :=
          UInt32.toNat_sub_of_le _ _ (UInt32.le_iff_toNat_le.mpr nonempty)
        refine iff_of_false ?_ fun holds => covered (holds known rfl)
        rw [long, if_pos rfl]
        simp only [List.mem_singleton, forall_eq, lastByte]
        omega
    · simp [isString]
  · rename_i unknown
    exact iff_of_true (fun _ none => absurd none List.not_mem_nil)
      fun known => absurd known unknown

/-- Whatever a signature holds, its loop stays inside the message: the
attribute counts with its padding. -/
theorem signatureReads_inside
    {mem : Memory} (type : UInt8) :
    ∀ addr ∈ signatureReads mem type,
      addr < (blobRawLen (attrAt mem 0)).toNat := by
  intro addr member
  rw [signatureReads] at member
  split at member
  · split at member
    · rename_i sig _ found
      have inMessage := (blobParse_some found).1
      rw [blobForEachAttr, blobRem_blobLen] at inMessage
      obtain ⟨lower, upper, positive⟩ := bounds_of_mem_attrsFrom inMessage
      rw [blobForEachAttrReads, blobRem_blobLen, List.mem_append,
        List.mem_flatMap] at member
      rcases member with header | ⟨attr, inLoop, header⟩
      · exact headerBytes_inside_iff.mpr (by omega) addr header
      · obtain ⟨words, place, before⟩ := aligned_of_mem_headersRead inLoop
        exact headerBytes_inside_iff.mpr (by omega) addr header
    · exact absurd member List.not_mem_nil
  · exact absurd member List.not_mem_nil

/-- What the handler of a message reads, for one memory behind it. -/
theorem handlerReads_inside_iff
    {mem : Memory} {type : UInt8}
    (four : 4 ≤ (blobRawLen (attrAt mem 0)).toNat)
    (handled : hasHandler type = true) :
    (∀ addr ∈ handlerReads mem type,
        addr < (blobRawLen (attrAt mem 0)).toNat) ↔
      (blobForEachAttrRem mem 0 = 0 ∨ 4 ≤ blobForEachAttrRem mem 0) ∧
        ∀ attr ∈ blobForEachAttr mem 0,
          blobId (attrAt mem attr) < ubusAttrMax →
            ubusPolicy (blobId (attrAt mem attr)) = .string →
              4 ≤ (blobRawLen (attrAt mem attr)).toNat := by
  rw [handlerReads, if_pos handled, blobParseReads,
    ← forEachReads_inside_iff four]
  constructor
  · intro inside
    refine ⟨fun addr member => inside addr ?_, fun attr member => ?_⟩
    · exact List.mem_append_left _ (List.mem_append_left _ member)
    · refine (checkReads_inside_iff member).mp fun addr check => inside addr ?_
      exact List.mem_append_left _ (List.mem_append_right _
        (List.mem_flatMap.mpr ⟨attr, member, check⟩))
  · rintro ⟨loop, checks⟩ addr member
    rcases List.mem_append.mp member with parse | signature
    · rcases List.mem_append.mp parse with header | check
      · exact loop addr header
      · obtain ⟨attr, visited, read⟩ := List.mem_flatMap.mp check
        exact (checkReads_inside_iff visited).mpr (checks attr visited) addr
          read
    · exact signatureReads_inside type addr signature

/-- The first four bytes of a buffer are the header of its attribute. -/
theorem rawLen_attrAt_memoryOf
    {bytes : List UInt8} (four : 4 ≤ bytes.length) :
    blobRawLen (attrAt (memoryOf bytes) 0) = blobRawLen bytes := by
  match bytes, four with
  | _ :: _ :: _ :: _ :: _, _ =>
      rfl

variable {message : Message}

/-- The bytes that a client sent decide whether the accesses to its message
stay inside. -/
theorem accessesInside_iff
    (stored :
      message.data.length = max 4 (blobRawLen message.data).toNat) :
    AccessesInside message ↔ Readable message := by
  have four : 4 ≤ message.data.length := by omega
  have sameHeader := rawLen_attrAt_memoryOf four
  by_cases covered : 4 ≤ (blobRawLen message.data).toNat
  · have whole : message.data.length = (blobRawLen message.data).toNat := by
      omega
    have reads : ∀ mem : Memory,
        (∀ addr, addr < message.data.length →
          mem addr = memoryOf message.data addr) →
        hasHandler (messageType message) = true →
        ((∀ addr ∈ handlerReads mem (messageType message),
            addr < (blobRawLen message.data).toNat) ↔
          (blobForEachAttrRem (memoryOf message.data) 0 = 0 ∨
              4 ≤ blobForEachAttrRem (memoryOf message.data) 0) ∧
            ∀ attr ∈ blobForEachAttr (memoryOf message.data) 0,
              let header := attrAt (memoryOf message.data) attr
              blobId header < ubusAttrMax →
                ubusPolicy (blobId header) = .string →
                  4 ≤ (blobRawLen header).toNat) := by
      intro mem same handled
      have header : attrAt mem 0 = attrAt (memoryOf message.data) 0 :=
        attrAt_congr fun addr _ upper => same addr (by omega)
      have memCovered : 4 ≤ (blobRawLen (attrAt mem 0)).toNat := by
        rw [header, sameHeader]
        exact covered
      obtain ⟨loops, lefts⟩ := blobForEachAttr_congr memCovered
        fun addr _ upper => same addr (by rw [header, sameHeader] at upper; omega)
      have inside := handlerReads_inside_iff memCovered handled
      rw [header, sameHeader, loops, lefts] at inside
      rw [inside]
      refine and_congr_right fun _ => forall_congr' fun attr => ?_
      refine forall_congr' fun member => ?_
      rw [blobForEachAttr, blobRem_blobLen, sameHeader] at member
      obtain ⟨lower, upper, positive⟩ := bounds_of_mem_attrsFrom member
      have sameAttr : attrAt mem attr = attrAt (memoryOf message.data) attr :=
        attrAt_congr fun addr _ before => same addr (by omega)
      rw [sameAttr]
    constructor
    · rintro ⟨_, inside⟩
      have own := inside (memoryOf message.data) fun _ _ => rfl
      exact ⟨covered,
        fun handled => ((reads _ (fun _ _ => rfl) handled).mp own).1,
        fun handled => ((reads _ (fun _ _ => rfl) handled).mp own).2⟩
    · rintro ⟨_, remainder, strings⟩
      refine ⟨by omega, fun mem same => ?_⟩
      by_cases handled : hasHandler (messageType message) = true
      · exact (reads mem same handled).mpr
          ⟨remainder handled, strings handled⟩
      · rw [handlerReads, if_neg handled]
        exact fun _ none => absurd none List.not_mem_nil
  · exact iff_of_false (fun inside => covered (by have := inside.1; omega))
      fun readable => covered readable.rawLen

/-! ## Whole streams -/

/-- What `client_cb` keeps while it receives: the buffer of the pending message
is filled from the front and never beyond its length, and a message handed over
is full, apart from the header that is always copied. -/
structure Filling (rx : ClientRx) : Prop where
  hdrbuf : rx.hdrbuf.length = 12
  pending : ∀ ub, rx.pendingMsg = some ub →
    rx.pendingMsgOffset = 8 + ub.data.length ∧ 4 ≤ ub.data.length ∧
      ub.data.length ≤ (blobRawLen ub.data).toNat
  received : ∀ message ∈ rx.received,
    message.data.length = max 4 (blobRawLen message.data).toNat

theorem filling_fresh : Filling ClientRx.fresh where
  hdrbuf := rfl
  pending _ none := absurd none (Option.some_ne_none _).symm
  received _ none := absurd none List.not_mem_nil

theorem length_storeAt (buffer : List UInt8) (offset : Nat)
    (bytes : List UInt8) :
    (storeAt buffer offset bytes).length = buffer.length := by
  rw [storeAt, List.length_take, List.length_append, List.length_append,
    List.length_take, List.length_drop]
  omega

/-- The length field stays what it is while the payload arrives. -/
theorem rawLen_append_of_four
    {bytes : List UInt8} (four : 4 ≤ bytes.length) (more : List UInt8) :
    blobRawLen (bytes ++ more) = blobRawLen bytes := by
  match bytes, four with
  | _ :: _ :: _ :: _ :: _, _ =>
      rfl

theorem Filling.accept
    {rx : ClientRx} (filling : Filling rx) {message : Message}
    (full : message.data.length = max 4 (blobRawLen message.data).toNat) :
    Filling
      { rx with
        pendingMsgOffset := 0
        pendingMsg := none
        received := rx.received ++ [message] } where
  hdrbuf := filling.hdrbuf
  pending _ none := absurd none (Option.some_ne_none _).symm
  received found member := by
    rcases List.mem_append.mp member with earlier | last
    · exact filling.received found earlier
    · rw [List.mem_singleton.mp last]
      exact full

/-- The block under `if (ub)`, for a message of which at least the header is
stored. -/
theorem recvPending_filling
    {rx : ClientRx} (hdrbuf : rx.hdrbuf.length = 12)
    (received : ∀ message ∈ rx.received,
      message.data.length = max 4 (blobRawLen message.data).toNat)
    (pending : ∀ ub, rx.pendingMsg = some ub →
      rx.pendingMsgOffset = 8 + ub.data.length ∧ 4 ≤ ub.data.length ∧
        ub.data.length ≤ max 4 (blobRawLen ub.data).toNat)
    (sock : CutStream UInt8) :
    Filling (recvPending rx sock).1 := by
  unfold recvPending
  split
  · rename_i none
    exact ⟨hdrbuf, fun ub found => by simp [none] at found, received⟩
  · rename_i ub found
    obtain ⟨offset, four, bounded⟩ := pending ub found
    have base : Filling { rx with pendingMsg := none } :=
      ⟨hdrbuf, fun _ absent => absurd absent (Option.some_ne_none _).symm,
        received⟩
    dsimp only
    split
    · rename_i complete
      rw [offset, sizeofMsghdr] at complete
      have full : (⟨ub.hdr, ub.data⟩ : Message).data.length =
          max 4 (blobRawLen ub.data).toNat := by
        show ub.data.length = max 4 (blobRawLen ub.data).toNat
        omega
      exact base.accept full
    · rename_i unfinished
      rw [offset, sizeofMsghdr] at unfinished
      split
      · refine ⟨hdrbuf, fun pendingUb isPending => ?_, received⟩
        have same : ub = pendingUb :=
          Option.some.inj (found.symm.trans isPending)
        rw [← same]
        exact ⟨offset, four, by omega⟩
      · rename_i bytes _ read
        rw [offset, sizeofMsghdr] at read
        have length := (CutStream.recv_some (by omega) read).1
        have sameLen := rawLen_append_of_four four bytes
        split
        · rename_i short
          rw [offset, sizeofMsghdr] at short
          refine ⟨hdrbuf, fun pendingUb isPending => ?_, received⟩
          rw [← Option.some.inj isPending]
          show rx.pendingMsgOffset + bytes.length =
              8 + (ub.data ++ bytes).length ∧
            4 ≤ (ub.data ++ bytes).length ∧
              (ub.data ++ bytes).length ≤
                (blobRawLen (ub.data ++ bytes)).toNat
          rw [sameLen, List.length_append]
          omega
        · rename_i full
          rw [offset, sizeofMsghdr] at full
          have complete : (⟨ub.hdr, ub.data ++ bytes⟩ : Message).data.length =
              max 4 (blobRawLen (ub.data ++ bytes)).toNat := by
            show (ub.data ++ bytes).length =
              max 4 (blobRawLen (ub.data ++ bytes)).toNat
            rw [sameLen, List.length_append]
            omega
          exact base.accept complete

/-- One pass of `client_cb`. -/
theorem pass_filling
    {rx : ClientRx} (filling : Filling rx) (sock : CutStream UInt8) :
    Filling (clientCbPass (rx, sock)).1 := by
  rw [clientCbPass]
  split
  · exact filling
  · split
    · rename_i inHeader
      -- a message is pending behind its header only
      have idle : rx.pendingMsg = none := by
        refine Option.eq_none_iff_forall_ne_some.mpr fun ub found => ?_
        have := filling.pending ub found
        omega
      dsimp only
      split
      · exact filling
      · rename_i bytes _ read
        have length := (CutStream.recv_some (by omega) read).1
        have stored : (storeAt rx.hdrbuf (rx.pendingMsgOffset * 12)
            bytes).length = 12 := by
          rw [length_storeAt, filling.hdrbuf]
        have idleRx : ∀ ub, rx.pendingMsg = some ub → False := by
          intro ub found
          rw [idle] at found
          exact Option.some_ne_none ub found.symm
        split
        · exact ⟨stored, fun ub found => (idleRx ub found).elim,
            filling.received⟩
        · rename_i complete
          unfold headerComplete
          split
          · exact ⟨stored, fun ub found => (idleRx ub found).elim,
              filling.received⟩
          · apply recvPending_filling
            · exact stored
            · exact filling.received
            · intro ub found
              have headerLength :
                  ((storeAt rx.hdrbuf (rx.pendingMsgOffset * 12)
                    bytes).drop 8).length = 4 := by
                rw [List.length_drop, stored]
              rw [← Option.some.inj found]
              dsimp only at complete ⊢
              omega
    · apply recvPending_filling filling.hdrbuf filling.received
      intro ub found
      have := filling.pending ub found
      omega

theorem passes_filling
    (passes : Nat) (state : ClientRx × CutStream UInt8)
    (filling : Filling state.1) :
    Filling (clientCbPass^[passes] state).1 := by
  induction passes generalizing state with
  | zero =>
      exact filling
  | succ passes inductionHypothesis =>
      exact inductionHypothesis (clientCbPass state)
        (pass_filling filling state.2)

/-- Whatever a client sends and however it arrives, all that is copied into its
message buffers and all that `blob_parse` and `blob_for_each_attr` read out of
them lies inside of them exactly if its messages are readable. -/
theorem clientCb_accessesInside_iff
    (sock : CutStream UInt8) (passes : Nat) :
    (∀ ub, (clientCbPass^[passes] (ClientRx.fresh, sock)).1.pendingMsg =
        some ub → ub.data.length ≤ (blobRawLen ub.data).toNat) ∧
      (∀ message ∈ handed sock passes, AccessesInside message) ↔
    ∀ message ∈ handed sock passes, Readable message := by
  have filling := passes_filling passes (ClientRx.fresh, sock) filling_fresh
  constructor
  · rintro ⟨_, inside⟩ message member
    exact (accessesInside_iff (filling.received message member)).mp
      (inside message member)
  · intro readable
    refine ⟨fun ub found => (filling.pending ub found).2.2, ?_⟩
    intro message member
    exact (accessesInside_iff (filling.received message member)).mpr
      (readable message member)

/-- A ping that announces six bytes of attributes: two are left behind the
header, and the loop reads four. -/
def shortRemainder : Message := ⟨[0, 3, 1, 0, 0, 0, 0, 0], [0, 0, 0, 6, 0, 0]⟩

/-- A stream of one message that `blob_parse` reads beyond. -/
theorem clientCb_reads_outside :
    ∃ message ∈ handed [shortRemainder.image] 1, ¬ AccessesInside message := by
  have received : handed [shortRemainder.image] 1 = [shortRemainder] := by
    decide
  refine ⟨shortRemainder, by rw [received]; exact List.mem_cons_self, ?_⟩
  intro inside
  have read : 7 ∈ handlerReads (memoryOf shortRemainder.data) 3 := by
    decide
  have outside := inside.2 _ (fun _ _ => rfl) 7 read
  exact absurd outside (by decide)

end LibubusJni.Ubusd
