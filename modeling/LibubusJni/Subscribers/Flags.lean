import LibubusJni.Libubus.Dispatch
import LibubusJni.Messages

/-!
# NOTIFY messages as the owner of an object reads them

`ubus_process_obj_msg` looks the object up by the identifier in the message, and
`ubus_process_notify` stores the flag in its `has_subscribers`.
-/

namespace LibubusJni.Subscribers

open LibubusJni.Libubox LibubusJni.Ubusd

/-- A message of ubusd as it lies on the stream. -/
def wire (msg : BusMsg) : Message := ⟨msg.hdr.bytes, msg.data⟩

/-- The payload of `UBUS_ATTR_OBJID`. -/
def objidOf (message : Message) : Option UInt32 :=
  (Libubus.ubusParseMsg (memoryOf message.data) .objid).map
    (blobGetU32 (memoryOf message.data))

/-- The payload of `UBUS_ATTR_ACTIVE`. -/
def activeOf (message : Message) : Option Bool :=
  (Libubus.ubusParseMsg (memoryOf message.data) .active).map fun attr =>
    blobGetU8 (memoryOf message.data) attr ≠ 0

/-- `ubus_process_notify`: what becomes of `has_subscribers`. -/
def ubusProcessNotify (hasSubscribers : Bool) (message : Message) : Bool :=
  match activeOf message with
  | none => hasSubscribers
  | some active => active

/-- `ubus_process_obj_msg`, as far as `has_subscribers` of the object with this
identifier is concerned. -/
def ubusProcessObjMsg (id : UInt32) (hasSubscribers : Bool)
    (message : Message) : Bool :=
  match objidOf message with
  | none => hasSubscribers
  | some objid =>
      -- another object is found, or none
      if objid ≠ id then hasSubscribers
      else if Libubus.msgType message = some UbusMsgType.notify.code then
        ubusProcessNotify hasSubscribers message
      else hasSubscribers

/-- The flag that a NOTIFY for the object carries. -/
def notifyFlag (id : UInt32) (message : Message) : Option Bool :=
  if Libubus.msgType message = some UbusMsgType.notify.code ∧
      objidOf message = some id then
    activeOf message
  else none

/-- Of all object messages only a NOTIFY for the object changes its
`has_subscribers`. -/
theorem ubusProcessObjMsg_eq (id : UInt32) (hasSubscribers : Bool)
    (message : Message) :
    ubusProcessObjMsg id hasSubscribers message =
      (notifyFlag id message).getD hasSubscribers := by
  rw [ubusProcessObjMsg, notifyFlag]
  cases named : objidOf message with
  | none =>
      simp
  | some objid =>
      by_cases isId : objid = id
      · by_cases notify :
            Libubus.msgType message = some UbusMsgType.notify.code
        · simp only [isId, notify, ne_eq, not_true_eq_false, if_false, if_true,
            and_self, ubusProcessNotify]
          cases activeOf message with
          | none =>
              rfl
          | some active =>
              rfl
        · simp [isId, notify]
      · simp [isId]

/-- The last NOTIFY decides. -/
theorem foldl_ubusProcessObjMsg (id : UInt32) (messages : List Message)
    (hasSubscribers : Bool) :
    messages.foldl (ubusProcessObjMsg id) hasSubscribers =
      (messages.filterMap (notifyFlag id)).getLast?.getD hasSubscribers := by
  induction messages generalizing hasSubscribers with
  | nil =>
      rfl
  | cons message rest inductionHypothesis =>
      rw [List.foldl_cons, inductionHypothesis, ubusProcessObjMsg_eq,
        List.filterMap_cons]
      cases notifyFlag id message with
      | none =>
          rfl
      | some flag =>
          rw [List.getLast?_cons, Option.getD_some]
          rfl

/-! ## What ubusd puts into a NOTIFY -/

/-- The attributes of a NOTIFY. -/
def notifyPuts (objid : UInt32) (active : UInt8) : List PutAttr :=
  [⟨UbusMsgAttr.objid.id, be32Bytes objid⟩, ⟨UbusMsgAttr.active.id, [active]⟩]

theorem length_notifyPuts (objid : UInt32) (active : UInt8) :
    (PutAttr.concat (notifyPuts objid active)).length = 16 := by
  rw [notifyPuts, PutAttr.concat_cons, PutAttr.concat_cons, List.length_append,
    List.length_append, PutAttr.length_bytes, PutAttr.length_bytes,
    PutAttr.size, PutAttr.size, length_be32Bytes, List.length_singleton,
    PutAttr.concat, List.map_nil, List.flatten_nil, List.length_nil]

/-- Both of them are read back. -/
theorem notifyFlag_wire (id objid : UInt32) (active : UInt8) (seq : UInt16)
    (client : Ptr) :
    notifyFlag id (wire ⟨client, ⟨0, UbusMsgType.notify.code, seq, 0⟩,
        Bus.msgFromBlob
          [blobPutInt32 UbusMsgAttr.objid.id objid,
            blobPutInt8 UbusMsgAttr.active.id active]⟩) =
      if objid = id then some (decide (active ≠ 0)) else none := by
  have length := length_notifyPuts objid active
  have known : ∀ attr ∈ notifyPuts objid active, attr.id < 128 := by
    simp [notifyPuts, UbusMsgAttr.id]
  have plain := @plain_msgFromBlob (notifyPuts objid active)
    (by rw [length]; decide)
  have less : (PutAttr.concat (notifyPuts objid active)).length <
      16777216 := by
    rw [length]
    decide
  obtain ⟨objidFound, objidRead⟩ := @blobParse_of_plain _ Libubus.ubusPolicy
    ubusAttrMax 0 0 [] [⟨UbusMsgAttr.active.id, [active]⟩]
    ⟨UbusMsgAttr.objid.id, be32Bytes objid⟩ plain known less
    (accepted_int32 (by decide) rfl objid) (by simp [UbusMsgAttr.id])
  obtain ⟨activeFound, activeRead⟩ := @blobParse_of_plain _ Libubus.ubusPolicy
    ubusAttrMax 0 0 [⟨UbusMsgAttr.objid.id, be32Bytes objid⟩] []
    ⟨UbusMsgAttr.active.id, [active]⟩ plain known less
    ⟨show 9 < 12 by decide, rfl⟩ (by simp)
  have isFlag := activeRead.payload 0 (Nat.succ_pos 0)
  rw [List.getElem_cons_zero, Nat.add_zero] at isFlag
  have isObjid : objidOf (wire ⟨client,
      ⟨0, UbusMsgType.notify.code, seq, 0⟩,
      Bus.msgFromBlob ((notifyPuts objid active).map PutAttr.bytes)⟩) =
        some objid :=
    (congrArg (Option.map _) objidFound).trans
      (congrArg some (blobGetU32_of_plain objidRead))
  have isActive : activeOf (wire ⟨client,
      ⟨0, UbusMsgType.notify.code, seq, 0⟩,
      Bus.msgFromBlob ((notifyPuts objid active).map PutAttr.bytes)⟩) =
        some (decide (active ≠ 0)) :=
    (congrArg (Option.map _) activeFound).trans
      (congrArg (fun flag => some (decide (flag ≠ 0))) isFlag)
  show notifyFlag id (wire ⟨client, ⟨0, UbusMsgType.notify.code, seq, 0⟩,
    Bus.msgFromBlob ((notifyPuts objid active).map PutAttr.bytes)⟩) = _
  rw [notifyFlag, isObjid, isActive]
  by_cases isId : objid = id
  · rw [if_pos ⟨rfl, congrArg some isId⟩, if_pos isId]
  · rw [if_neg isId, if_neg fun both => isId (Option.some.inj both.2)]

end LibubusJni.Subscribers
