import LibubusJni.Libubox.Append
import LibubusJni.Libubus.Framing
import LibubusJni.Ubusd.Reads
import LibubusJni.Ubusd.Responses
import LibubusJni.Ubusd.Scan
import LibubusJni.Ubusd.Trees
import LibubusJni.Ubusd.Typed

/-!
# What ubusd writes and libubus accepts

`ubus_validate_hdr` of the receiver asks for version zero, a length of at least
four and a padded length within `UBUS_MAX_MSGLEN`.  ubusd does not ask for the
version, passes on the header of a response and of a ping, and builds messages
that are longer than those they are made from.

`WithinLimits` says of a message of a client what it takes for everything that
ubusd sends in consequence to be accepted: the version of what is passed on, and
a bound on each length that goes into what is built.
-/

namespace LibubusJni.Ubusd

open LibubusJni.Lib LibubusJni.Libubox LibubusJni.Libubus

/-! ## The receiver -/

/-- A message as it is written to the socket. -/
def BusMsg.wire (msg : BusMsg) : Message := ⟨msg.hdr.bytes, msg.data⟩

/-- `ubus_validate_hdr` of the receiver accepts the message. -/
def BusMsg.Validates (msg : BusMsg) : Prop :=
  ubusValidateHdr msg.wire.start = true

instance (msg : BusMsg) : Decidable msg.Validates :=
  inferInstanceAs (Decidable (_ = true))

/-- What is left of a length in 24 bits is within the limits. -/
def Fits (length : Nat) : Prop :=
  4 ≤ length % 16777216 ∧ length % 16777216 ≤ 1048576

theorem validates_iff {hdr : UbusMsghdr} {client : Ptr} {data : List UInt8} :
    (⟨client, hdr, data⟩ : BusMsg).Validates ↔
      hdr.version = 0 ∧ Fits (blobRawLen (data.take 4)).toNat := by
  have small := blobRawLen_lt (data.take 4)
  have drop : (hdr.bytes ++ data.take 4).drop 8 = data.take 4 := rfl
  rw [BusMsg.Validates, ubusValidateHdr, decide_eq_true_eq, BusMsg.wire,
    Message.start, drop, Fits, Nat.mod_eq_of_lt small,
    UInt32.le_iff_toNat_le, UInt32.le_iff_toNat_le, blobPadLen_toNat]
  refine and_congr ?_ (and_congr_right fun _ => ?_)
  · exact Option.some_inj
  · have limit : ubusMaxMsglen.toNat = 1048576 := rfl
    rw [limit]
    omega

/-- A message that is the content of a buffer. -/
theorem validates_msgData {hdr : UbusMsghdr} {client : Ptr}
    {bytes : List UInt8} (version : hdr.version = 0)
    (inside : 4 ≤ bytes.length) (fits : Fits (blobRawLen bytes).toNat) :
    (⟨client, hdr, Bus.msgData bytes⟩ : BusMsg).Validates := by
  have small := blobRawLen_lt bytes
  have four : 4 ≤ (blobRawLen bytes).toNat := by
    have lower := fits.1
    rwa [Nat.mod_eq_of_lt small] at lower
  have start : (Bus.msgData bytes).take 4 = bytes.take 4 := by
    rw [Bus.msgData, List.take_take, Nat.min_eq_left four]
  have length : (bytes.take 4).length = 4 := by
    rw [List.length_take]
    omega
  have rawLen : blobRawLen (bytes.take 4) = blobRawLen bytes := by
    rw [← blobRawLen_append length (bytes.drop 4), List.take_append_drop]
  rw [validates_iff, start, rawLen]
  exact ⟨version, fits⟩

/-- What `b` is sent as is accepted if its length is. -/
theorem validates_msgFromBlob {hdr : UbusMsghdr} {client : Ptr}
    {attrs : List (List UInt8)} (version : hdr.version = 0)
    (fits : Fits (4 + attrs.flatten.length)) :
    (⟨client, hdr, Bus.msgFromBlob attrs⟩ : BusMsg).Validates := by
  refine validates_msgData version ?_ ?_
  · rw [blobNest, length_blobPut_eq]
    omega
  · rw [blobNest, toNat_blobRawLen_blobPut, Fits, Nat.mod_mod,
      Nat.add_comm]
    exact fits

/-! ## Lengths of what is built -/

/-- An attribute with this much payload. -/
def attrSize (payload : Nat) : Nat := (payload + 4 + 3) / 4 * 4

/-- What `memcpy` finds of a length. -/
def copied (bytes : List UInt8) (addr : Nat) (len : UInt32) : Nat :=
  min len.toNat (bytes.length - addr)

/-- The copy of `UBUS_ATTR_DATA`. -/
def dataSize (bytes : List UInt8) : Option Nat → Nat
  | none => 0
  | some attr =>
      attrSize (copied bytes (attr + 4)
        (blobLen (attrAt (memoryOf bytes) attr)))

/-- A forwarded invoke without what is put in front. -/
def invokeSize (ub : BusRequest) (method : Nat) : Nat :=
  8 + attrSize ((Bus.stringOf ub method).length + 1) +
    dataSize ub.bytes (ub.attr .data)

/-- The entry of a method in the answer to a lookup. -/
def methodSize (bytes : List UInt8) : Nat :=
  attrSize (blobmsgHdrlen (cString bytes 6).length +
    copied bytes (blobmsgData (memoryOf bytes) 0)
      (blobmsgDataLen (memoryOf bytes) 0))

/-- The entry of an object in the answer to a lookup. -/
def objSize (object : UbusObject) (type : UbusObjectType) : Nat :=
  (match object.path with
    | none => 0
    | some key => attrSize (key.length + 1)) +
  (8 + (8 + attrSize (type.methods.map methodSize).sum))

/-- The list of subscribers in the answer to a notification. -/
def subscribersSize (subscribers : Nat) : Nat :=
  8 + (attrSize (8 * subscribers) + 8)

/-- An event of a client. -/
def eventSize (bytes id : List UInt8) (data : Nat) : Nat :=
  8 + (attrSize (id.length + 1) +
    attrSize (copied bytes (blobmsgData (memoryOf bytes) data)
      (blobmsgDataLen (memoryOf bytes) data)))

/-- An event about the object with this path. -/
def objEventSize (path : List UInt8) (add : Bool) : Nat :=
  8 + (attrSize (if add then 16 else 19) +
    attrSize (16 + attrSize (8 + (path.length + 1))))

theorem length_memcpyFrom {bytes copy : List UInt8} {addr : Nat}
    {len : UInt32} (made : memcpyFrom bytes addr len = some copy) :
    copy.length = copied bytes addr len := by
  rw [memcpyFrom] at made
  split at made
  · rw [← Option.some.inj made, List.length_take, List.length_drop, copied]
  · exact absurd made (Option.some_ne_none copy).symm

theorem length_blobPutInt32 (id : Nat) (value : UInt32) :
    (blobPutInt32 id value).length = 8 := by
  rw [blobPutInt32, length_blobPut_eq, length_be32Bytes]

theorem length_blobPutInt8 (id : Nat) (value : UInt8) :
    (blobPutInt8 id value).length = 8 := by
  rw [blobPutInt8, length_blobPut_eq, List.length_singleton]

theorem length_blobPutString (id : Nat) (string : List UInt8) :
    (blobPutString id string).length = attrSize (string.length + 1) := by
  rw [blobPutString, length_blobPut_eq, List.length_append,
    List.length_singleton, attrSize]

theorem length_blobNest (id : Nat) (attrs : List (List UInt8)) :
    (blobNest id attrs).length = attrSize attrs.flatten.length := by
  rw [blobNest, length_blobPut_eq, attrSize]

theorem length_field (type : Nat) (name data : List UInt8) :
    (blobmsgAddField type name data).length =
      attrSize (blobmsgHdrlen name.length + data.length) :=
  BlobBuf.length_blobmsgAddField type name data

theorem length_invokeAttrs {ub : BusRequest} {object : UbusObject}
    {method : Nat} {attrs : List (List UInt8)}
    (made : Bus.invokeAttrs ub object method = some attrs) :
    attrs.flatten.length = invokeSize ub method := by
  rw [Bus.invokeAttrs] at made
  rw [invokeSize]
  split at made
  · rename_i noData
    rw [← Option.some.inj made, noData]
    simp [length_blobPutInt32, length_blobPutString, dataSize]
  · rename_i data hasData
    obtain ⟨copy, isCopy, isAttrs⟩ := Option.map_eq_some_iff.mp made
    rw [blobPutPayload] at isCopy
    obtain ⟨payload, isPayload, isPut⟩ := Option.map_eq_some_iff.mp isCopy
    rw [← isAttrs, ← isPut, hasData]
    simp [length_blobPutInt32, length_blobPutString, dataSize,
      length_blobPut_eq, length_memcpyFrom isPayload, attrSize, Nat.add_assoc]

theorem length_methods {methods copies : List (List UInt8)}
    (made : methods.mapM blobmsgAddBlob = some copies) :
    copies.flatten.length = (methods.map methodSize).sum := by
  induction methods generalizing copies with
  | nil =>
      rw [List.mapM_nil] at made
      rw [← Option.some.inj made]
      rfl
  | cons first rest inductionHypothesis =>
      rw [List.mapM_cons] at made
      obtain ⟨copy, isCopy, made⟩ := Option.bind_eq_some_iff.mp made
      obtain ⟨more, isMore, made⟩ := Option.bind_eq_some_iff.mp made
      rw [blobmsgAddBlob] at isCopy
      obtain ⟨data, isData, isField⟩ := Option.map_eq_some_iff.mp isCopy
      rw [← Option.some.inj made, List.flatten_cons, List.length_append,
        inductionHypothesis isMore, ← isField, length_field,
        length_memcpyFrom isData, List.map_cons, List.sum_cons, methodSize]

theorem length_objAttrs {object : UbusObject} {type : UbusObjectType}
    {attrs : List (List UInt8)}
    (made : Bus.objAttrs object type = some attrs) :
    attrs.flatten.length = objSize object type := by
  rw [Bus.objAttrs] at made
  obtain ⟨methods, isMethods, isAttrs⟩ := Option.map_eq_some_iff.mp made
  rw [← isAttrs, objSize, ← length_methods isMethods]
  cases object.path with
  | none =>
      simp [length_blobPutInt32, length_blobNest]
  | some key =>
      simp [length_blobPutInt32, length_blobNest, length_blobPutString]

theorem length_subscribersAttrs (store : ObjStore) (obj : Ptr) :
    (Bus.subscribersAttrs store obj).flatten.length =
      subscribersSize (store.objectAt obj).subscribers.length := by
  have ids : ∀ subs : List Ptr, (subs.map fun s => blobPutInt32 0
      (store.objectAt (store.subscriptionAt s).subscriber).id).flatten.length =
        8 * subs.length := by
    intro subs
    induction subs with
    | nil =>
        rfl
    | cons s rest inductionHypothesis =>
        rw [List.map_cons, List.flatten_cons, List.length_append,
          inductionHypothesis, length_blobPutInt32, List.length_cons]
        omega
  simp [Bus.subscribersAttrs, length_blobPutInt32, length_blobNest, ids,
    subscribersSize]

theorem length_eventAttrs {bytes id : List UInt8} {data : Nat} {objid : UInt32}
    {attrs : List (List UInt8)}
    (made : Bus.eventAttrs bytes id data = some attrs) :
    (blobPutInt32 UbusMsgAttr.objid.id objid :: attrs).flatten.length =
      eventSize bytes id data := by
  rw [Bus.eventAttrs] at made
  obtain ⟨payload, isPayload, isAttrs⟩ := Option.map_eq_some_iff.mp made
  rw [← isAttrs, eventSize]
  simp [length_blobPutInt32, length_blobPutString, length_blobPut_eq,
    length_memcpyFrom isPayload, attrSize]

theorem length_objEventAttrs (objid id : UInt32) (path : List UInt8)
    (add : Bool) :
    (blobPutInt32 UbusMsgAttr.objid.id objid ::
      objEventAttrs id path add).flatten.length = objEventSize path add := by
  have text : ((if add then ascii "ubus.object.add"
      else ascii "ubus.object.remove").length + 1) =
        if add then 16 else 19 := by
    cases add with
    | false =>
        rfl
    | true =>
        rfl
  have number : blobmsgHdrlen (ascii "id").length = 8 := rfl
  have string : blobmsgHdrlen (ascii "path").length = 8 := rfl
  simp [objEventAttrs, length_blobPutInt32, length_blobPutString,
    length_blobNest, length_field, text, number, string, objEventSize,
    attrSize]

/-! ## The condition -/

/-- An object other than this one is registered for the event. -/
def Heard (store : ObjStore) (obj : Ptr) (id : List UInt8) : Prop :=
  ∃ ev ∈ store.patterns, (store.sourceAt ev).obj ≠ obj ∧
    (store.sourceAt ev).matches id = true

/-- If somebody waits for the end of objects, the path of this one is not too
long to be told. -/
def EndFits (store : ObjStore) (obj : Ptr) : Prop :=
  ∀ path, (store.objectAt obj).path = some path →
    Heard store obj (ascii "ubus.object.remove") →
      Fits (4 + objEventSize path false)

/-- If an object is made and somebody waits for it, its path is not too long. -/
def StartFits (store : ObjStore) (ub : BusRequest) (urandom : List UInt32) :
    Prop :=
  ¬ Refused store ub.bytes ub.attr urandom →
    ∀ objpath, ub.attr .objpath = some objpath →
      (∃ ev ∈ store.patterns,
        (store.sourceAt ev).matches (ascii "ubus.object.add") = true) →
        Fits (4 + objEventSize (cString ub.bytes (objpath + 4)) true)

/-- If somebody receives the event of a client, it is not too long. -/
def EventFits (store : ObjStore) (cl : Ptr) (bytes : List UInt8) (msg : Nat) :
    Prop :=
  ∀ idAttr data,
    blobmsgParse bytes ⟨ascii "id", .string⟩ ⟨ascii "data", .table⟩ msg =
        (some idAttr, some data) →
      let id := cString bytes (blobmsgData (memoryOf bytes) idAttr)
      ¬ (ascii "ubus.").isPrefixOf id = true →
        (∃ obj, Receives store cl id obj) → Fits (4 + eventSize bytes id data)

/-- What an invoke asks of the lengths it holds. -/
structure InvokeFits (bus : Bus) (cl : Ptr) (ub : BusRequest) : Prop where
  forward : ∀ obj method, Bus.Invokes bus ub obj method →
    (bus.store.objectAt obj).client.isSome → Fits (4 + invokeSize ub method)
  event : ∀ obj method, Bus.Invokes bus ub obj method →
    (bus.store.objectAt obj).client = none →
      Bus.stringOf ub method = ascii "send" →
        ∀ data, ub.attr .data = some data →
          EventFits bus.store cl ub.bytes data

/-- What a notification asks of the lengths it holds and of the number of
subscribers. -/
structure NotifyFits (bus : Bus) (cl : Ptr) (ub : BusRequest) : Prop where
  list : ∀ obj method, Bus.Invokes bus ub obj method →
    (bus.store.objectAt obj).client = some cl → Bus.noReply ub = false →
      Fits (4 + subscribersSize (bus.store.objectAt obj).subscribers.length)
  forward : ∀ obj method, Bus.Invokes bus ub obj method →
    (bus.store.objectAt obj).client = some cl →
      (bus.store.objectAt obj).subscribers ≠ [] →
        Fits (4 + ((if Bus.noReply ub then 8 else 0) + invokeSize ub method))

/-- What a message asks of its header and its lengths. -/
def WithinLimits (bus : Bus) (cl : Ptr) (ub : BusRequest) :
    UbusMsgType → Prop
  | .hello | .subscribe | .unsubscribe => True
  | .ping => ub.hdr.version = 0 ∧ 4 ≤ (blobRawLen ub.bytes).toNat
  | .status | .data =>
      ∀ objid obj receiver, Bus.Responds bus cl ub objid obj receiver →
        ub.hdr.version = 0
  | .addObject => StartFits bus.store ub bus.urandom
  | .removeObject =>
      ∀ obj, Bus.Removes bus cl ub obj → EndFits bus.store obj
  | .lookup =>
      ∀ obj ∈ bus.reported ub, ∀ type,
        (bus.store.objectAt obj).type = some type →
          Fits (4 + objSize (bus.store.objectAt obj) (bus.store.typeAt type))
  | .invoke => InvokeFits bus cl ub
  | .notify => NotifyFits bus cl ub

/-- The condition on an action. -/
def BusAction.WithinLimits (bus : Bus) : BusAction → Prop
  | .connect _ => True
  | .receive cl ub urandom =>
      ∀ type, UbusMsgType.ofCode? ub.hdr.type = some type →
        Ubusd.WithinLimits { bus with urandom := urandom, sent := [] } cl ub type
  | .disconnect cl =>
      ∀ obj ∈ (bus.store.clientAt cl).objects, EndFits bus.store obj

/-! ## Events about objects -/

/-- All that is sent is accepted. -/
abbrev Accepted (bus next : Bus) : Prop :=
  Emits BusMsg.Validates (fun _ => True) bus next

/-- All that is sent is accepted, and so would be what `b` holds. -/
structure Announces (bus next : Bus) : Prop where
  accepted : Accepted bus next
  b : next.b = bus.b ∨ Fits (4 + next.b.flatten.length)

namespace Announces

variable {bus middle next : Bus}

theorem silent (sent : next.sent = bus.sent) (b : next.b = bus.b)
    (fault : next.fault = bus.fault) : Announces bus next where
  accepted := Emits.silent sent fault
  b := Or.inl b

theorem trans (first : Announces bus middle) (second : Announces middle next) :
    Announces bus next where
  accepted := first.accepted.trans second.accepted
  b := by
    rcases second.b with same | fits
    · rw [same]
      exact first.b
    · exact Or.inr fits

theorem after (later : Announces middle next)
    (sent : middle.sent = bus.sent) (b : middle.b = bus.b)
    (fault : middle.fault = bus.fault) : Announces bus next :=
  (silent sent b fault).trans later

end Announces

/-- Notices of subscriptions are short. -/
theorem Notice.fits {hdr : UbusMsghdr} {attrs : List (List UInt8)}
    (notice : Notice (fun _ => False) hdr attrs) :
    hdr.version = 0 ∧ Fits (4 + attrs.flatten.length) := by
  cases notice with
  | subscribed seq id active =>
      refine ⟨rfl, ?_⟩
      rw [List.flatten_cons, List.flatten_cons, List.length_append,
        List.length_append, length_blobPutInt32, length_blobPutInt8]
      exact ⟨by decide, by decide⟩
  | unsubscribed seq id target =>
      refine ⟨rfl, ?_⟩
      rw [List.flatten_cons, List.flatten_cons, List.length_append,
        List.length_append, length_blobPutInt32, length_blobPutInt32]
      exact ⟨by decide, by decide⟩
  | object seq receiver id path add known =>
      exact known.elim

theorem Notice.validates {hdr : UbusMsghdr} {attrs : List (List UInt8)}
    (notice : Notice (fun _ => False) hdr attrs) (client : Ptr) :
    (⟨client, hdr, Bus.msgFromBlob attrs⟩ : BusMsg).Validates :=
  validates_msgFromBlob notice.fits.1 notice.fits.2

theorem Notifies.announces {bus next : Bus}
    (notifies : Notifies (fun _ => False) bus next) : Announces bus next where
  accepted := notifies.emits fun client _ _ notice => notice.validates client
  b := notifies.b.imp_right fun ⟨_, notice⟩ => notice.fits.2

namespace Bus

variable (bus : Bus)

/-- Nothing is sent along patterns that do not match, or of the sender. -/
theorem sendEventFrom_unheard {cl : Option Ptr} {id : List UInt8}
    {attrs : Option (List (List UInt8))} (evs : List Ptr) (matchLen : Nat)
    (unheard : ∀ ev ∈ evs, (bus.store.sourceAt ev).matches id = true →
      (bus.store.objectAt (bus.store.sourceAt ev).obj).client = cl) :
    sendEventFrom cl id attrs evs matchLen bus = bus := by
  induction evs generalizing matchLen with
  | nil =>
      rfl
  | cons ev rest inductionHypothesis =>
      have later := fun other member =>
        unheard other (List.mem_cons_of_mem ev member)
      rw [sendEventFrom, matches_iff]
      split
      · rfl
      · split
        · rename_i found
          have own := unheard ev List.mem_cons_self found
          have skipped : bus.ubusdSendEventMsg cl
              (bus.store.sourceAt ev).obj attrs = bus := by
            rw [ubusdSendEventMsg.eq_def, if_pos own]
          rw [skipped]
          exact inductionHypothesis _ later
        · exact inductionHypothesis _ later

theorem announces_sendEventFrom {id : List UInt8} {filled : List (List UInt8)}
    (fits : ∀ objid, Fits
      (4 + (blobPutInt32 UbusMsgAttr.objid.id objid :: filled).flatten.length))
    (evs : List Ptr) (matchLen : Nat)
    (owned : ∀ ev ∈ evs, (bus.store.objectAt
      (bus.store.sourceAt ev).obj).client.isSome) :
    Announces bus (sendEventFrom none id (some filled) evs matchLen bus) := by
  induction evs generalizing bus matchLen with
  | nil =>
      exact Announces.silent rfl rfl rfl
  | cons ev rest inductionHypothesis =>
      have restOwned := fun other member =>
        owned other (List.mem_cons_of_mem ev member)
      obtain ⟨cl, own⟩ :=
        Option.isSome_iff_exists.mp (owned ev List.mem_cons_self)
      rw [sendEventFrom]
      split
      · exact Announces.silent rfl rfl rfl
      · split
        · refine Announces.trans ?_
            (inductionHypothesis _ _ (by simpa using restOwned))
          rw [ubusdSendEventMsg.eq_def, own, if_neg (Option.some_ne_none cl)]
          split
          · exact Announces.silent rfl rfl rfl
          · dsimp only
            rw [own]
            exact
              { accepted := Emits.after (Emits.send
                  (validates_msgFromBlob rfl (fits _))) rfl rfl
                b := Or.inr (fits _) }
        · exact inductionHypothesis _ _ restOwned

theorem announces_ubusdSendObjEvent {obj : Ptr} (add : Bool)
    (addressed : Addressed bus.store)
    (fits : (∃ ev ∈ bus.store.patterns, (bus.store.sourceAt ev).matches
        (if add then ascii "ubus.object.add"
          else ascii "ubus.object.remove") = true) →
      Fits (4 + objEventSize ((bus.store.objectAt obj).path.getD []) add)) :
    Announces bus (bus.ubusdSendObjEvent obj add) := by
  rw [ubusdSendObjEvent, ubusdSendEvent]
  dsimp only
  by_cases heard : ∃ ev ∈ bus.store.patterns, (bus.store.sourceAt ev).matches
      (if add then ascii "ubus.object.add"
        else ascii "ubus.object.remove") = true
  · refine Announces.after (announces_sendEventFrom
      { bus with objEventSeq := bus.objEventSeq + 1 } (fun objid => ?_) _ 0
        addressed.source) rfl rfl rfl
    have length := length_objEventAttrs objid (bus.store.objectAt obj).id
      ((bus.store.objectAt obj).path.getD []) add
    rw [objEventAttrs] at length
    rw [length]
    exact fits heard
  · rw [sendEventFrom_unheard { bus with objEventSeq := bus.objEventSeq + 1 }
      _ _ fun ev inTree found => absurd ⟨ev, inTree, found⟩ heard]
    exact Announces.silent rfl rfl rfl

/-- The end of an object is told to those who wait for it. -/
theorem announces_ubusdFreeObject {young held : Option Ptr} {obj : Ptr}
    (linked : Linked young held bus.store) (addressed : Addressed bus.store)
    (fits : EndFits bus.store obj) :
    Announces bus (bus.ubusdFreeObject obj) := by
  have lists : Announces bus ((bus.dropTargets obj).dropSubscribers obj) :=
    Notifies.announces (bus.notifies_dropSubscribers addressed)
  have path : Announces ((bus.dropTargets obj).dropSubscribers obj)
      (((bus.dropTargets obj).dropSubscribers obj).dropPath obj) := by
    have samePath : ((bus.store.dropLinks obj).objectAt obj).path =
        (bus.store.objectAt obj).path := by rw [dropLinks_eq]
    rw [dropPath, store_dropSubscribers]
    dsimp only
    split
    · rename_i hasPath
      refine Announces.trans (Announces.after (announces_ubusdSendObjEvent
          { (bus.dropTargets obj).dropSubscribers obj with
            store := bus.store.dropLinks obj } false
          (addressed_dropLinks addressed) ?_) rfl rfl rfl)
        (Announces.silent rfl rfl rfl)
      intro heard
      obtain ⟨path, isPath⟩ := Option.isSome_iff_exists.mp hasPath
      have here : ((bus.store.dropLinks obj).objectAt obj).path =
          some path := isPath
      dsimp only
      rw [here]
      refine fits path (samePath.symm.trans here) ?_
      rw [dropLinks_eq] at heard
      obtain ⟨ev, inTree, found⟩ := heard
      obtain ⟨wasInTree, notOwn⟩ := List.mem_filter.mp inTree
      refine ⟨ev, wasInTree, fun own => ?_, found⟩
      exact of_decide_eq_true notOwn ((linked.sources.listed obj ev).mpr
        ⟨wasInTree, congrArg some own⟩)
    · exact Announces.silent rfl rfl rfl
  rw [ubusdFreeObject]
  refine (lists.trans path).trans ?_
  rw [unrefType.eq_def]
  split
  · exact Announces.silent rfl rfl rfl
  · exact Announces.silent rfl rfl rfl

/-- A new object is told to those who wait for it. -/
theorem announces_registerPath {store : ObjStore} {obj : Ptr} {placed : Bus}
    (bytes : List UInt8) (attr : AttrTable)
    (facts : YoungObject store bus.store obj) (unwatched : Unwatched store)
    (registered : bus.registerPath bytes attr obj = some placed)
    (fits : ∀ objpath, attr .objpath = some objpath →
      (∃ ev ∈ bus.store.patterns, (bus.store.sourceAt ev).matches
        (ascii "ubus.object.add") = true) →
        Fits (4 + objEventSize (cString bytes (objpath + 4)) true)) :
    Announces bus placed := by
  rw [registerPath] at registered
  split at registered
  · rw [Option.some.inj registered]
    exact Announces.silent rfl rfl rfl
  · rename_i objpath asks
    split at registered
    · exact absurd registered (Option.some_ne_none placed).symm
    · rename_i next inserted
      rw [← Option.some.inj registered]
      have linked := facts.linked.insertPath facts.live facts.blank.1 inserted
      obtain ⟨tree, same, _⟩ := insertPath_some inserted
      have nextUnwatched : Unwatched next := by
        rw [same]
        simpa [Unwatched, ObjStore.addPath] using facts.unwatched unwatched
      refine Announces.after (announces_ubusdSendObjEvent
        { bus with store := next } true (linked.addressed nextUnwatched) ?_)
          rfl rfl rfl
      intro heard
      have isPath : (next.objectAt obj).path =
          some (cString bytes (objpath + 4)) := by
        rw [same]
        simp [ObjStore.addPath, ObjStore.objectAt_modifyObject]
      dsimp only
      rw [isPath]
      refine fits objpath asks ?_
      rw [same] at heard
      exact heard

theorem announces_ubusdCreateObject {cl : Ptr} {ub : BusRequest}
    (linked : Linked none none bus.store) (allocated : Allocated bus.store)
    (unwatched : Unwatched bus.store)
    (fits : StartFits bus.store ub bus.urandom) :
    Announces bus (bus.ubusdCreateObject cl ub.bytes ub.attr).1 := by
  have refused := @created_isNone bus cl ub.bytes ub.attr linked allocated
  have made : Announces bus _ := Notifies.announces
    ((bus.notifies_newObjectType ub.bytes ub.attr).trans
      (notifies_create _ (bus.newObjectType ub.bytes ub.attr).2))
  have newType := bus.newObjectType_newType ub.bytes ub.attr
  rw [ubusdCreateObject] at refused ⊢
  split at refused
  · exact made
  · rename_i obj created
    have young := create_young _ newType created
    have facts := young.youngObject linked allocated
    split at refused
    · refine made.trans (announces_ubusdFreeObject _ facts.linked
        (facts.linked.addressed (facts.unwatched unwatched)) ?_)
      intro path isPath
      rw [facts.blank.1] at isPath
      exact absurd isPath (Option.some_ne_none path).symm
    · rename_i placed registered
      have notRefused : ¬ Refused bus.store ub.bytes ub.attr bus.urandom :=
        fun isRefused => Option.some_ne_none obj (refused.mpr isRefused)
      have told := announces_registerPath _ ub.bytes ub.attr facts unwatched
        registered fun objpath asks heard => fits notRefused objpath asks (by
          rw [young.patterns linked allocated, facts.sourceAt] at heard
          exact heard)
      exact (made.trans told).trans (Announces.silent rfl rfl rfl)

/-! ## Handlers -/

variable {bus} {cl : Ptr} {ub : BusRequest}

/-- An answer that names identifiers is short. -/
theorem Named.fits {attrs : List (List UInt8)} (named : Named attrs) :
    Fits (4 + attrs.flatten.length) := by
  cases named with
  | object id =>
      rw [List.flatten_cons, List.length_append, length_blobPutInt32]
      exact ⟨by decide, by decide⟩
  | typed id type =>
      rw [List.flatten_cons, List.flatten_cons, List.length_append,
        List.length_append, length_blobPutInt32, length_blobPutInt32]
      exact ⟨by decide, by decide⟩

/-- An answer to the sender. -/
theorem accepted_sendBlob {hdr : UbusMsghdr} {type : UbusMsgType}
    {attrs : List (List UInt8)} (fits : Fits (4 + attrs.flatten.length)) :
    Accepted bus
      ((bus.blobBufInit attrs).ubusSendMsgFromBlob (some cl) hdr type) :=
  Emits.sendBlob (validates_msgFromBlob rfl fits)

theorem accepted_handleAddObject (linked : Linked none none bus.store)
    (allocated : Allocated bus.store) (unwatched : Unwatched bus.store)
    (fits : StartFits bus.store ub bus.urandom) :
    Accepted bus (bus.ubusdHandleAddObject cl ub).1 := by
  have made := (@announces_ubusdCreateObject bus cl ub linked allocated
    unwatched fits).accepted
  rw [ubusdHandleAddObject]
  split
  · rename_i next created
    rw [created] at made
    exact made
  · rename_i next obj created
    rw [created] at made
    dsimp only
    split
    · exact made.trans (accepted_sendBlob (Named.object _).fits)
    · exact made.trans (Emits.dies trivial)
    · exact made.trans (accepted_sendBlob (Named.typed _ _).fits)

theorem accepted_handleRemoveObject (linked : Linked none none bus.store)
    (addressed : Addressed bus.store)
    (fits : ∀ obj, Removes bus cl ub obj → EndFits bus.store obj) :
    Accepted bus (bus.ubusdHandleRemoveObject cl ub).1 := by
  rw [ubusdHandleRemoveObject]
  dsimp only
  split
  · exact Emits.silent rfl rfl
  · rename_i objid hasObjid
    split
    · exact Emits.silent rfl rfl
    · rename_i obj found
      split
      · exact Emits.silent rfl rfl
      · rename_i isOwn
        have removes : Removes bus cl ub obj :=
          ⟨⟨objid, hasObjid, found⟩, not_not.mp isOwn⟩
        dsimp only
        generalize attrsOf : blobPutInt32 UbusMsgAttr.objid.id
          (bus.store.objectAt obj).id :: _ = attrs
        have named : Named attrs := by
          rw [← attrsOf]
          split
          · exact Named.object _
          · split
            · exact Named.typed _ _
            · exact Named.object _
        have freed : Announces (bus.blobBufInit attrs)
            ((bus.blobBufInit attrs).ubusdFreeObject obj) :=
          announces_ubusdFreeObject (bus.blobBufInit attrs) linked addressed
            (fits obj removes)
        refine Emits.trans (Emits.after freed.accepted rfl rfl)
          (Emits.send (validates_msgFromBlob rfl ?_))
        rcases freed.b with same | fitting
        · rw [same]
          exact named.fits
        · exact fitting

/-- An event that nobody receives is not sent. -/
theorem accepted_ubusdForwardEvent {bytes : List UInt8} {msg : Nat}
    (addressed : Addressed bus.store)
    (fits : EventFits bus.store cl bytes msg) :
    Accepted bus (bus.ubusdForwardEvent cl bytes msg).1 := by
  rw [ubusdForwardEvent]
  split
  · rename_i idAttr data parsed
    dsimp only
    split
    · exact Emits.silent rfl rfl
    · rename_i permitted
      rw [ubusdSendEvent]
      by_cases received : ∃ obj, Receives bus.store cl
          (cString bytes (blobmsgData (memoryOf bytes) idAttr)) obj
      · refine Emits.after (emits_sendEventFrom
          { bus with objEventSeq := bus.objEventSeq + 1 } _ 0 addressed.source
            trivial ?_) rfl rfl
        intro receiver seq objid attrs filled
        refine validates_msgFromBlob rfl ?_
        rw [length_eventAttrs filled]
        exact fits idAttr data parsed permitted received
      · rw [sendEventFrom_unheard
          { bus with objEventSeq := bus.objEventSeq + 1 } _ _
          fun ev inTree found => by_contra fun foreign =>
            received ⟨_, ⟨ev, inTree, rfl, found⟩, foreign⟩]
        exact Emits.silent rfl rfl
  · exact Emits.silent rfl rfl

theorem accepted_handleInvoke (addressed : Addressed bus.store)
    (fits : InvokeFits bus cl ub) :
    Accepted bus (bus.ubusdHandleInvoke cl ub).1 := by
  rw [ubusdHandleInvoke]
  dsimp only
  split
  · rename_i method objid hasMethod hasObjid
    split
    · exact Emits.silent rfl rfl
    · rename_i obj found
      have invokes : Invokes bus ub obj method :=
        ⟨hasMethod, objid, hasObjid, found⟩
      split
      · rename_i free
        have noClient := Option.isNone_iff_eq_none.mp free
        split
        · rw [ubusdEventRecv.eq_def]
          split
          · split
            · exact Emits.dies trivial
            · exact bus.emits_ubusdAllocEventPattern cl ub.bytes _
          · split
            · rename_i send
              split
              · exact Emits.dies trivial
              · rename_i data hasData
                exact accepted_ubusdForwardEvent addressed
                  (fits.event obj method invokes noClient send data hasData)
            · exact Emits.silent rfl rfl
        · exact Emits.dies trivial
      · rename_i owned
        obtain ⟨receiver, own⟩ := Option.ne_none_iff_exists'.mp
          fun none => owned (Option.isNone_iff_eq_none.mpr none)
        refine bus.emits_ubusdForwardInvoke cl ub own trivial ?_
        intro attrs made
        refine validates_msgFromBlob rfl ?_
        rw [List.nil_append, length_invokeAttrs made]
        refine fits.forward obj method invokes ?_
        rw [own]
        rfl
  · exact Emits.silent rfl rfl

theorem accepted_handleNotify (addressed : Addressed bus.store)
    (fits : NotifyFits bus cl ub) :
    Accepted bus (bus.ubusdHandleNotify cl ub).1 := by
  refine bus.emits_handleNotify cl ub addressed trivial ?_ ?_
  · intro obj method invokes own reply
    refine validates_msgFromBlob rfl ?_
    rw [length_subscribersAttrs]
    exact fits.list obj method invokes own reply
  · intro obj method invokes own s onList receiver attrs made
    refine validates_msgFromBlob rfl ?_
    have front : (notifyFront ub).flatten.length =
        if noReply ub then 8 else 0 := by
      rw [notifyFront]
      split
      · rw [List.flatten_cons, List.length_append, length_blobPutInt8]
        rfl
      · rfl
    rw [List.flatten_append, List.length_append, front,
      length_invokeAttrs made]
    exact fits.forward obj method invokes own (List.ne_nil_of_mem onList)

/-- A message without attributes is no response. -/
theorem four_le_of_attr {attr : UbusMsgAttr} {pos : Nat}
    (inside : 4 ≤ ub.bytes.length) (has : ub.attr attr = some pos) :
    4 ≤ (blobRawLen ub.bytes).toNat := by
  by_contra short
  have none : blobForEachAttr ub.mem 0 = [] := by
    rw [blobForEachAttr, blobRem_blobLen, BusRequest.mem,
      rawLen_attrAt_memoryOf inside, Nat.sub_eq_zero_of_le (by omega)]
    rfl
  rw [BusRequest.attr, ubusParseMsg, blobParse, none] at has
  exact absurd has (Option.some_ne_none pos).symm

/-- What `client_cb` hands over is within the limit of the receiver. -/
theorem fits_of_padLen {bytes : List UInt8}
    (four : 4 ≤ (blobRawLen bytes).toNat)
    (padLen : blobPadLen bytes ≤ ubusMaxMsglen) :
    Fits (blobRawLen bytes).toNat := by
  have small := blobRawLen_lt bytes
  have limit : ubusMaxMsglen.toNat = 1048576 := rfl
  rw [UInt32.le_iff_toNat_le, blobPadLen_toNat, limit] at padLen
  rw [Fits, Nat.mod_eq_of_lt small]
  omega

theorem accepted_handle (settled : Settled bus.store)
    (inside : 4 ≤ ub.bytes.length)
    (padLen : blobPadLen ub.bytes ≤ ubusMaxMsglen) {type : UbusMsgType}
    (limits : WithinLimits bus cl ub type) :
    Accepted bus (bus.handle cl ub type).1 := by
  have addressed := settled.addressed
  have response : (∀ objid obj receiver,
      Responds bus cl ub objid obj receiver → ub.hdr.version = 0) →
        Accepted bus (bus.ubusdHandleResponse cl ub).1 := by
    intro version
    refine bus.emits_handleResponse cl ub ?_
    intro objid obj receiver responds
    exact validates_msgData (version objid obj receiver responds) inside
      (fits_of_padLen (four_le_of_attr inside responds.asks) padLen)
  cases type with
  | hello =>
      exact Emits.silent rfl rfl
  | ping =>
      exact Emits.send (validates_msgData limits.1 inside
        (fits_of_padLen limits.2 padLen))
  | addObject =>
      exact accepted_handleAddObject settled.linked settled.allocated
        settled.unwatched limits
  | removeObject =>
      exact accepted_handleRemoveObject settled.linked addressed limits
  | lookup =>
      refine bus.emits_handleLookup cl ub trivial (fun _ _ _ => trivial) ?_
      intro obj member type attrs ofType made
      refine validates_msgFromBlob rfl ?_
      rw [length_objAttrs made]
      exact limits obj member type ofType
  | invoke =>
      exact accepted_handleInvoke addressed limits
  | status =>
      exact response limits
  | data =>
      exact response limits
  | subscribe =>
      exact bus.emits_handleAddWatch cl ub (fun _ _ _ _ => trivial)
        fun receiver _ _ notice => notice.validates receiver
  | unsubscribe =>
      exact bus.emits_handleRemoveWatch cl ub addressed
        fun receiver _ _ notice => notice.validates receiver
  | notify =>
      exact accepted_handleNotify addressed limits

theorem accepted_status (ret : UInt32) :
    (⟨cl, ⟨0, UbusMsgType.status.code, ub.hdr.seq, ub.hdr.peer⟩,
      statusData ret⟩ : BusMsg).Validates := by
  have start : (statusData ret).take 4 = [0, 0, 0, 12] := rfl
  rw [validates_iff, start]
  exact ⟨rfl, by decide, by decide⟩

/-- The objects of a client are freed one after the other. -/
theorem accepted_freeObjects (objs : List Ptr) (once : objs.Nodup)
    (linked : Linked none none bus.store) (unwatched : Unwatched bus.store)
    (all : ∀ obj ∈ objs, obj ∈ bus.store.objects ∧ obj ≠ bus.store.eventObj)
    (fits : ∀ obj ∈ objs, EndFits bus.store obj) :
    Accepted bus (objs.foldl ubusdFreeObject bus) := by
  induction objs generalizing bus with
  | nil =>
      exact Emits.silent rfl rfl
  | cons obj rest inductionHypothesis =>
      obtain ⟨notInRest, restOnce⟩ := List.nodup_cons.mp once
      obtain ⟨live, notEvent⟩ := all obj List.mem_cons_self
      have objects : (bus.store.freeObject obj).objects =
          avlDelete obj bus.store.objects := by rw [freeObject_eq]
      have eventObj : (bus.store.freeObject obj).eventObj =
          bus.store.eventObj := by rw [freeObject_eq, dropLinks_eq]
      refine (announces_ubusdFreeObject bus linked
        (linked.addressed unwatched)
          (fits obj List.mem_cons_self)).accepted.trans ?_
      have store := bus.store_ubusdFreeObject obj
      refine inductionHypothesis restOnce ?_ ?_ ?_ ?_
      · rw [store]
        exact linked.freeObject live notEvent (Or.inl rfl)
      · rw [store]
        exact unwatched.freeObject obj
      · intro other member
        obtain ⟨otherLive, otherNotEvent⟩ :=
          all other (List.mem_cons_of_mem obj member)
        rw [store, objects, eventObj]
        exact ⟨mem_avlDelete.mpr ⟨otherLive,
          fun same => notInRest (same ▸ member)⟩, otherNotEvent⟩
      · intro other member path isPath heard
        rw [store] at isPath heard
        rw [path_freeObject] at isPath
        refine fits other (List.mem_cons_of_mem obj member) path isPath ?_
        obtain ⟨ev, inTree, foreign, found⟩ := heard
        rw [freeObject_eq, dropLinks_eq] at inTree foreign found
        exact ⟨ev, (List.mem_filter.mp inTree).1, foreign, found⟩

end Bus

/-! ## Runs -/

/-- Everything that a message sets off is accepted. -/
theorem act_accepted {bus next : Bus} {action : BusAction}
    (holds : EventInv bus) (taken : ubusd.step bus action = some next)
    (limits : action.WithinLimits bus) :
    ∀ msg ∈ next.sent, msg.Validates := by
  obtain ⟨running, enabled, same⟩ := step_some taken
  have settled := holds.settled running
  rw [same]
  cases action with
  | connect urandom =>
      rw [Bus.act, Bus.ubusdProtoNewClient]
      intro msg member
      split at member
      · exact absurd member List.not_mem_nil
      · rw [List.mem_singleton.mp member]
        exact validates_msgFromBlob rfl ⟨by decide, by decide⟩
  | disconnect cl =>
      have begun : Settled { bus with sent := [] }.store := settled
      obtain ⟨msgs, sent, all⟩ := (@Bus.accepted_freeObjects
        { bus with sent := [] } (bus.store.clientAt cl).objects
        (settled.linked.owners.once cl) settled.linked settled.unwatched
        (fun obj onList => by
          obtain ⟨live, own⟩ :=
            (settled.linked.owners.listed cl obj).mp onList
          exact ⟨live, settled.linked.ne_eventObj live own⟩)
        limits).sent
      intro msg member
      rw [Bus.act, Bus.ubusdProtoFreeClient] at member
      dsimp only at member
      rw [sent] at member
      exact all msg member
  | receive cl ub urandom =>
      have begun : Settled
          { bus with urandom := urandom, sent := [] }.store := settled
      obtain ⟨⟨_, padLen⟩, inside⟩ : (_ ∧ blobPadLen ub.bytes ≤
          ubusMaxMsglen) ∧ max 4 _ ≤ ub.bytes.length := by
        simpa [BusAction.enabled] using enabled
      obtain ⟨msgs, sent, all⟩ := (Bus.emits_receive
        { bus with urandom := urandom, sent := [] } cl ub
        (fun ret => Bus.accepted_status ret)
        (fun type isType => Bus.accepted_handle begun
          (Nat.le_trans (Nat.le_max_left 4 _) inside) padLen
            (limits type isType)) : Accepted _ _).sent
      intro msg member
      rw [Bus.act, sent] at member
      exact all msg member

/-- In a run whose messages keep within the limits, everything that ubusd sends
passes `ubus_validate_hdr` of its receiver, in every state on the way. -/
theorem sent_validates {actions : List BusAction}
    (limits : ubusd.Meets (fun bus action => action.WithinLimits bus)
      ubusd.init actions) :
    ubusd.Always (fun bus => ∀ msg ∈ bus.sent, msg.Validates) ubusd.init
      actions :=
  Machine.always_of_meets eventInv_step
    (fun _ _ _ holds limits taken => act_accepted holds taken limits)
    actions ubusd.init eventInv_init
    (fun _ member => absurd member List.not_mem_nil) limits

/-- A client connects and sends a ping. -/
def onePing : List BusAction :=
  [.connect [5000],
    .receive 1 ⟨⟨0, UbusMsgType.ping.code, 1, 0⟩, [0, 0, 0, 4]⟩ []]

theorem sent_validates_onePing :
    ubusd.Always (fun bus => ∀ msg ∈ bus.sent, msg.Validates) ubusd.init
      onePing :=
  sent_validates ⟨trivial, fun _ _ => ⟨fun type isType => by
    cases isType
    exact ⟨rfl, by decide⟩, fun _ _ => trivial⟩⟩

/-- The second client answers the first as before, but with another version in
its header. -/
def answerNextVersion : BusRequest :=
  { answerFirst with hdr := ⟨1, UbusMsgType.status.code, 7, 5000⟩ }

/-- What the first client receives does not pass its `ubus_validate_hdr`. -/
theorem answer_does_not_validate :
    ∃ final next, ubusd.run twoObjects = some final ∧
      ubusd.step final (.receive 2 answerNextVersion []) = some next ∧
      ∃ msg ∈ next.sent, msg.client = 1 ∧ ¬ msg.Validates :=
  ⟨_, _, rfl, rfl, by decide⟩

end LibubusJni.Ubusd
