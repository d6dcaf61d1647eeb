import LibubusJni.Ubusd.Notices

/-!
# What a handler sends and where it can die

Each handler has one lemma: if a property holds of all messages of the forms
that the handler makes, it holds of all that the handler sends, and if another
holds of the ways in which it can die, it holds of the fault it leaves.
-/

namespace LibubusJni.Ubusd

open LibubusJni.Lib LibubusJni.Libubox

/-- All that is sent between two states satisfies `P`, and so does a new fault
`F`. -/
structure Emits (P : BusMsg → Prop) (F : Fault → Prop) (bus next : Bus) :
    Prop where
  sent : ∃ msgs, next.sent = bus.sent ++ msgs ∧ ∀ msg ∈ msgs, P msg
  fault : ∀ fault, next.fault = some fault → bus.fault = some fault ∨ F fault

variable {P : BusMsg → Prop} {F : Fault → Prop}

namespace Emits

variable {bus middle next : Bus}

theorem silent (sent : next.sent = bus.sent) (fault : next.fault = bus.fault) :
    Emits P F bus next where
  sent := ⟨[], by rw [sent, List.append_nil], fun _ member =>
    absurd member List.not_mem_nil⟩
  fault other isFault := Or.inl (fault ▸ isFault)

theorem trans (first : Emits P F bus middle)
    (second : Emits P F middle next) : Emits P F bus next where
  sent := by
    obtain ⟨msgs, sent, all⟩ := first.sent
    obtain ⟨more, moreSent, moreAll⟩ := second.sent
    refine ⟨msgs ++ more, by rw [moreSent, sent, List.append_assoc], ?_⟩
    intro msg member
    rcases List.mem_append.mp member with early | late
    · exact all msg early
    · exact moreAll msg late
  fault other isFault := by
    rcases second.fault other isFault with early | late
    · exact first.fault other early
    · exact Or.inr late

theorem after (later : Emits P F middle next)
    (sent : middle.sent = bus.sent) (fault : middle.fault = bus.fault) :
    Emits P F bus next :=
  (silent sent fault).trans later

/-- The process dies. -/
theorem dies {fault : Fault} (isBad : F fault) :
    Emits P F bus (bus.crash fault) where
  sent := ⟨[], (List.append_nil _).symm, fun _ member =>
    absurd member List.not_mem_nil⟩
  fault other isFault := by
    have first : bus.fault.getD fault = other := Option.some.inj isFault
    cases before : bus.fault with
    | none =>
        rw [before] at first
        exact Or.inr (first ▸ isBad)
    | some old =>
        rw [before] at first
        exact Or.inl (congrArg some first)

theorem send {cl : Ptr} {hdr : UbusMsghdr} {data : List UInt8}
    (good : P ⟨cl, hdr, data⟩) :
    Emits P F bus (bus.ubusMsgSend (some cl) hdr data) where
  sent := ⟨_, rfl, fun msg member => by
    rw [List.mem_singleton.mp member]
    exact good⟩
  fault _ isFault := Or.inl isFault

/-- What `b` holds is replaced and sent. -/
theorem sendBlob {cl : Ptr} {hdr : UbusMsghdr} {type : UbusMsgType}
    {attrs : List (List UInt8)}
    (good : P ⟨cl, ⟨0, type.code, hdr.seq, hdr.peer⟩, Bus.msgFromBlob attrs⟩) :
    Emits P F bus
      ((bus.blobBufInit attrs).ubusSendMsgFromBlob (some cl) hdr type) where
  sent := ⟨_, rfl, fun msg member => by
    rw [List.mem_singleton.mp member]
    exact good⟩
  fault _ isFault := Or.inl isFault

end Emits

/-- Notices are messages. -/
theorem Notifies.emits {paths : List UInt8 → Prop} {bus next : Bus}
    (notifies : Notifies paths bus next)
    (good : ∀ client hdr attrs, Notice paths hdr attrs →
      P ⟨client, hdr, Bus.msgFromBlob attrs⟩) : Emits P F bus next where
  sent := by
    obtain ⟨msgs, sent, all⟩ := notifies.sent
    refine ⟨msgs, sent, fun msg member => ?_⟩
    obtain ⟨attrs, notice, data⟩ := all msg member
    have isGood := good msg.client msg.hdr attrs notice
    rw [← data] at isGood
    exact isGood
  fault fault isFault := Or.inl (notifies.fault ▸ isFault)

namespace Bus

variable (bus : Bus) (cl : Ptr) (ub : BusRequest)

/-- A loop that leaves the structures alone. -/
theorem emits_foldl {body : Bus → Ptr → Bus} (items : List Ptr)
    (store : ∀ bus item, (body bus item).store = bus.store)
    (one : ∀ now : Bus, now.store = bus.store → ∀ item ∈ items,
      Emits P F now (body now item)) :
    Emits P F bus (items.foldl body bus) := by
  induction items generalizing bus with
  | nil =>
      exact Emits.silent rfl rfl
  | cons item rest inductionHypothesis =>
      refine (one bus rfl item List.mem_cons_self).trans ?_
      refine inductionHypothesis _ fun now same other member => ?_
      exact one now (same.trans (store bus item)) other
        (List.mem_cons_of_mem item member)

/-! ## Replies -/

theorem emits_sendStatus (ret : UInt32)
    (good : P ⟨cl, ⟨0, UbusMsgType.status.code, ub.hdr.seq, ub.hdr.peer⟩,
      statusData ret⟩) :
    Emits P F bus (bus.sendStatus cl ub ret) :=
  Emits.send good

theorem emits_ubusdSendObj {obj : Ptr} (overrun : F .overrun)
    (typeless : (bus.store.objectAt obj).type = none → F .nullType)
    (good : ∀ type attrs, (bus.store.objectAt obj).type = some type →
      objAttrs (bus.store.objectAt obj) (bus.store.typeAt type) = some attrs →
        P ⟨cl, ⟨0, UbusMsgType.data.code, ub.hdr.seq, ub.hdr.peer⟩,
          msgFromBlob attrs⟩) :
    Emits P F bus (bus.ubusdSendObj cl ub obj) := by
  rw [ubusdSendObj]
  split
  · rename_i noType
    exact Emits.dies (typeless noType)
  · rename_i type ofType
    split
    · exact Emits.dies overrun
    · rename_i attrs made
      exact Emits.sendBlob (good type attrs ofType made)

/-- The objects that `ubusd_handle_lookup` reports. -/
def reported : List Ptr :=
  match ub.attr .objpath with
  | none => bus.store.path
  | some objpath => bus.lookupPath ub objpath

theorem reported_subset : ∀ obj ∈ bus.reported ub, obj ∈ bus.store.path := by
  intro obj member
  rw [reported] at member
  split at member
  · exact member
  · rw [lookupPath] at member
    dsimp only at member
    split at member
    · exact (avlFind_some (Option.mem_toList.mp member)).1
    · have later := (List.takeWhile_sublist _).subset member
      exact (List.dropWhile_sublist _).subset later

theorem emits_handleLookup (overrun : F .overrun)
    (typeless : ∀ obj ∈ bus.reported ub,
      (bus.store.objectAt obj).type = none → F .nullType)
    (good : ∀ obj ∈ bus.reported ub, ∀ type attrs,
      (bus.store.objectAt obj).type = some type →
      objAttrs (bus.store.objectAt obj) (bus.store.typeAt type) = some attrs →
        P ⟨cl, ⟨0, UbusMsgType.data.code, ub.hdr.seq, ub.hdr.peer⟩,
          msgFromBlob attrs⟩) :
    Emits P F bus (bus.ubusdHandleLookup cl ub).1 := by
  have replies : Emits P F bus ((bus.reported ub).foldl
      (fun bus obj => bus.ubusdSendObj cl ub obj) bus) := by
    refine emits_foldl bus _ (fun bus obj => store_ubusdSendObj bus cl ub obj) ?_
    intro now same obj member
    refine now.emits_ubusdSendObj cl ub overrun ?_ ?_
    · rw [same]
      exact typeless obj member
    · rw [same]
      exact good obj member
  rw [ubusdHandleLookup]
  rw [reported] at replies
  cases asks : ub.attr .objpath with
  | none =>
      rw [asks] at replies
      exact replies
  | some objpath =>
      rw [asks] at replies
      exact replies

/-! ## Forwarding -/

theorem emits_ubusdForwardInvoke {front : List (List UInt8)} {obj : Ptr}
    {method : Nat} {receiver : Ptr}
    (own : (bus.store.objectAt obj).client = some receiver)
    (overrun : F .overrun)
    (good : ∀ attrs,
      invokeAttrs ub (bus.store.objectAt obj) method = some attrs →
        P ⟨receiver, ⟨0, UbusMsgType.invoke.code, ub.hdr.seq,
          (bus.store.clientAt cl).id⟩, msgFromBlob (front ++ attrs)⟩) :
    Emits P F bus (bus.ubusdForwardInvoke cl ub front obj method) := by
  rw [ubusdForwardInvoke, own]
  dsimp only
  split
  · exact Emits.dies overrun
  · rename_i attrs made
    exact Emits.sendBlob (good attrs made)

/-- The loop of `ubusd_send_event` for an event of a client. -/
theorem emits_sendEventFrom {sender : Ptr} {id : List UInt8}
    {attrs : Option (List (List UInt8))} (evs : List Ptr) (matchLen : Nat)
    (owned : ∀ ev ∈ evs, (bus.store.objectAt
      (bus.store.sourceAt ev).obj).client.isSome)
    (overrun : F .overrun)
    (good : ∀ receiver seq objid filled, attrs = some filled →
      P ⟨receiver, ⟨0, UbusMsgType.invoke.code, seq, 0⟩,
        msgFromBlob (blobPutInt32 UbusMsgAttr.objid.id objid :: filled)⟩) :
    Emits P F bus (sendEventFrom (some sender) id attrs evs matchLen bus) := by
  induction evs generalizing bus matchLen with
  | nil =>
      exact Emits.silent rfl rfl
  | cons ev rest inductionHypothesis =>
      have restOwned := fun other member =>
        owned other (List.mem_cons_of_mem ev member)
      obtain ⟨receiver, own⟩ :=
        Option.isSome_iff_exists.mp (owned ev List.mem_cons_self)
      rw [sendEventFrom]
      split
      · exact Emits.silent rfl rfl
      · split
        · refine Emits.trans ?_
            (inductionHypothesis _ _ (by simpa using restOwned))
          rw [ubusdSendEventMsg.eq_def]
          split
          · exact Emits.silent rfl rfl
          · split
            · exact Emits.silent rfl rfl
            · cases attrs with
              | none =>
                  exact Emits.dies overrun
              | some filled =>
                  dsimp only
                  rw [own]
                  exact Emits.after (Emits.send (good receiver _ _ filled rfl))
                    rfl rfl
        · exact inductionHypothesis _ _ restOwned

/-- The event that `ubusd_forward_event` forwards. -/
def ForwardsEvent (bytes : List UInt8) (msg : Nat)
    (attrs : List (List UInt8)) : Prop :=
  ∃ idAttr data,
    blobmsgParse bytes ⟨ascii "id", .string⟩ ⟨ascii "data", .table⟩ msg =
      (some idAttr, some data) ∧
    eventAttrs bytes
      (cString bytes (blobmsgData (memoryOf bytes) idAttr)) data = some attrs

theorem emits_ubusdForwardEvent (bytes : List UInt8) (msg : Nat)
    (addressed : Addressed bus.store) (overrun : F .overrun)
    (good : ∀ receiver seq objid attrs, ForwardsEvent bytes msg attrs →
      P ⟨receiver, ⟨0, UbusMsgType.invoke.code, seq, 0⟩,
        msgFromBlob (blobPutInt32 UbusMsgAttr.objid.id objid :: attrs)⟩) :
    Emits P F bus (bus.ubusdForwardEvent cl bytes msg).1 := by
  rw [ubusdForwardEvent]
  split
  · rename_i idAttr data parsed
    dsimp only
    split
    · exact Emits.silent rfl rfl
    · refine Emits.after (emits_sendEventFrom
        { bus with objEventSeq := bus.objEventSeq + 1 } _ 0 addressed.source
          overrun ?_) rfl rfl
      intro receiver seq objid attrs filled
      exact good receiver seq objid attrs ⟨idAttr, data, parsed, filled⟩
  · exact Emits.silent rfl rfl

theorem emits_ubusdAllocEventPattern (bytes : List UInt8) (msg : Nat) :
    Emits P F bus (bus.ubusdAllocEventPattern cl bytes msg).1 := by
  rw [ubusdAllocEventPattern]
  dsimp only
  split
  · split
    · exact Emits.silent rfl rfl
    · split
      · exact Emits.silent rfl rfl
      · split
        · exact Emits.silent rfl rfl
        · exact Emits.silent rfl rfl
  · exact Emits.silent rfl rfl

/-- The methods of `event_obj` that read `UBUS_ATTR_DATA`. -/
def ReadsData (method : List UInt8) : Prop :=
  method = ascii "register" ∨ method = ascii "send"

theorem emits_ubusdEventRecv (method bytes : List UInt8) (msg : Option Nat)
    (addressed : Addressed bus.store) (overrun : F .overrun)
    (noData : msg = none → ReadsData method → F .noData)
    (good : method = ascii "send" → ∀ data, msg = some data →
      ∀ receiver seq objid attrs, ForwardsEvent bytes data attrs →
        P ⟨receiver, ⟨0, UbusMsgType.invoke.code, seq, 0⟩,
          msgFromBlob (blobPutInt32 UbusMsgAttr.objid.id objid :: attrs)⟩) :
    Emits P F bus (bus.ubusdEventRecv cl method bytes msg).1 := by
  rw [ubusdEventRecv.eq_def]
  split
  · rename_i register
    split
    · exact Emits.dies (noData rfl (Or.inl register))
    · exact bus.emits_ubusdAllocEventPattern cl bytes _
  · split
    · rename_i send
      split
      · exact Emits.dies (noData rfl (Or.inr send))
      · exact bus.emits_ubusdForwardEvent cl bytes _ addressed overrun
          (good send _ rfl)
    · exact Emits.silent rfl rfl

/-- The message invokes this method of this object. -/
structure Invokes (obj : Ptr) (method : Nat) : Prop where
  method : ub.attr .method = some method
  object : ∃ objid, ub.attr .objid = some objid ∧
    bus.findObjectOf ub objid = some obj

theorem emits_handleInvoke (addressed : Addressed bus.store)
    (overrun : F .overrun)
    (noReceiver : ∀ obj ∈ bus.store.objects,
      (bus.store.objectAt obj).client = none →
        (bus.store.objectAt obj).recvMsg = false → F .nullRecvMsg)
    (noData : ∀ obj method, Invokes bus ub obj method →
      (bus.store.objectAt obj).client = none → ub.attr .data = none →
        ReadsData (stringOf ub method) → F .noData)
    (event : ∀ obj method, Invokes bus ub obj method →
      (bus.store.objectAt obj).client = none →
        stringOf ub method = ascii "send" → ∀ data, ub.attr .data = some data →
          ∀ receiver seq objid attrs, ForwardsEvent ub.bytes data attrs →
            P ⟨receiver, ⟨0, UbusMsgType.invoke.code, seq, 0⟩, msgFromBlob
              (blobPutInt32 UbusMsgAttr.objid.id objid :: attrs)⟩)
    (forward : ∀ obj method, Invokes bus ub obj method → ∀ receiver attrs,
      invokeAttrs ub (bus.store.objectAt obj) method = some attrs →
        P ⟨receiver, ⟨0, UbusMsgType.invoke.code, ub.hdr.seq,
          (bus.store.clientAt cl).id⟩, msgFromBlob attrs⟩) :
    Emits P F bus (bus.ubusdHandleInvoke cl ub).1 := by
  rw [ubusdHandleInvoke]
  dsimp only
  split
  · rename_i method objid hasMethod hasObjid
    split
    · exact Emits.silent rfl rfl
    · rename_i obj found
      have invokes : Invokes bus ub obj method :=
        ⟨hasMethod, objid, hasObjid, found⟩
      split
      · rename_i free
        have noClient := Option.isNone_iff_eq_none.mp free
        split
        · exact bus.emits_ubusdEventRecv cl _ _ _ addressed overrun
            (noData obj method invokes noClient)
            (event obj method invokes noClient)
        · rename_i noRecvMsg
          exact Emits.dies (noReceiver obj (bus.findObjectOf_some ub found).1
            noClient (eq_false_of_ne_true noRecvMsg))
      · rename_i owned
        obtain ⟨receiver, own⟩ := Option.ne_none_iff_exists'.mp
          fun none => owned (Option.isNone_iff_eq_none.mpr none)
        exact bus.emits_ubusdForwardInvoke cl ub own overrun
          (forward obj method invokes receiver)
  · exact Emits.silent rfl rfl

/-- What `ubusd_handle_notify` answers. -/
def subscribersAttrs (store : ObjStore) (obj : Ptr) : List (List UInt8) :=
  [blobPutInt32 UbusMsgAttr.objid.id (store.objectAt obj).id,
    blobNest UbusMsgAttr.subscribers.id
      ((store.objectAt obj).subscribers.map fun s =>
        blobPutInt32 0
          (store.objectAt (store.subscriptionAt s).subscriber).id),
    blobPutInt32 UbusMsgAttr.status.id 0]

/-- What `ubusd_handle_notify` puts in front of what it forwards. -/
def notifyFront : List (List UInt8) :=
  if noReply ub then [blobPutInt8 UbusMsgAttr.noReply.id 1] else []

theorem emits_handleNotify (addressed : Addressed bus.store)
    (overrun : F .overrun)
    (list : ∀ obj method, Invokes bus ub obj method →
      (bus.store.objectAt obj).client = some cl → noReply ub = false →
        P ⟨cl, ⟨0, UbusMsgType.status.code, ub.hdr.seq, ub.hdr.peer⟩,
          msgFromBlob (subscribersAttrs bus.store obj)⟩)
    (forward : ∀ obj method, Invokes bus ub obj method →
      (bus.store.objectAt obj).client = some cl →
      ∀ s ∈ (bus.store.objectAt obj).subscribers, ∀ receiver attrs,
        invokeAttrs ub (bus.store.objectAt
          (bus.store.subscriptionAt s).subscriber) method = some attrs →
        P ⟨receiver, ⟨0, UbusMsgType.invoke.code, ub.hdr.seq,
          (bus.store.clientAt cl).id⟩, msgFromBlob
            (notifyFront ub ++ attrs)⟩) :
    Emits P F bus (bus.ubusdHandleNotify cl ub).1 := by
  rw [ubusdHandleNotify]
  dsimp only
  split
  · rename_i method objid hasMethod hasObjid
    split
    · exact Emits.silent rfl rfl
    · rename_i obj found
      have invokes : Invokes bus ub obj method :=
        ⟨hasMethod, objid, hasObjid, found⟩
      split
      · exact Emits.silent rfl rfl
      · rename_i isOwn
        have own := not_not.mp isOwn
        have listed : Emits P F bus
            (if noReply ub then bus else bus.sendSubscribers cl ub obj) := by
          split
          · exact Emits.silent rfl rfl
          · rename_i reply
            exact Emits.sendBlob
              (list obj method invokes own (eq_false_of_ne_true reply))
        have store : (if noReply ub then bus
            else bus.sendSubscribers cl ub obj).store = bus.store := by
          split
          · rfl
          · exact store_sendSubscribers ..
        refine listed.trans (emits_foldl _ _
          (fun bus s => store_ubusdForwardInvoke bus cl ub _ _ _) ?_)
        intro now same s onList
        have nowStore := same.trans store
        obtain ⟨receiver, subscriber⟩ := Option.isSome_iff_exists.mp
          (addressed.subscription obj s (Or.inl onList)).1
        have nowOwn : (now.store.objectAt
            (bus.store.subscriptionAt s).subscriber).client =
              some receiver := by
          rw [nowStore]
          exact subscriber
        rw [nowStore]
        refine now.emits_ubusdForwardInvoke cl ub nowOwn overrun ?_
        rw [nowStore]
        exact forward obj method invokes own s onList receiver
  · exact Emits.silent rfl rfl

/-- The message is a response that is passed on. -/
structure Responds (objid : Nat) (obj receiver : Ptr) : Prop where
  asks : ub.attr .objid = some objid
  complete : responseComplete ub = true
  found : bus.findObjectOf ub objid = some obj
  own : (bus.store.objectAt obj).client = some cl
  receiver : bus.store.findClient ub.hdr.peer = some receiver

theorem emits_handleResponse
    (good : ∀ objid obj receiver, Responds bus cl ub objid obj receiver →
      P ⟨receiver, { ub.hdr with peer := blobGetU32 ub.mem objid },
        msgData ub.bytes⟩) :
    Emits P F bus (bus.ubusdHandleResponse cl ub).1 := by
  rw [ubusdHandleResponse]
  split
  · exact Emits.silent rfl rfl
  · rename_i objid hasObjid
    split
    · rename_i complete
      split
      · exact Emits.silent rfl rfl
      · rename_i obj found
        split
        · exact Emits.silent rfl rfl
        · rename_i own
          split
          · exact Emits.silent rfl rfl
          · rename_i receiver isReceiver
            exact Emits.send (good objid obj receiver
              ⟨hasObjid, complete, found, not_not.mp own, isReceiver⟩)
    · exact Emits.silent rfl rfl

/-! ## Subscriptions -/

theorem emits_ubusSubscribe {obj target : Ptr}
    (nullClient : (bus.store.objectAt target).client = none → F .nullClient)
    (good : ∀ receiver hdr attrs, Notice (fun _ => False) hdr attrs →
      P ⟨receiver, hdr, msgFromBlob attrs⟩) :
    Emits P F bus (bus.ubusSubscribe obj target) := by
  cases owner : (bus.store.objectAt target).client with
  | some receiver =>
      refine Notifies.emits (bus.notifies_ubusSubscribe ?_) good
      rw [owner]
      rfl
  | none =>
      have free : ((bus.store.addSubscription obj target).objectAt
          target).client = none := by
        simpa [ObjStore.addSubscription] using owner
      rw [ubusSubscribe]
      split
      · rw [ubusNotifySubscription, free]
        exact Emits.after (Emits.dies (nullClient owner)) rfl rfl
      · exact Emits.silent rfl rfl

theorem emits_handleAddWatch
    (nullClient : ∀ obj target, Subscribes bus cl ub obj target →
      (bus.store.objectAt target).client = none → F .nullClient)
    (good : ∀ receiver hdr attrs, Notice (fun _ => False) hdr attrs →
      P ⟨receiver, hdr, msgFromBlob attrs⟩) :
    Emits P F bus (bus.ubusdHandleAddWatch cl ub).1 := by
  rw [ubusdHandleAddWatch]
  split
  · rename_i objid targetAttr hasObjid hasTarget
    split
    · exact Emits.silent rfl rfl
    · rename_i obj found
      split
      · exact Emits.silent rfl rfl
      · rename_i own
        split
        · exact Emits.silent rfl rfl
        · rename_i target targetFound
          split
          · exact Emits.silent rfl rfl
          · rename_i foreign
            exact bus.emits_ubusSubscribe (nullClient obj target
              ⟨⟨objid, hasObjid, found⟩, not_not.mp own,
                ⟨targetAttr, hasTarget, targetFound⟩, foreign⟩) good
  · exact Emits.silent rfl rfl

theorem emits_handleRemoveWatch (addressed : Addressed bus.store)
    (good : ∀ receiver hdr attrs, Notice (fun _ => False) hdr attrs →
      P ⟨receiver, hdr, msgFromBlob attrs⟩) :
    Emits P F bus (bus.ubusdHandleRemoveWatch cl ub).1 := by
  rw [ubusdHandleRemoveWatch]
  dsimp only
  split
  · split
    · exact Emits.silent rfl rfl
    · rename_i obj found
      split
      · exact Emits.silent rfl rfl
      · split
        · exact Emits.silent rfl rfl
        · rename_i s onList
          have listed := List.mem_of_find?_eq_some onList
          exact Notifies.emits (bus.notifies_ubusUnsubscribe
            (addressed.subscription obj s (Or.inr listed)).2) good
  · exact Emits.silent rfl rfl

/-! ## Objects -/

/-- The message removes this object of its sender. -/
structure Removes (obj : Ptr) : Prop where
  object : ∃ objid, ub.attr .objid = some objid ∧
    bus.findObjectOf ub objid = some obj
  own : (bus.store.objectAt obj).client = some cl

/-- The identifiers that an answer names. -/
inductive Named : List (List UInt8) → Prop where
  | object (id : UInt32) : Named [blobPutInt32 UbusMsgAttr.objid.id id]
  | typed (id type : UInt32) :
      Named [blobPutInt32 UbusMsgAttr.objid.id id,
        blobPutInt32 UbusMsgAttr.objtype.id type]

theorem emits_handleRemoveObject (addressed : Addressed bus.store)
    (named : ∀ attrs, Named attrs →
      P ⟨cl, ⟨0, UbusMsgType.data.code, ub.hdr.seq, ub.hdr.peer⟩,
        msgFromBlob attrs⟩)
    (notice : ∀ obj, Removes bus cl ub obj → ∀ hdr attrs,
      Notice (fun path => (bus.store.objectAt obj).path = some path) hdr
        attrs →
      (∀ receiver, P ⟨receiver, hdr, msgFromBlob attrs⟩) ∧
        P ⟨cl, ⟨0, UbusMsgType.data.code, ub.hdr.seq, ub.hdr.peer⟩,
          msgFromBlob attrs⟩) :
    Emits P F bus (bus.ubusdHandleRemoveObject cl ub).1 := by
  rw [ubusdHandleRemoveObject]
  dsimp only
  split
  · exact Emits.silent rfl rfl
  · rename_i objid hasObjid
    split
    · exact Emits.silent rfl rfl
    · rename_i obj found
      split
      · exact Emits.silent rfl rfl
      · rename_i isOwn
        have removes : Removes bus cl ub obj :=
          ⟨⟨objid, hasObjid, found⟩, not_not.mp isOwn⟩
        dsimp only
        generalize attrsOf : blobPutInt32 UbusMsgAttr.objid.id
          (bus.store.objectAt obj).id :: _ = attrs
        have isNamed : Named attrs := by
          rw [← attrsOf]
          split
          · exact Named.object _
          · split
            · exact Named.typed _ _
            · exact Named.object _
        have freed : Notifies
            (fun path => (bus.store.objectAt obj).path = some path)
            (bus.blobBufInit attrs)
            ((bus.blobBufInit attrs).ubusdFreeObject obj) :=
          notifies_ubusdFreeObject (bus.blobBufInit attrs) (fun _ same => same)
            addressed
        refine Emits.trans (Emits.after (freed.emits fun receiver hdr attrs
          isNotice => (notice obj removes hdr attrs isNotice).1 receiver)
            rfl rfl) (Emits.send ?_)
        rcases freed.b with same | ⟨hdr, isNotice⟩
        · rw [same]
          exact named attrs isNamed
        · exact (notice obj removes hdr _ isNotice).2

theorem emits_handleAddObject (linked : Linked none none bus.store)
    (allocated : Allocated bus.store) (unwatched : Unwatched bus.store)
    (nullType : ∀ next obj,
      bus.ubusdCreateObject cl ub.bytes ub.attr = (next, some obj) →
        (ub.attr .signature).isSome →
          (next.store.objectAt obj).type = none → F .nullType)
    (named : ∀ attrs, Named attrs →
      P ⟨cl, ⟨0, UbusMsgType.data.code, ub.hdr.seq, ub.hdr.peer⟩,
        msgFromBlob attrs⟩)
    (notice : ∀ receiver hdr attrs,
      Notice (AsksPath ub.bytes ub.attr) hdr attrs →
        P ⟨receiver, hdr, msgFromBlob attrs⟩) :
    Emits P F bus (bus.ubusdHandleAddObject cl ub).1 := by
  have told := bus.notifies_ubusdCreateObject cl ub.bytes ub.attr linked
    allocated unwatched
  have made : Emits P F bus (bus.ubusdCreateObject cl ub.bytes ub.attr).1 :=
    told.emits notice
  rw [ubusdHandleAddObject]
  split
  · rename_i next created
    rw [created] at made
    exact made
  · rename_i next obj created
    rw [created] at made
    dsimp only
    split
    · exact made.trans (Emits.sendBlob (named _ (Named.object _)))
    · rename_i signed noType
      exact made.trans (Emits.dies (nullType next obj created
        (Option.isSome_iff_exists.mpr ⟨_, signed⟩) noType))
    · exact made.trans (Emits.sendBlob (named _ (Named.typed _ _)))

/-! ## Every message -/

theorem emits_receive
    (status : ∀ ret, P ⟨cl, ⟨0, UbusMsgType.status.code, ub.hdr.seq,
      ub.hdr.peer⟩, statusData ret⟩)
    (handled : ∀ type, UbusMsgType.ofCode? ub.hdr.type = some type →
      Emits P F bus (bus.handle cl ub type).1) :
    Emits P F bus (bus.ubusdProtoReceiveMessage cl ub) := by
  rw [ubusdProtoReceiveMessage]
  cases isType : UbusMsgType.ofCode? ub.hdr.type with
  | none =>
      exact emits_sendStatus _ cl ub _ (status _)
  | some type =>
      have before := handled type isType
      dsimp only
      split
      · exact before
      · exact before.trans (emits_sendStatus _ cl ub _ (status _))

end Bus

end LibubusJni.Ubusd
