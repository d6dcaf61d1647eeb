import LibubusJni.Ubusd.Lifetime

/-!
# What ubusd says of its own accord

When objects are linked, unlinked, made and freed, the owners of other objects
are told.  What they are sent is listed by `Notice`; the functions that send it
do nothing else that a client could see, and none of them follows a null client
as long as every object that is subscribed to has one.
-/

namespace LibubusJni.Ubusd

open LibubusJni.Lib LibubusJni.Libubox

/-! ## Notices -/

/-- What `ubusd_send_obj_event` puts behind the object id. -/
def objEventAttrs (id : UInt32) (path : List UInt8) (add : Bool) :
    List (List UInt8) :=
  [blobPutString UbusMsgAttr.method.id
      (if add then ascii "ubus.object.add" else ascii "ubus.object.remove"),
    blobNest UbusMsgAttr.data.id
      [blobmsgAddField BlobmsgType.int32.id (ascii "id") (be32Bytes id),
        blobmsgAddField BlobmsgType.string.id (ascii "path") (path ++ [0])]]

/-- What ubusd sends of its own accord: headers and attributes.  `paths` are the
paths of the objects that come and go. -/
inductive Notice (paths : List UInt8 → Prop) :
    UbusMsghdr → List (List UInt8) → Prop where
  | subscribed (seq : UInt16) (id : UInt32) (active : UInt8) :
      Notice paths ⟨0, UbusMsgType.notify.code, seq, 0⟩
        [blobPutInt32 UbusMsgAttr.objid.id id,
          blobPutInt8 UbusMsgAttr.active.id active]
  | unsubscribed (seq : UInt16) (id target : UInt32) :
      Notice paths ⟨0, UbusMsgType.unsubscribe.code, seq, 0⟩
        [blobPutInt32 UbusMsgAttr.objid.id id,
          blobPutInt32 UbusMsgAttr.target.id target]
  | object (seq : UInt16) (receiver id : UInt32) (path : List UInt8)
      (add : Bool) (known : paths path) :
      Notice paths ⟨0, UbusMsgType.invoke.code, seq, 0⟩
        (blobPutInt32 UbusMsgAttr.objid.id receiver ::
          objEventAttrs id path add)

/-- Only notices are sent, and the process goes on. -/
structure Notifies (paths : List UInt8 → Prop) (bus next : Bus) : Prop where
  sent : ∃ msgs, next.sent = bus.sent ++ msgs ∧
    ∀ msg ∈ msgs, ∃ attrs, Notice paths msg.hdr attrs ∧
      msg.data = Bus.msgFromBlob attrs
  b : next.b = bus.b ∨ ∃ hdr, Notice paths hdr next.b
  fault : next.fault = bus.fault

namespace Notifies

variable {paths : List UInt8 → Prop} {bus middle next : Bus}

/-- Nothing is sent. -/
theorem silent (sent : next.sent = bus.sent) (b : next.b = bus.b)
    (fault : next.fault = bus.fault) : Notifies paths bus next where
  sent := ⟨[], by rw [sent, List.append_nil], fun _ member =>
    absurd member List.not_mem_nil⟩
  b := Or.inl b
  fault := fault

theorem trans (first : Notifies paths bus middle)
    (second : Notifies paths middle next) : Notifies paths bus next where
  sent := by
    obtain ⟨msgs, sent, all⟩ := first.sent
    obtain ⟨more, moreSent, moreAll⟩ := second.sent
    refine ⟨msgs ++ more, by rw [moreSent, sent, List.append_assoc], ?_⟩
    intro msg member
    rcases List.mem_append.mp member with early | late
    · exact all msg early
    · exact moreAll msg late
  b := by
    rcases second.b with same | notice
    · rw [same]
      exact first.b
    · exact Or.inr notice
  fault := second.fault.trans first.fault

/-- Nothing is sent before. -/
theorem after (later : Notifies paths middle next)
    (sent : middle.sent = bus.sent) (b : middle.b = bus.b)
    (fault : middle.fault = bus.fault) : Notifies paths bus next :=
  (silent sent b fault).trans later

/-- One notice is put into `b` and sent. -/
theorem one {hdr : UbusMsghdr} {cl : Ptr}
    (notice : Notice paths hdr next.b)
    (sent : next.sent = bus.sent ++ [⟨cl, hdr, Bus.msgFromBlob next.b⟩])
    (fault : next.fault = bus.fault) : Notifies paths bus next where
  sent := ⟨_, sent, fun msg member => by
    rw [List.mem_singleton.mp member]
    exact ⟨next.b, notice, rfl⟩⟩
  b := Or.inr ⟨hdr, notice⟩
  fault := fault

end Notifies

/-! ## Who can be sent to -/

/-- Subscriptions and event sources are of objects with a client. -/
structure Addressed (store : ObjStore) : Prop where
  subscription : ∀ obj s,
    s ∈ (store.objectAt obj).subscribers ∨
        s ∈ (store.objectAt obj).targetList →
      (store.objectAt (store.subscriptionAt s).subscriber).client.isSome ∧
        (store.objectAt (store.subscriptionAt s).target).client.isSome
  source : ∀ ev ∈ store.patterns,
    (store.objectAt (store.sourceAt ev).obj).client.isSome

theorem Addressed.unlinkSubscription {store : ObjStore}
    (addressed : Addressed store) (s : Ptr) :
    Addressed (store.unlinkSubscription s) where
  subscription obj other onList :=
    addressed.subscription obj other
      (onList.imp (fun listed => (mem_listDel.mp listed).1)
        fun listed => (mem_listDel.mp listed).1)
  source := addressed.source

theorem Addressed.foldl_unlink {store : ObjStore} (subs : List Ptr)
    (addressed : Addressed store) :
    Addressed (subs.foldl ObjStore.unlinkSubscription store) := by
  induction subs generalizing store with
  | nil =>
      exact addressed
  | cons s rest inductionHypothesis =>
      exact inductionHypothesis (addressed.unlinkSubscription s)

theorem Addressed.ubusdEventCleanupObject {store : ObjStore}
    (addressed : Addressed store) (obj : Ptr) :
    Addressed (store.ubusdEventCleanupObject obj) := by
  rw [ObjStore.ubusdEventCleanupObject, ObjStore.foldl_ubusdDeleteEventSource]
  exact
    { subscription := addressed.subscription
      source := fun ev inTree =>
        addressed.source ev (List.mem_filter.mp inTree).1 }

/-- No object without a client is subscribed to. -/
def Unwatched (store : ObjStore) : Prop :=
  ∀ obj ∈ store.objects, (store.objectAt obj).client = none →
    (store.objectAt obj).subscribers = []

/-- Only objects with a client register for events. -/
theorem Linked.sourceOwned {young held : Option Ptr} {store : ObjStore}
    (linked : Linked young held store) (ev : Ptr) (inTree : ev ∈ store.patterns) :
    (store.objectAt (store.sourceAt ev).obj).client.isSome := by
  refine Option.ne_none_iff_isSome.mp fun none => ?_
  have onList := (linked.sources.listed (store.sourceAt ev).obj ev).mpr
    ⟨inTree, rfl⟩
  rw [(linked.quiet _ (linked.sourceLive ev inTree) none).2] at onList
  exact List.not_mem_nil onList

theorem Linked.addressed {young held : Option Ptr} {store : ObjStore}
    (linked : Linked young held store) (unwatched : Unwatched store) :
    Addressed store where
  subscription obj s onList := by
    have both : s ∈ (store.objectAt
          (store.subscriptionAt s).subscriber).targetList ∧
        s ∈ (store.objectAt (store.subscriptionAt s).target).subscribers ∧
          (store.subscriptionAt s).subscriber ∈ store.objects ∧
            (store.subscriptionAt s).target ∈ store.objects := by
      rcases onList with entering | leaving
      · obtain ⟨own, live, otherLive, back⟩ :=
          linked.subscriptions.atTarget obj s entering
        rw [own]
        exact ⟨back, entering, otherLive, live⟩
      · obtain ⟨own, live, otherLive, back⟩ :=
          linked.subscriptions.atSource obj s leaving
        rw [own]
        exact ⟨leaving, back, live, otherLive⟩
    obtain ⟨leaving, entering, subscriberLive, targetLive⟩ := both
    refine ⟨Option.ne_none_iff_isSome.mp fun none => ?_,
      Option.ne_none_iff_isSome.mp fun none => ?_⟩
    · rw [(linked.quiet _ subscriberLive none).1] at leaving
      exact List.not_mem_nil leaving
    · rw [unwatched _ targetLive none] at entering
      exact List.not_mem_nil entering
  source := linked.sourceOwned

namespace Bus

variable {paths : List UInt8 → Prop} (bus : Bus)

/-! ## The functions that notify -/

theorem notifies_ubusNotifySubscription {obj : Ptr}
    (owned : (bus.store.objectAt obj).client.isSome) :
    Notifies paths bus (bus.ubusNotifySubscription obj) := by
  obtain ⟨cl, own⟩ := Option.isSome_iff_exists.mp owned
  rw [ubusNotifySubscription, own]
  exact Notifies.one (Notice.subscribed _ _ _) rfl rfl

theorem notifies_sendUnsubscribe {s : Ptr}
    (owned : (bus.store.objectAt
      (bus.store.subscriptionAt s).subscriber).client.isSome) :
    Notifies paths bus (bus.sendUnsubscribe s) := by
  obtain ⟨cl, own⟩ := Option.isSome_iff_exists.mp owned
  rw [sendUnsubscribe, own]
  exact Notifies.one (Notice.unsubscribed _ _ _) rfl rfl

theorem notifies_ubusSubscribe {obj target : Ptr}
    (owned : (bus.store.objectAt target).client.isSome) :
    Notifies paths bus (bus.ubusSubscribe obj target) := by
  have stillOwned : ((bus.store.addSubscription obj target).objectAt
      target).client.isSome := by
    simpa [ObjStore.addSubscription] using owned
  rw [ubusSubscribe]
  split
  · exact Notifies.after (notifies_ubusNotifySubscription
      { bus with store := bus.store.addSubscription obj target } stillOwned)
        rfl rfl rfl
  · exact Notifies.silent rfl rfl rfl

theorem notifies_ubusUnsubscribe {s : Ptr}
    (owned : (bus.store.objectAt
      (bus.store.subscriptionAt s).target).client.isSome) :
    Notifies paths bus (bus.ubusUnsubscribe s) := by
  rw [ubusUnsubscribe]
  dsimp only
  split
  · exact Notifies.after (notifies_ubusNotifySubscription
      { bus with store := bus.store.unlinkSubscription s } owned) rfl rfl rfl
  · exact Notifies.silent rfl rfl rfl

theorem notifies_ubusNotifyUnsubscribe {s : Ptr}
    (subscriber : (bus.store.objectAt
      (bus.store.subscriptionAt s).subscriber).client.isSome)
    (target : (bus.store.objectAt
      (bus.store.subscriptionAt s).target).client.isSome) :
    Notifies paths bus (bus.ubusNotifyUnsubscribe s) := by
  refine (bus.notifies_sendUnsubscribe subscriber).trans ?_
  refine notifies_ubusUnsubscribe _ ?_
  rw [store_sendUnsubscribe]
  exact target

/-- The loop of `ubusd_send_event` for an event of ubusd itself. -/
theorem notifies_sendEventFrom {id : List UInt8} {object : UInt32}
    {path : List UInt8} (add : Bool) (known : paths path) (evs : List Ptr)
    (owned : ∀ ev ∈ evs, (bus.store.objectAt
      (bus.store.sourceAt ev).obj).client.isSome) (matchLen : Nat) :
    Notifies paths bus
      (sendEventFrom none id (some (objEventAttrs object path add)) evs
        matchLen bus) := by
  induction evs generalizing bus matchLen with
  | nil =>
      exact Notifies.silent rfl rfl rfl
  | cons ev rest inductionHypothesis =>
      have restOwned := fun other member =>
        owned other (List.mem_cons_of_mem ev member)
      obtain ⟨cl, own⟩ :=
        Option.isSome_iff_exists.mp (owned ev List.mem_cons_self)
      rw [sendEventFrom]
      split
      · exact Notifies.silent rfl rfl rfl
      · split
        · refine Notifies.trans ?_
            (inductionHypothesis _ (by simpa using restOwned) _)
          rw [ubusdSendEventMsg.eq_def, own, if_neg (Option.some_ne_none cl)]
          split
          · exact Notifies.silent rfl rfl rfl
          · dsimp only
            rw [own]
            exact Notifies.one (Notice.object _ _ _ path add known) rfl rfl
        · exact inductionHypothesis _ restOwned _

theorem notifies_ubusdSendObjEvent {obj : Ptr} (add : Bool)
    (known : paths ((bus.store.objectAt obj).path.getD []))
    (addressed : Addressed bus.store) :
    Notifies paths bus (bus.ubusdSendObjEvent obj add) := by
  exact Notifies.after (notifies_sendEventFrom
    { bus with objEventSeq := bus.objEventSeq + 1 } add known _
    addressed.source 0) rfl rfl rfl

/-- A loop that unlinks subscriptions. -/
theorem notifies_foldl {body : Bus → Ptr → Bus}
    (one : ∀ bus s,
      (bus.store.objectAt
        (bus.store.subscriptionAt s).subscriber).client.isSome →
      (bus.store.objectAt (bus.store.subscriptionAt s).target).client.isSome →
        Notifies paths bus (body bus s))
    (store : ∀ bus s,
      (body bus s).store = bus.store.unlinkSubscription s)
    (subs : List Ptr) (addressed : Addressed bus.store)
    (owned : ∀ s ∈ subs,
      (bus.store.objectAt
        (bus.store.subscriptionAt s).subscriber).client.isSome ∧
      (bus.store.objectAt (bus.store.subscriptionAt s).target).client.isSome) :
    Notifies paths bus (subs.foldl body bus) := by
  induction subs generalizing bus with
  | nil =>
      exact Notifies.silent rfl rfl rfl
  | cons s rest inductionHypothesis =>
      obtain ⟨subscriber, target⟩ := owned s List.mem_cons_self
      refine (one bus s subscriber target).trans ?_
      refine inductionHypothesis _ ?_ ?_
      · rw [store]
        exact addressed.unlinkSubscription s
      · rw [store]
        exact fun other member => owned other (List.mem_cons_of_mem s member)

/-- The two loops of `ubusd_free_object`. -/
theorem notifies_dropSubscribers {obj : Ptr} (addressed : Addressed bus.store) :
    Notifies paths bus ((bus.dropTargets obj).dropSubscribers obj) := by
  have targets : Notifies paths bus (bus.dropTargets obj) :=
    notifies_foldl bus
      (fun bus s _ target => bus.notifies_ubusUnsubscribe target)
      store_ubusUnsubscribe _ addressed
      fun s onList => addressed.subscription obj s (Or.inr onList)
  have stillAddressed : Addressed (bus.dropTargets obj).store := by
    rw [store_dropTargets]
    exact addressed.foldl_unlink _
  have subscribers : Notifies paths (bus.dropTargets obj)
      ((bus.dropTargets obj).dropSubscribers obj) :=
    notifies_foldl _
      (fun bus s subscriber target =>
        bus.notifies_ubusNotifyUnsubscribe subscriber target)
      store_ubusNotifyUnsubscribe _ stillAddressed
      fun s onList => stillAddressed.subscription obj s (Or.inl onList)
  exact targets.trans subscribers

theorem addressed_dropLinks {obj : Ptr} {store : ObjStore}
    (addressed : Addressed store) : Addressed (store.dropLinks obj) :=
  ((addressed.foldl_unlink _).foldl_unlink _).ubusdEventCleanupObject obj

/-- `ubusd_free_object` tells the others, and then its object is gone. -/
theorem notifies_ubusdFreeObject {obj : Ptr}
    (known : ∀ path, (bus.store.objectAt obj).path = some path → paths path)
    (addressed : Addressed bus.store) :
    Notifies paths bus (bus.ubusdFreeObject obj) := by
  have lists : Notifies paths bus ((bus.dropTargets obj).dropSubscribers obj) :=
    bus.notifies_dropSubscribers addressed
  have path : Notifies paths ((bus.dropTargets obj).dropSubscribers obj)
      (((bus.dropTargets obj).dropSubscribers obj).dropPath obj) := by
    have samePath : ((bus.store.dropLinks obj).objectAt obj).path =
        (bus.store.objectAt obj).path := by rw [dropLinks_eq]
    rw [dropPath, store_dropSubscribers]
    dsimp only
    split
    · rename_i hasPath
      refine Notifies.trans (Notifies.after (notifies_ubusdSendObjEvent
          { (bus.dropTargets obj).dropSubscribers obj with
            store := bus.store.dropLinks obj } false ?_ ?_) rfl rfl rfl)
          (Notifies.silent rfl rfl rfl)
      · obtain ⟨path, isPath⟩ := Option.isSome_iff_exists.mp hasPath
        have here : ((bus.store.dropLinks obj).objectAt obj).path =
            some path := isPath
        rw [here]
        exact known path (samePath.symm.trans here)
      · exact addressed_dropLinks addressed
    · exact Notifies.silent rfl rfl rfl
  rw [ubusdFreeObject]
  refine (lists.trans path).trans ?_
  rw [unrefType.eq_def]
  split
  · exact Notifies.silent rfl rfl rfl
  · exact Notifies.silent rfl rfl rfl

theorem notifies_newObjectType (bytes : List UInt8) (attr : AttrTable) :
    Notifies paths bus (bus.newObjectType bytes attr).1 := by
  rw [newObjectType]
  split
  · rw [ubusGetObjType]
    split
    · exact Notifies.silent rfl rfl rfl
    · exact Notifies.silent rfl rfl rfl
  · rw [ubusCreateObjType]
    split
    · exact Notifies.silent rfl rfl rfl
    · exact Notifies.silent rfl rfl rfl
  · exact Notifies.silent rfl rfl rfl

theorem notifies_create (type : Option Ptr) :
    Notifies paths bus
      ((bus.ubusdCreateObjectInternal type).1.unrefType type) := by
  have created : Notifies paths bus (bus.ubusdCreateObjectInternal type).1 := by
    rw [ubusdCreateObjectInternal]
    split
    · exact Notifies.silent rfl rfl rfl
    · exact Notifies.silent rfl rfl rfl
  refine created.trans ?_
  cases type with
  | none =>
      exact Notifies.silent rfl rfl rfl
  | some type =>
      exact Notifies.silent rfl rfl rfl

end Bus

theorem YoungObject.unwatched {store made : ObjStore} {obj : Ptr}
    (facts : YoungObject store made obj) (unwatched : Unwatched store) :
    Unwatched made := by
  intro other live free
  by_cases isNew : other = obj
  · rw [isNew]
    exact facts.blank.2.2.1
  · rw [facts.others other isNew] at free ⊢
    exact unwatched other
      (((facts.objects other).mp live).resolve_left isNew) free

namespace Bus

variable {paths : List UInt8 → Prop} (bus : Bus)

/-- The path that a message asks for. -/
def AsksPath (bytes : List UInt8) (attr : AttrTable) (path : List UInt8) :
    Prop :=
  ∃ objpath, attr .objpath = some objpath ∧ path = cString bytes (objpath + 4)

/-- A new object with a path is announced. -/
theorem notifies_registerPath {store : ObjStore} {obj : Ptr} {placed : Bus}
    (bytes : List UInt8) (attr : AttrTable)
    (facts : YoungObject store bus.store obj) (unwatched : Unwatched store)
    (registered : bus.registerPath bytes attr obj = some placed) :
    Notifies (AsksPath bytes attr) bus placed := by
  rw [registerPath] at registered
  split at registered
  · rw [Option.some.inj registered]
    exact Notifies.silent rfl rfl rfl
  · rename_i objpath asks
    split at registered
    · exact absurd registered (Option.some_ne_none placed).symm
    · rename_i next inserted
      rw [← Option.some.inj registered]
      have linked := facts.linked.insertPath facts.live facts.blank.1 inserted
      obtain ⟨tree, same, _⟩ := insertPath_some inserted
      have nextUnwatched : Unwatched next := by
        rw [same]
        simpa [Unwatched, ObjStore.addPath] using facts.unwatched unwatched
      refine Notifies.after (notifies_ubusdSendObjEvent
        { bus with store := next } true ?_ (linked.addressed nextUnwatched))
          rfl rfl rfl
      refine ⟨objpath, asks, ?_⟩
      rw [same]
      simp [ObjStore.addPath, ObjStore.objectAt_modifyObject]

/-- `ubusd_create_object` tells those who wait for new objects. -/
theorem notifies_ubusdCreateObject (cl : Ptr) (bytes : List UInt8)
    (attr : AttrTable) (linked : Linked none none bus.store)
    (allocated : Allocated bus.store) (unwatched : Unwatched bus.store) :
    Notifies (AsksPath bytes attr) bus
      (bus.ubusdCreateObject cl bytes attr).1 := by
  have made : Notifies (AsksPath bytes attr) bus _ :=
    (bus.notifies_newObjectType bytes attr).trans
      (notifies_create _ (bus.newObjectType bytes attr).2)
  have newType := bus.newObjectType_newType bytes attr
  rw [ubusdCreateObject]
  split
  · exact made
  · rename_i obj created
    have facts := (create_young _ newType created).youngObject linked allocated
    split
    · refine made.trans (notifies_ubusdFreeObject _ ?_
        (facts.linked.addressed (facts.unwatched unwatched)))
      intro path isPath
      rw [facts.blank.1] at isPath
      exact absurd isPath (Option.some_ne_none path).symm
    · rename_i placed registered
      have told := notifies_registerPath _ bytes attr facts unwatched registered
      exact (made.trans told).trans (Notifies.silent rfl rfl rfl)

end Bus

/-! ## Disconnecting -/

theorem Unwatched.freeObject {store : ObjStore} (unwatched : Unwatched store)
    (obj : Ptr) : Unwatched (store.freeObject obj) := by
  intro other live free
  rw [client_freeObject] at free
  have wasLive : other ∈ store.objects := by
    rw [freeObject_eq] at live
    exact (mem_avlDelete.mp live).1
  rw [freeObject_eq, dropLinks_eq]
  dsimp only
  rw [unwatched other wasLive free]
  rfl

theorem path_freeObject (store : ObjStore) (obj ptr : Ptr) :
    ((store.freeObject obj).objectAt ptr).path =
      (store.objectAt ptr).path := by
  rw [freeObject_eq, dropLinks_eq]

namespace Bus

variable {paths : List UInt8 → Prop} (bus : Bus)

/-- Objects of a client are freed one after the other. -/
theorem notifies_freeObjects (objs : List Ptr) (once : objs.Nodup)
    (linked : Linked none none bus.store) (allocated : Allocated bus.store)
    (unwatched : Unwatched bus.store)
    (all : ∀ obj ∈ objs, obj ∈ bus.store.objects ∧ obj ≠ bus.store.eventObj)
    (known : ∀ obj ∈ objs, ∀ path,
      (bus.store.objectAt obj).path = some path → paths path) :
    Notifies paths bus (objs.foldl ubusdFreeObject bus) := by
  induction objs generalizing bus with
  | nil =>
      exact Notifies.silent rfl rfl rfl
  | cons obj rest inductionHypothesis =>
      obtain ⟨notInRest, restOnce⟩ := List.nodup_cons.mp once
      obtain ⟨live, notEvent⟩ := all obj List.mem_cons_self
      have objects : (bus.store.freeObject obj).objects =
          avlDelete obj bus.store.objects := by rw [freeObject_eq]
      have eventObj : (bus.store.freeObject obj).eventObj =
          bus.store.eventObj := by rw [freeObject_eq, dropLinks_eq]
      refine (bus.notifies_ubusdFreeObject (known obj List.mem_cons_self)
        (linked.addressed unwatched)).trans ?_
      have store := bus.store_ubusdFreeObject obj
      refine inductionHypothesis _ restOnce ?_ ?_ ?_ ?_ ?_
      · rw [store]
        exact linked.freeObject live notEvent (Or.inl rfl)
      · rw [store]
        exact allocated.freeObject obj
      · rw [store]
        exact unwatched.freeObject obj
      · intro other member
        obtain ⟨otherLive, otherNotEvent⟩ :=
          all other (List.mem_cons_of_mem obj member)
        rw [store, objects, eventObj]
        exact ⟨mem_avlDelete.mpr ⟨otherLive,
          fun same => notInRest (same ▸ member)⟩, otherNotEvent⟩
      · intro other member
        rw [store, path_freeObject]
        exact known other (List.mem_cons_of_mem obj member)

/-- The paths of the objects of a client. -/
def OwnPath (cl : Ptr) (path : List UInt8) : Prop :=
  ∃ obj ∈ (bus.store.clientAt cl).objects,
    (bus.store.objectAt obj).path = some path

theorem notifies_ubusdProtoFreeClient (cl : Ptr)
    (linked : Linked none none bus.store) (allocated : Allocated bus.store)
    (unwatched : Unwatched bus.store) :
    Notifies (bus.OwnPath cl) bus (bus.ubusdProtoFreeClient cl) := by
  refine Notifies.trans (notifies_freeObjects bus _ (linked.owners.once cl)
    linked allocated unwatched ?_ ?_) (Notifies.silent rfl rfl rfl)
  · intro obj onList
    obtain ⟨live, own⟩ := (linked.owners.listed cl obj).mp onList
    exact ⟨live, linked.ne_eventObj live own⟩
  · exact fun obj onList path isPath => ⟨obj, onList, isPath⟩

end Bus

end LibubusJni.Ubusd
