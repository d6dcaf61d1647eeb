import LibubusJni.Lib.Alternation
import LibubusJni.Subscribers.Flags
import LibubusJni.Ubusd.Outbox
import LibubusJni.Ubusd.Subscriptions

/-!
# What ubusd says about subscriptions

Whatever ubusd does between two states, the flags that it sends to the owner of
an object lead from whether the object was subscribed to before to whether it is
subscribed to after, and every subscription of an object that goes is told to
its subscriber.
-/

namespace LibubusJni.Subscribers

open LibubusJni.Lib (Alternates Machine)
open LibubusJni.Libubox LibubusJni.Ubusd

/-- The object of this client with this identifier has a subscription. -/
def isActive (store : ObjStore) (owner : Ptr) (id : UInt32) : Bool :=
  store.objects.any fun obj =>
    (store.objectAt obj).client == some owner &&
      (store.objectAt obj).id == id &&
        !(store.objectAt obj).subscribers.isEmpty

/-- What a message says to this client about the object with this identifier. -/
def activeFlag (owner : Ptr) (id : UInt32) (msg : BusMsg) : Option Bool :=
  if msg.client = owner then notifyFlag id (wire msg) else none

/-- The UNSUBSCRIBE messages among these: who gets them and what they hold. -/
def unsubscribes (msgs : List BusMsg) : List (Option Ptr × List UInt8) :=
  (msgs.filter fun msg => msg.hdr.type == UbusMsgType.unsubscribe.code).map
    fun msg => (some msg.client, msg.data)

/-- The UNSUBSCRIBE message of a subscription: it goes to the client of the
subscriber and names the subscriber and the target. -/
def unsubscribeOf (store : ObjStore) (s : Ptr) : Option Ptr × List UInt8 :=
  let subscription := store.subscriptionAt s
  let subscriber := store.objectAt subscription.subscriber
  (subscriber.client,
    Bus.msgFromBlob
      [blobPutInt32 UbusMsgAttr.objid.id subscriber.id,
        blobPutInt32 UbusMsgAttr.target.id
          (store.objectAt subscription.target).id])

variable {owner : Ptr} {id : UInt32} {store next : ObjStore}

/-- Only NOTIFY messages carry flags. -/
theorem activeFlag_of_other {msg : BusMsg}
    (other : msg.hdr.type ≠ UbusMsgType.notify.code) :
    activeFlag owner id msg = none := by
  have noFlag : notifyFlag id (wire msg) = none :=
    if_neg fun isNotify => other (Option.some.inj isNotify.1)
  rw [activeFlag, noFlag, ite_self]

/-! ## Whether an object is subscribed to -/

/-- Of the objects of a client one has the identifier. -/
theorem isActive_eq
    (ids : ∀ obj ∈ store.objects, ∀ other ∈ store.objects,
      (store.objectAt obj).id = (store.objectAt other).id → obj = other)
    {obj : Ptr} (live : obj ∈ store.objects)
    (own : (store.objectAt obj).client = some owner)
    (isId : (store.objectAt obj).id = id) :
    isActive store owner id =
      !(store.objectAt obj).subscribers.isEmpty := by
  rw [isActive, Bool.eq_iff_iff, List.any_eq_true]
  constructor
  · rintro ⟨other, otherLive, isOwn⟩
    simp only [Bool.and_eq_true, beq_iff_eq] at isOwn
    obtain ⟨⟨_, otherId⟩, subscribed⟩ := isOwn
    rw [ids obj live other otherLive (isId.trans otherId.symm)]
    exact subscribed
  · intro subscribed
    refine ⟨obj, live, ?_⟩
    simp only [Bool.and_eq_true, beq_iff_eq]
    exact ⟨⟨own, isId⟩, subscribed⟩

/-- Only the objects with subscriptions matter. -/
theorem isActive_congr
    (same : ∀ obj, (store.objectAt obj).client = some owner →
      (store.objectAt obj).id = id → obj ∈ store.objects →
        (store.objectAt obj).subscribers ≠ [] →
          obj ∈ next.objects ∧ (next.objectAt obj).client = some owner ∧
            (next.objectAt obj).id = id ∧
              (next.objectAt obj).subscribers ≠ [])
    (back : ∀ obj, (next.objectAt obj).client = some owner →
      (next.objectAt obj).id = id → obj ∈ next.objects →
        (next.objectAt obj).subscribers ≠ [] →
          obj ∈ store.objects ∧ (store.objectAt obj).client = some owner ∧
            (store.objectAt obj).id = id ∧
              (store.objectAt obj).subscribers ≠ []) :
    isActive next owner id = isActive store owner id := by
  have reads : ∀ store : ObjStore, isActive store owner id = true ↔
      ∃ obj, (store.objectAt obj).client = some owner ∧
        (store.objectAt obj).id = id ∧ obj ∈ store.objects ∧
          (store.objectAt obj).subscribers ≠ [] := by
    intro store
    rw [isActive, List.any_eq_true]
    simp only [Bool.and_eq_true, beq_iff_eq, Bool.not_eq_true',
      List.isEmpty_eq_false_iff]
    constructor
    · rintro ⟨obj, live, ⟨own, isId⟩, subscribed⟩
      exact ⟨obj, own, isId, live, subscribed⟩
    · rintro ⟨obj, own, isId, live, subscribed⟩
      exact ⟨obj, live, ⟨own, isId⟩, subscribed⟩
  rw [Bool.eq_iff_iff, reads, reads]
  constructor
  · rintro ⟨obj, own, isId, live, subscribed⟩
    obtain ⟨nextLive, nextOwn, nextId, nextSubscribed⟩ :=
      back obj own isId live subscribed
    exact ⟨obj, nextOwn, nextId, nextLive, nextSubscribed⟩
  · rintro ⟨obj, own, isId, live, subscribed⟩
    obtain ⟨nextLive, nextOwn, nextId, nextSubscribed⟩ :=
      same obj own isId live subscribed
    exact ⟨obj, nextOwn, nextId, nextLive, nextSubscribed⟩

/-! ## What is said between two states -/

/-- The flags sent to the owner lead from one state to the other, and these are
the UNSUBSCRIBE messages. -/
structure Tells (owner : Ptr) (id : UInt32)
    (told : List (Option Ptr × List UInt8)) (bus next : Bus) : Prop where
  sent : ∃ msgs, next.sent = bus.sent ++ msgs ∧
    Alternates (isActive bus.store owner id)
        (msgs.filterMap (activeFlag owner id))
        (isActive next.store owner id) ∧
      unsubscribes msgs = told

/-- Neither NOTIFY nor UNSUBSCRIBE. -/
def Quiet (msg : BusMsg) : Prop :=
  msg.hdr.type ≠ UbusMsgType.notify.code ∧
    msg.hdr.type ≠ UbusMsgType.unsubscribe.code

theorem quiet_code {type : UbusMsgType}
    (other : type ≠ .notify ∧ type ≠ .unsubscribe) :
    type.code ≠ UbusMsgType.notify.code ∧
      type.code ≠ UbusMsgType.unsubscribe.code := by
  obtain ⟨notNotify, notUnsubscribe⟩ := other
  cases type with
  | notify =>
      exact absurd rfl notNotify
  | unsubscribe =>
      exact absurd rfl notUnsubscribe
  | _ =>
      decide

/-- All that is sent between two states is of other types. -/
abbrev QuietTo (bus next : Bus) : Prop := Emits Quiet (fun _ => True) bus next

namespace Tells

variable {bus middle next : Bus} {told more : List (Option Ptr × List UInt8)}

theorem trans (first : Tells owner id told bus middle)
    (second : Tells owner id more middle next) :
    Tells owner id (told ++ more) bus next := by
  obtain ⟨msgs, sent, flags, isTold⟩ := first.sent
  obtain ⟨others, othersSent, otherFlags, isMore⟩ := second.sent
  refine ⟨msgs ++ others, ?_, ?_, ?_⟩
  · rw [othersSent, sent, List.append_assoc]
  · rw [List.filterMap_append]
    exact flags.append otherFlags
  · rw [unsubscribes, List.filter_append, List.map_append, ← isTold, ← isMore]
    rfl

/-- Other messages are sent, or none. -/
theorem quiet (emits : QuietTo bus next)
    (same : isActive next.store owner id = isActive bus.store owner id) :
    Tells owner id [] bus next := by
  obtain ⟨msgs, sent, all⟩ := emits.sent
  refine ⟨msgs, sent, ?_, ?_⟩
  · have none : msgs.filterMap (activeFlag owner id) = [] := by
      refine List.filterMap_eq_nil_iff.mpr fun msg member => ?_
      exact activeFlag_of_other (all msg member).1
    rw [none]
    exact Alternates.none same.symm
  · have none : (msgs.filter fun msg =>
        msg.hdr.type == UbusMsgType.unsubscribe.code) = [] := by
      refine List.filter_eq_nil_iff.mpr fun msg member isUnsubscribe => ?_
      exact (all msg member).2 (beq_iff_eq.mp isUnsubscribe)
    rw [unsubscribes, none, List.map_nil]

/-- Nothing is sent. -/
theorem silent (sent : next.sent = bus.sent)
    (same : isActive next.store owner id = isActive bus.store owner id) :
    Tells owner id [] bus next :=
  ⟨[], by rw [sent, List.append_nil], Alternates.none same.symm, rfl⟩

/-- Nothing is sent before. -/
theorem after (later : Tells owner id told middle next)
    (sent : middle.sent = bus.sent) (store : middle.store = bus.store) :
    Tells owner id told bus next := by
  have first : Tells owner id [] bus middle :=
    silent sent (by rw [store])
  exact first.trans later

end Tells

/-! ## Subscriptions -/

section Turns

variable {young held : Option Ptr} {bus : Bus}

/-- What `ubus_notify_subscription` sends. -/
theorem tells_ubusNotifySubscription {obj cl : Ptr}
    (own : (bus.store.objectAt obj).client = some cl) :
    ∃ msg, (bus.ubusNotifySubscription obj).sent = bus.sent ++ [msg] ∧
      activeFlag owner id msg =
        (if cl = owner ∧ (bus.store.objectAt obj).id = id then
          some !(bus.store.objectAt obj).subscribers.isEmpty
        else none) ∧
      unsubscribes [msg] = [] := by
  rw [Bus.ubusNotifySubscription, own]
  refine ⟨_, rfl, ?_, rfl⟩
  rw [activeFlag]
  dsimp only
  rw [Bus.blobBufInit]
  dsimp only
  rw [notifyFlag_wire]
  have flag : ∀ empty : Bool,
      decide ((if empty then (0 : UInt8) else 1) ≠ 0) = !empty := by
    decide
  rw [flag]
  by_cases isOwner : cl = owner
  · rw [if_pos isOwner]
    simp only [isOwner, true_and]
  · rw [if_neg isOwner, if_neg fun both => isOwner both.1]

/-- The subscriptions of one object change, and its owner is told if it got its
first one or lost its last one. -/
structure Changes (target : Ptr) (store next : ObjStore) : Prop where
  objects : next.objects = store.objects
  client : ∀ obj, (next.objectAt obj).client = (store.objectAt obj).client
  id : ∀ obj, (next.objectAt obj).id = (store.objectAt obj).id
  others : ∀ obj ∈ store.objects, obj ≠ target →
    (next.objectAt obj).subscribers = (store.objectAt obj).subscribers

theorem Changes.isActive_eq {target : Ptr} (changes : Changes target store next)
    (other : ¬ ((store.objectAt target).client = some owner ∧
      (store.objectAt target).id = id)) :
    isActive next owner id = isActive store owner id := by
  refine isActive_congr ?_ ?_
  · intro obj own isId live subscribed
    rw [changes.objects, changes.client, changes.id, changes.others obj live]
    · exact ⟨live, own, isId, subscribed⟩
    · exact fun isTarget => other (isTarget ▸ ⟨own, isId⟩)
  · intro obj own isId live subscribed
    rw [changes.client] at own
    rw [changes.id] at isId
    rw [changes.objects] at live
    rw [changes.others obj live
      fun isTarget => other (isTarget ▸ ⟨own, isId⟩)] at subscribed
    exact ⟨live, own, isId, subscribed⟩

theorem tells_change (linked : Linked young held bus.store)
    {changed : ObjStore} {target : Ptr} (live : target ∈ bus.store.objects)
    (changes : Changes target bus.store changed) {turns : Bool}
    (isTurn : turns = true ↔ (changed.objectAt target).subscribers.isEmpty ≠
      (bus.store.objectAt target).subscribers.isEmpty) :
    Tells owner id [] bus
      (if turns then
        { bus with store := changed }.ubusNotifySubscription target
      else { bus with store := changed }) := by
  by_cases isOwn : (bus.store.objectAt target).client = some owner ∧
    (bus.store.objectAt target).id = id
  · obtain ⟨own, isId⟩ := isOwn
    have before := Subscribers.isActive_eq linked.objectIds live own isId
    have ids : ∀ obj ∈ changed.objects, ∀ other ∈ changed.objects,
        (changed.objectAt obj).id = (changed.objectAt other).id →
          obj = other := by
      intro obj objLive other otherLive same
      rw [changes.objects] at objLive otherLive
      rw [changes.id, changes.id] at same
      exact linked.objectIds obj objLive other otherLive same
    have afterwards := Subscribers.isActive_eq ids
      (changes.objects.symm ▸ live) ((changes.client target).trans own)
      ((changes.id target).trans isId)
    split
    · rename_i differs
      obtain ⟨msg, sent, flag, none⟩ := @tells_ubusNotifySubscription owner id
        { bus with store := changed } target owner
          ((changes.client target).trans own)
      refine ⟨[msg], sent, ?_, none⟩
      have isFlag : activeFlag owner id msg =
          some (isActive changed owner id) := by
        rw [flag, if_pos ⟨rfl, (changes.id target).trans isId⟩, afterwards]
      rw [List.filterMap_cons, isFlag, Bus.store_ubusNotifySubscription, before]
      refine Alternates.one ?_
      rw [afterwards]
      exact fun same => isTurn.mp differs (Bool.not_inj same)
    · rename_i stays
      refine Tells.silent rfl ?_
      rw [before]
      refine afterwards.trans (congrArg (! ·) ?_)
      by_contra differs
      exact stays (isTurn.mpr differs)
  · have same := changes.isActive_eq isOwn
    split
    · cases own : (bus.store.objectAt target).client with
      | none =>
          refine Tells.silent ?_ ?_
          · rw [Bus.ubusNotifySubscription]
            dsimp only
            rw [changes.client, own]
            rfl
          · rw [Bus.store_ubusNotifySubscription]
            exact same
      | some cl =>
          obtain ⟨msg, sent, flag, none⟩ := @tells_ubusNotifySubscription owner
            id { bus with store := changed } target cl
              ((changes.client target).trans own)
          refine ⟨[msg], sent, ?_, none⟩
          have noFlag : activeFlag owner id msg = Option.none := by
            rw [flag, if_neg]
            rintro ⟨isOwner, isId⟩
            refine isOwn ⟨?_, (changes.id target).symm.trans isId⟩
            rw [own, isOwner]
          rw [List.filterMap_cons, noFlag, Bus.store_ubusNotifySubscription]
          exact Alternates.none same.symm
    · exact Tells.silent rfl same

/-- A change of one object's list. -/
theorem changes_unlinkSubscription (linked : Linked young held store)
    {s target : Ptr} (onList : s ∈ (store.objectAt target).subscribers) :
    Changes target store (store.unlinkSubscription s) where
  objects := rfl
  client _ := rfl
  id _ := rfl
  others obj _ notTarget := by
    refine List.filter_eq_self.mpr fun other member => ?_
    refine decide_eq_true fun isLink => notTarget ?_
    obtain ⟨own, _⟩ := linked.subscriptions.atTarget target s onList
    obtain ⟨otherOwn, _⟩ := linked.subscriptions.atTarget obj other member
    rw [isLink] at otherOwn
    exact otherOwn.symm.trans own

theorem changes_addSubscription (obj target : Ptr) :
    Changes target store (store.addSubscription obj target) where
  objects := rfl
  client ptr := by
    simp [ObjStore.addSubscription]
  id ptr := by
    simp [ObjStore.addSubscription]
  others ptr _ notTarget := by
    rw [congrFun (subscriberLists_addSubscription obj target) ptr,
      Function.update_of_ne notTarget]

theorem tells_ubusUnsubscribe (linked : Linked young held bus.store)
    {s target : Ptr} (onList : s ∈ (bus.store.objectAt target).subscribers) :
    Tells owner id [] bus (bus.ubusUnsubscribe s) := by
  obtain ⟨own, live, _⟩ := linked.subscriptions.atTarget target s onList
  have filled : (bus.store.objectAt target).subscribers.isEmpty = false :=
    List.isEmpty_eq_false_iff.mpr (List.ne_nil_of_mem onList)
  rw [Bus.ubusUnsubscribe]
  dsimp only
  rw [own]
  refine tells_change linked live (changes_unlinkSubscription linked onList) ?_
  rw [filled]
  exact Bool.ne_false_iff.symm

theorem tells_ubusSubscribe (linked : Linked young held bus.store)
    {obj target : Ptr} (live : target ∈ bus.store.objects) :
    Tells owner id [] bus (bus.ubusSubscribe obj target) := by
  have filled : ((bus.store.addSubscription obj target).objectAt
      target).subscribers.isEmpty = false := by
    rw [congrFun (subscriberLists_addSubscription obj target) target,
      Function.update_self]
    rfl
  rw [Bus.ubusSubscribe]
  refine tells_change linked live (changes_addSubscription obj target) ?_
  rw [filled]
  exact Bool.ne_false_iff.symm.trans ne_comm

/-- The subscriber is told. -/
theorem tells_sendUnsubscribe {s : Ptr}
    (owned : (bus.store.objectAt
      (bus.store.subscriptionAt s).subscriber).client.isSome) :
    Tells owner id [unsubscribeOf bus.store s] bus (bus.sendUnsubscribe s) := by
  obtain ⟨cl, own⟩ := Option.isSome_iff_exists.mp owned
  have sent : ∃ seq, (bus.sendUnsubscribe s).sent = bus.sent ++
      [⟨cl, ⟨0, UbusMsgType.unsubscribe.code, seq, 0⟩,
        (unsubscribeOf bus.store s).2⟩] := by
    rw [Bus.sendUnsubscribe, own]
    exact ⟨_, rfl⟩
  obtain ⟨seq, isSent⟩ := sent
  have toSubscriber : (unsubscribeOf bus.store s).1 = some cl := own
  refine ⟨_, isSent, ?_, ?_⟩
  · have other : UbusMsgType.unsubscribe.code ≠ UbusMsgType.notify.code := by
      decide
    rw [List.filterMap_cons, activeFlag_of_other other,
      Bus.store_sendUnsubscribe]
    exact Alternates.none rfl
  · show [(some cl, _)] = _
    rw [← toSubscriber]

theorem tells_ubusNotifyUnsubscribe (linked : Linked young held bus.store)
    (addressed : Addressed bus.store) {s target : Ptr}
    (onList : s ∈ (bus.store.objectAt target).subscribers) :
    Tells owner id [unsubscribeOf bus.store s] bus
      (bus.ubusNotifyUnsubscribe s) := by
  have sent := (addressed.subscription target s (Or.inl onList)).1
  have store := bus.store_sendUnsubscribe s
  have listed : s ∈ ((bus.sendUnsubscribe s).store.objectAt
      target).subscribers := by
    rw [store]
    exact onList
  have unlinked : Tells owner id [] (bus.sendUnsubscribe s) _ :=
    tells_ubusUnsubscribe (store.symm ▸ linked) listed
  exact (tells_sendUnsubscribe sent).trans unlinked

/-! ## The loops of `ubusd_free_object` -/

/-- A loop that takes subscriptions off their lists. -/
theorem tells_foldl {body : Bus → Ptr → Bus}
    {told : ObjStore → Ptr → List (Option Ptr × List UInt8)}
    (one : ∀ (bus : Bus) (s target : Ptr), Linked young held bus.store →
      Addressed bus.store → s ∈ (bus.store.objectAt target).subscribers →
        Tells owner id (told bus.store s) bus (body bus s))
    (store : ∀ bus s, (body bus s).store = bus.store.unlinkSubscription s)
    (kept : ∀ store s, told (ObjStore.unlinkSubscription store s) = told store)
    (linked : Linked young held bus.store) (addressed : Addressed bus.store)
    (subs : List Ptr) (once : subs.Nodup)
    (listed : ∀ s ∈ subs, ∃ target,
      s ∈ (bus.store.objectAt target).subscribers) :
    Tells owner id (subs.flatMap (told bus.store)) bus
      (subs.foldl body bus) := by
  induction subs generalizing bus with
  | nil =>
      exact Tells.silent rfl rfl
  | cons s rest inductionHypothesis =>
      obtain ⟨notInRest, restOnce⟩ := List.nodup_cons.mp once
      obtain ⟨target, onList⟩ := listed s List.mem_cons_self
      have next := store bus s
      have later : Tells owner id _ (body bus s) (rest.foldl body (body bus s)) :=
        inductionHypothesis (next.symm ▸ linked.unlinkSubscription s)
          (next.symm ▸ addressed.unlinkSubscription s) restOnce ?_
      · rw [next, kept] at later
        exact (one bus s target linked addressed onList).trans later
      · -- the others stay on their lists
        intro other member
        obtain ⟨otherTarget, otherOnList⟩ :=
          listed other (List.mem_cons_of_mem s member)
        refine ⟨otherTarget, ?_⟩
        rw [next]
        exact mem_listDel.mpr
          ⟨otherOnList, fun isFirst => notInRest (isFirst ▸ member)⟩

theorem tells_dropTargets (linked : Linked young held bus.store)
    (addressed : Addressed bus.store) (subs : SubsInv bus.store) (obj : Ptr) :
    Tells owner id [] bus (bus.dropTargets obj) := by
  have told := @tells_foldl owner id young held bus Bus.ubusUnsubscribe
    (fun _ _ => []) (fun bus s target linked _ onList =>
      tells_ubusUnsubscribe linked onList) Bus.store_ubusUnsubscribe
    (fun _ _ => rfl) linked addressed (bus.store.objectAt obj).targetList
    (subs.targetList obj) fun s onList =>
      ⟨_, (linked.subscriptions.atSource obj s onList).2.2.2⟩
  rw [List.flatMap_eq_nil_iff.mpr fun _ _ => rfl] at told
  exact told

theorem tells_dropSubscribers (linked : Linked young held bus.store)
    (addressed : Addressed bus.store) (subs : SubsInv bus.store) (obj : Ptr) :
    Tells owner id
      ((bus.store.objectAt obj).subscribers.map (unsubscribeOf bus.store)) bus
      (bus.dropSubscribers obj) := by
  have told := @tells_foldl owner id young held bus Bus.ubusNotifyUnsubscribe
    (fun store s => [unsubscribeOf store s])
    (fun bus s target linked addressed onList =>
      tells_ubusNotifyUnsubscribe linked addressed onList)
    Bus.store_ubusNotifyUnsubscribe (fun _ _ => rfl) linked addressed
    (bus.store.objectAt obj).subscribers (subs.subscribers obj)
    fun s onList => ⟨obj, onList⟩
  rw [← List.map_eq_flatMap] at told
  exact told

end Turns

/-! ## Events -/

section Events

variable {bus : Bus}

/-- An event is an INVOKE. -/
theorem quiet_ubusdSendEventMsg (cl : Option Ptr) (obj : Ptr)
    (attrs : Option (List (List UInt8))) :
    QuietTo bus (bus.ubusdSendEventMsg cl obj attrs) := by
  have quiet := @quiet_code .invoke (by decide)
  rw [Bus.ubusdSendEventMsg.eq_def]
  split
  · exact Emits.silent rfl rfl
  · split
    · exact Emits.silent rfl rfl
    · dsimp only
      split
      · exact Emits.dies trivial
      · cases own : (bus.store.objectAt obj).client with
        | none =>
            exact Emits.after (Emits.dies trivial) rfl rfl
        | some receiver =>
            exact Emits.after (Emits.send quiet) rfl rfl

theorem quiet_sendEventFrom (cl : Option Ptr) (event : List UInt8)
    (attrs : Option (List (List UInt8))) (evs : List Ptr) (matchLen : Nat) :
    QuietTo bus (Bus.sendEventFrom cl event attrs evs matchLen bus) := by
  induction evs generalizing bus matchLen with
  | nil =>
      exact Emits.silent rfl rfl
  | cons ev rest inductionHypothesis =>
      rw [Bus.sendEventFrom]
      split
      · exact Emits.silent rfl rfl
      · split
        · exact (quiet_ubusdSendEventMsg cl _ attrs).trans
            (inductionHypothesis _)
        · exact inductionHypothesis _

theorem quiet_ubusdSendObjEvent (obj : Ptr) (add : Bool) :
    QuietTo bus (bus.ubusdSendObjEvent obj add) :=
  Emits.after (quiet_sendEventFrom none _ _ _ 0) rfl rfl

theorem quiet_dropPath (obj : Ptr) : QuietTo bus (bus.dropPath obj) := by
  rw [Bus.dropPath]
  dsimp only
  split
  · exact Emits.after ((quiet_ubusdSendObjEvent obj false).trans
      (Emits.silent rfl rfl)) rfl rfl
  · exact Emits.silent rfl rfl

end Events

/-! ## The end of an object -/

section Free

variable {young held : Option Ptr} {bus : Bus}

/-- No object is subscribed to itself. -/
theorem subscribers_dropTargets (linked : Linked young held store)
    (subs : SubsInv store) (obj : Ptr) :
    ((store.dropTargets obj).objectAt obj).subscribers =
      (store.objectAt obj).subscribers := by
  rw [ObjStore.dropTargets, ObjStore.foldl_unlinkSubscription]
  refine List.filter_eq_self.mpr fun s entering => ?_
  refine decide_eq_true fun leaving => ?_
  obtain ⟨own, _⟩ := linked.subscriptions.atSource obj s leaving
  exact subs.foreign obj s entering (by rw [own])

theorem unsubscribeOf_foldl_unlink (subs : List Ptr) :
    unsubscribeOf (subs.foldl ObjStore.unlinkSubscription store) =
      unsubscribeOf store := by
  rw [ObjStore.foldl_unlinkSubscription]
  rfl

/-- An object goes once its subscriptions are gone. -/
theorem isActive_freeObject (store : ObjStore) (obj : Ptr) :
    isActive (store.freeObject obj) owner id =
      isActive ((store.dropTargets obj).dropSubscribers obj) owner id := by
  obtain ⟨_, noSubscribers, _⟩ := dropLinks_empty store obj
  have objects : ((store.dropTargets obj).dropSubscribers obj).objects =
      store.objects := by
    rw [ObjStore.dropSubscribers, ObjStore.foldl_unlinkSubscription,
      ObjStore.dropTargets, ObjStore.foldl_unlinkSubscription]
  have events : store.dropLinks obj = _ :=
    ObjStore.foldl_ubusdDeleteEventSource
      ((store.dropTargets obj).dropSubscribers obj) _
  rw [events] at noSubscribers
  rw [freeObject_eq, events]
  refine isActive_congr ?_ ?_
  · intro other own isId live subscribed
    refine ⟨mem_avlDelete.mpr ⟨objects ▸ live, fun isObj => ?_⟩, own, isId,
      subscribed⟩
    rw [isObj] at subscribed
    exact subscribed noSubscribers
  · intro other own isId live subscribed
    exact ⟨objects.symm ▸ (mem_avlDelete.mp live).1, own, isId, subscribed⟩

/-- Behind its two loops `ubusd_free_object` sends no more than an event. -/
theorem quiet_endObject (bus : Bus) (obj : Ptr) :
    QuietTo ((bus.dropTargets obj).dropSubscribers obj)
      (bus.ubusdFreeObject obj) := by
  refine (quiet_dropPath obj).trans ?_
  rw [Bus.ubusdFreeObject, Bus.unrefType.eq_def]
  split
  · exact Emits.silent rfl rfl
  · exact Emits.silent rfl rfl

/-- `ubusd_free_object` tells the subscribers of the object. -/
theorem tells_ubusdFreeObject (linked : Linked young held bus.store)
    (addressed : Addressed bus.store) (subs : SubsInv bus.store) (obj : Ptr) :
    Tells owner id
      ((bus.store.objectAt obj).subscribers.map (unsubscribeOf bus.store)) bus
      (bus.ubusdFreeObject obj) := by
  have store := bus.store_dropTargets obj
  have targets : Tells owner id [] bus (bus.dropTargets obj) :=
    tells_dropTargets linked addressed subs obj
  have middleLinked : Linked young held (bus.dropTargets obj).store := by
    rw [store]
    exact linked.foldl_unlink _
  have middleAddressed : Addressed (bus.dropTargets obj).store := by
    rw [store]
    exact addressed.foldl_unlink _
  have middleSubs : SubsInv (bus.dropTargets obj).store := by
    rw [store]
    exact subs.foldl_unlink _
  have subscribers : Tells owner id _ (bus.dropTargets obj) _ :=
    tells_dropSubscribers middleLinked middleAddressed middleSubs obj
  rw [store, subscribers_dropTargets linked subs, ObjStore.dropTargets,
    unsubscribeOf_foldl_unlink] at subscribers
  have rest : Tells owner id [] ((bus.dropTargets obj).dropSubscribers obj)
      (bus.ubusdFreeObject obj) := by
    refine Tells.quiet (quiet_endObject bus obj) ?_
    rw [Bus.store_ubusdFreeObject, Bus.store_dropSubscribers]
    exact isActive_freeObject bus.store obj
  have all := (targets.trans subscribers).trans rest
  rw [List.append_nil] at all
  exact all

end Free

end LibubusJni.Subscribers
