import LibubusJni.Invocation
import LibubusJni.Ubusd.Subscriptions

/-!
# A subscription from its request on

`ubus_subscribe` of a client, and how long ubusd keeps what it has asked for.
-/

namespace LibubusJni

open LibubusJni.Lib (Machine)
open LibubusJni.Libubox LibubusJni.Ubusd

/-- The attributes that `__ubus_subscribe_request` puts. -/
def subscribePuts (obj id : UInt32) : List PutAttr :=
  [⟨UbusMsgAttr.objid.id, be32Bytes obj⟩, ⟨UbusMsgAttr.target.id, be32Bytes id⟩]

/-- `__ubus_subscribe_request`, up to the answer. -/
def ubusSubscribeRequest (seq : UInt16) (obj id : UInt32) (type : UbusMsgType) :
    BusRequest :=
  ⟨⟨0, type.code, seq, 0⟩,
    blobNest 0
      [blobPutInt32 UbusMsgAttr.objid.id obj,
        blobPutInt32 UbusMsgAttr.target.id id]⟩

/-- What `ubus_subscribe` sends. -/
def ubusSubscribe (seq : UInt16) (obj id : UInt32) : BusRequest :=
  ubusSubscribeRequest seq obj id .subscribe

/-- The object of the client is subscribed to the target. -/
structure Stands (cl obj target s : Ptr) (store : ObjStore) : Prop where
  listed : s ∈ (store.objectAt target).subscribers
  subscriber : (store.subscriptionAt s).subscriber = obj
  own : (store.objectAt obj).client = some cl

/-- A message with which the client ends a subscription. -/
def Ends (cl : Ptr) : BusAction → Prop
  | .receive sender ub _ =>
      sender = cl ∧ UbusMsgType.ofCode? ub.hdr.type = some .unsubscribe
  | _ => False

section Store

variable {store next : ObjStore} {cl sender obj target s : Ptr}

/-- The links between objects that remain are kept. -/
def LinksKept (store next : ObjStore) : Prop :=
  ∀ ⦃cl obj target s : Ptr⦄, obj ∈ next.objects → target ∈ next.objects →
    Stands cl obj target s store → Stands cl obj target s next

theorem Stands.ends (stands : Stands cl obj target s store)
    (linked : Linked none none store) :
    obj ∈ store.objects ∧ target ∈ store.objects ∧
      s ∈ (store.objectAt obj).targetList := by
  obtain ⟨_, targetLive, objLive, onList⟩ :=
    linked.subscriptions.atTarget target s stands.listed
  rw [stands.subscriber] at objLive onList
  exact ⟨objLive, targetLive, onList⟩

theorem linksKept_of_eq (same : next = store) : LinksKept store next :=
  fun _ _ _ _ _ _ stands => same ▸ stands

theorem linksKept_freeObject (linked : Linked none none store) (freed : Ptr) :
    LinksKept store (store.freeObject freed) := by
  intro cl obj target s objLive targetLive stands
  have objects : (store.freeObject freed).objects =
      avlDelete freed store.objects := by rw [freeObject_eq]
  rw [objects] at objLive targetLive
  have notObj := (mem_avlDelete.mp objLive).2
  have notTarget := (mem_avlDelete.mp targetLive).2
  have notLink : s ∉ store.linksOf freed := by
    intro isLink
    rcases List.mem_append.mp isLink with leaving | entering
    · have source := (linked.subscriptions.atSource freed s leaving).1
      exact notObj (stands.subscriber.symm.trans source)
    · have ends := (linked.subscriptions.atTarget freed s entering).1
      have own := (linked.subscriptions.atTarget target s stands.listed).1
      exact notTarget (own.symm.trans ends)
  rw [freeObject_eq, dropLinks_eq]
  exact
    { listed := List.mem_filter.mpr ⟨stands.listed, decide_eq_true notLink⟩
      subscriber := stands.subscriber
      own := stands.own }

theorem linksKept_addSubscription (linked : Linked none none store)
    (allocated : Allocated store) (follower watched : Ptr) :
    LinksKept store (store.addSubscription follower watched) := by
  intro cl obj target s _ _ stands
  have old : s ≠ store.allocs :=
    Nat.ne_of_lt (allocated.subscriptions obj s (stands.ends linked).2.2)
  have subscribers := congrFun
    (@subscriberLists_addSubscription store follower watched) target
  have subscription : (store.addSubscription follower watched).subscriptionAt s =
      store.subscriptionAt s := Function.update_of_ne old _ _
  refine ⟨?_, ?_, ?_⟩
  · rw [subscribers]
    by_cases isTarget : target = watched
    · rw [isTarget, Function.update_self]
      exact List.mem_cons_of_mem _ (isTarget ▸ stands.listed)
    · rw [Function.update_of_ne isTarget]
      exact stands.listed
  · rw [subscription]
    exact stands.subscriber
  · have same : ((store.addSubscription follower watched).objectAt obj).client =
        (store.objectAt obj).client := by
      simp [ObjStore.addSubscription]
    exact same.trans stands.own

theorem linksKept_addSource (obj : Ptr) (key : List UInt8) (isPartial : Bool) :
    LinksKept store (store.addSource obj key isPartial) := by
  intro cl other target s _ _ stands
  exact
    { listed := by simpa [ObjStore.addSource] using stands.listed
      subscriber := stands.subscriber
      own := by simpa [ObjStore.addSource] using stands.own }

theorem Ubusd.MakeMove.linksKept (move : MakeMove sender store next)
    (linked : Linked none none store) (allocated : Allocated store) :
    LinksKept store next := by
  intro cl obj target s _ _ stands
  obtain ⟨objLive, targetLive, _⟩ := stands.ends linked
  have grown := move.grown linked allocated
  refine ⟨?_, ?_, ?_⟩
  · rw [grown.objectAt target targetLive]
    exact stands.listed
  · rw [grown.subscriptionAt]
    exact stands.subscriber
  · rw [grown.objectAt obj objLive]
    exact stands.own

/-- Only the owner ends a subscription. -/
theorem Ubusd.LinkMove.stands {watched : Ptr → Prop}
    (move : LinkMove sender watched store next) (foreign : sender ≠ cl)
    (linked : Linked none none store) (allocated : Allocated store)
    (objLive : obj ∈ next.objects) (targetLive : target ∈ next.objects)
    (stands : Stands cl obj target s store) : Stands cl obj target s next := by
  cases move with
  | keep =>
      exact stands
  | removed freed live own =>
      exact linksKept_freeObject linked freed objLive targetLive stands
  | subscribed other another live own otherLive isWatched =>
      exact linksKept_addSubscription linked allocated other another objLive
        targetLive stands
  | unsubscribed other link live own onList =>
      have different : s ≠ link := by
        intro same
        have source := (linked.subscriptions.atSource other link onList).1
        rw [← same, stands.subscriber] at source
        rw [← source, stands.own] at own
        exact foreign (Option.some.inj own).symm
      exact
        { listed := mem_listDel.mpr ⟨stands.listed, different⟩
          subscriber := stands.subscriber
          own := stands.own }
  | registered other key isPartial live own =>
      exact linksKept_addSource other key isPartial objLive targetLive stands

end Store

/-! ## Handlers -/

section Bus

variable {bus next : Bus} {cl sender obj target s : Ptr} {ub : BusRequest}
  (linked : Linked none none bus.store) (allocated : Allocated bus.store)

include linked in
theorem handleRemoveObject_linksKept :
    LinksKept bus.store (bus.ubusdHandleRemoveObject sender ub).1.store := by
  rw [Bus.ubusdHandleRemoveObject]
  dsimp only
  split
  · exact linksKept_of_eq rfl
  · split
    · exact linksKept_of_eq rfl
    · split
      · exact linksKept_of_eq rfl
      · rw [Bus.store_ubusSendMsgFromBlob, Bus.store_ubusdFreeObject]
        exact linksKept_freeObject linked _

theorem allocEventPattern_linksKept (bytes : List UInt8) (msg : Nat) :
    LinksKept bus.store (bus.ubusdAllocEventPattern sender bytes msg).1.store := by
  rw [Bus.ubusdAllocEventPattern]
  dsimp only
  split
  · split
    · exact linksKept_of_eq rfl
    · split
      · exact linksKept_of_eq rfl
      · split
        · exact linksKept_of_eq rfl
        · exact linksKept_addSource _ _ _
  · exact linksKept_of_eq rfl

theorem eventRecv_linksKept (method bytes : List UInt8) (msg : Option Nat) :
    LinksKept bus.store
      (bus.ubusdEventRecv sender method bytes msg).1.store := by
  rw [Bus.ubusdEventRecv.eq_def]
  split
  · split
    · exact linksKept_of_eq rfl
    · exact allocEventPattern_linksKept bytes _
  · split
    · split
      · exact linksKept_of_eq rfl
      · exact linksKept_of_eq (Bus.store_ubusdForwardEvent ..)
    · exact linksKept_of_eq rfl

theorem handleInvoke_linksKept :
    LinksKept bus.store (bus.ubusdHandleInvoke sender ub).1.store := by
  rw [Bus.ubusdHandleInvoke]
  dsimp only
  split
  · split
    · exact linksKept_of_eq rfl
    · split
      · split
        · exact eventRecv_linksKept _ ub.bytes _
        · exact linksKept_of_eq rfl
      · exact linksKept_of_eq (Bus.store_ubusdForwardInvoke ..)
  · exact linksKept_of_eq rfl

include linked allocated

theorem handleAddWatch_linksKept :
    LinksKept bus.store (bus.ubusdHandleAddWatch sender ub).1.store := by
  rw [Bus.ubusdHandleAddWatch]
  split
  · split
    · exact linksKept_of_eq rfl
    · split
      · exact linksKept_of_eq rfl
      · split
        · exact linksKept_of_eq rfl
        · split
          · exact linksKept_of_eq rfl
          · rw [Bus.store_ubusSubscribe]
            exact linksKept_addSubscription linked allocated _ _
  · exact linksKept_of_eq rfl

/-- No message but one ends a subscription between objects that remain. -/
theorem handle_linksKept {type : UbusMsgType} (goesOn : type ≠ .unsubscribe) :
    LinksKept bus.store (bus.handle sender ub type).1.store := by
  cases type with
  | hello =>
      exact linksKept_of_eq rfl
  | ping =>
      exact linksKept_of_eq rfl
  | addObject =>
      exact (bus.handleAddObject_move sender ub).linksKept linked allocated
  | removeObject =>
      exact handleRemoveObject_linksKept linked
  | lookup =>
      exact linksKept_of_eq (bus.handleLookup_store sender ub)
  | invoke =>
      exact handleInvoke_linksKept
  | status =>
      exact linksKept_of_eq (bus.handleResponse_store sender ub)
  | data =>
      exact linksKept_of_eq (bus.handleResponse_store sender ub)
  | subscribe =>
      exact handleAddWatch_linksKept linked allocated
  | unsubscribe =>
      exact absurd rfl goesOn
  | notify =>
      exact linksKept_of_eq (bus.handleNotify_store sender ub)

theorem receive_stands
    (goesOn : sender = cl →
      UbusMsgType.ofCode? ub.hdr.type ≠ some .unsubscribe)
    (objLive : obj ∈ (bus.ubusdProtoReceiveMessage sender ub).store.objects)
    (targetLive :
      target ∈ (bus.ubusdProtoReceiveMessage sender ub).store.objects)
    (stands : Stands cl obj target s bus.store) :
    Stands cl obj target s (bus.ubusdProtoReceiveMessage sender ub).store := by
  by_cases own : sender = cl
  · rw [Bus.store_ubusdProtoReceiveMessage] at objLive targetLive ⊢
    cases isType : UbusMsgType.ofCode? ub.hdr.type with
    | none =>
        exact stands
    | some type =>
        rw [isType] at objLive targetLive
        have other : type ≠ .unsubscribe := fun same =>
          goesOn own (isType.trans (congrArg some same))
        exact handle_linksKept linked allocated other objLive targetLive stands
  · cases bus.receive_move sender ub with
    | link move =>
        exact move.stands own linked allocated objLive targetLive stands
    | make move =>
        exact move.linksKept linked allocated objLive targetLive stands

end Bus

section Bus

variable {bus next : Bus} {cl obj target s : Ptr}

/-! ## Steps -/

theorem foldl_freeObject_linksKept (objs : List Ptr) (once : objs.Nodup)
    {store : ObjStore} (linked : Linked none none store)
    (allocated : Allocated store)
    (all : ∀ obj ∈ objs, obj ∈ store.objects ∧ obj ≠ store.eventObj) :
    LinksKept store (objs.foldl ObjStore.freeObject store) := by
  induction objs generalizing store with
  | nil =>
      exact linksKept_of_eq rfl
  | cons freed rest inductionHypothesis =>
      obtain ⟨notInRest, restOnce⟩ := List.nodup_cons.mp once
      obtain ⟨live, notEvent⟩ := all freed List.mem_cons_self
      have nextLinked := linked.freeObject live notEvent (Or.inl rfl)
      have nextAllocated := allocated.freeObject freed
      have others := freeable_freeObject notInRest all
      have after := freedObjects rest restOnce nextLinked nextAllocated others
      intro cl obj target s objLive targetLive stands
      exact inductionHypothesis restOnce nextLinked nextAllocated others objLive
        targetLive (linksKept_freeObject linked freed
          ((after.objects obj).mp objLive).1
          ((after.objects target).mp targetLive).1 stands)

theorem linksKept_freeClient {store : ObjStore}
    (linked : Linked none none store) (allocated : Allocated store)
    (gone : Ptr) : LinksKept store (store.freeClient gone) := by
  intro cl obj target s objLive targetLive stands
  have still := foldl_freeObject_linksKept _ (linked.owners.once gone) linked
    allocated (linked.freeable gone) objLive targetLive stands
  exact ⟨still.listed, still.subscriber, still.own⟩

theorem stands_step {action : BusAction} (inv : BusInv bus)
    (taken : ubusd.step bus action = some next) (goesOn : ¬ Ends cl action)
    (objLive : obj ∈ next.store.objects)
    (targetLive : target ∈ next.store.objects)
    (stands : Stands cl obj target s bus.store) :
    Stands cl obj target s next.store := by
  rw [(step_some taken).2.2] at objLive targetLive ⊢
  cases action with
  | connect urandom =>
      rcases store_connect bus urandom with keep | ⟨id, added⟩
      · rw [keep]
        exact stands
      · rw [added]
        exact ⟨stands.listed, stands.subscriber, stands.own⟩
  | receive sender ub urandom =>
      let begun : Bus := { bus with urandom := urandom, sent := [] }
      exact @receive_stands begun cl sender obj target s ub inv.linked
        inv.allocated (fun own isEnd => goesOn ⟨own, isEnd⟩) objLive targetLive
        stands
  | disconnect gone =>
      have freed : (bus.act (.disconnect gone)).store =
          bus.store.freeClient gone :=
        store_ubusdProtoFreeClient { bus with sent := [] } gone
      rw [freed] at objLive targetLive ⊢
      exact linksKept_freeClient inv.linked inv.allocated gone objLive targetLive
        stands

/-- An object that is there at the end was there all the time. -/
theorem stands_runFrom {actions : List BusAction} {late : Bus}
    (inv : BusInv bus) (meanwhile : ubusd.runFrom bus actions = some late)
    (goesOn : ∀ action ∈ actions, ¬ Ends cl action)
    (objStays : obj ∈ late.store.objects)
    (targetStays : target ∈ late.store.objects)
    (stands : Stands cl obj target s bus.store) :
    Stands cl obj target s late.store := by
  induction actions generalizing bus with
  | nil =>
      rw [Machine.runFrom, Option.some.injEq] at meanwhile
      exact meanwhile ▸ stands
  | cons action rest inductionHypothesis =>
      obtain ⟨next, taken, continued⟩ :=
        Machine.runFrom_cons_eq_some.mp meanwhile
      have nextInv := busInv_step bus action next inv taken
      obtain ⟨_, aged⟩ := aged_runFrom nextInv continued
      obtain ⟨_, first⟩ := aged_runFrom inv
        (Machine.runFrom_cons_eq_some.mpr ⟨next, taken, rfl⟩ :
          ubusd.runFrom bus [action] = some next)
      have old : ∀ ptr ∈ bus.store.objects, ptr ∈ late.store.objects →
          ptr ∈ next.store.objects := fun ptr was stays =>
        (aged.objects ptr stays (Nat.lt_of_lt_of_le
          (inv.allocated.objects ptr was) first.grown)).1
      obtain ⟨objWas, targetWas, _⟩ := stands.ends inv.linked
      exact inductionHypothesis nextInv continued
        (fun other member => goesOn other (List.mem_cons_of_mem action member))
        (stands_step inv taken (goesOn action List.mem_cons_self)
          (old obj objWas objStays) (old target targetWas targetStays) stands)

/-! ## The request -/

theorem known_subscribePuts (obj id : UInt32) :
    ∀ attr ∈ subscribePuts obj id, attr.id < 128 := by
  simp [subscribePuts, UbusMsgAttr.id]

theorem small_subscribePuts (obj id : UInt32) :
    (PutAttr.concat (subscribePuts obj id)).length < 8388608 := by
  have length : (PutAttr.concat (subscribePuts obj id)).length = 16 := by
    rw [subscribePuts, PutAttr.concat_cons, PutAttr.concat_cons,
      List.length_append, List.length_append, PutAttr.length_bytes,
      PutAttr.length_bytes, PutAttr.size, PutAttr.size, length_be32Bytes,
      length_be32Bytes]
    rfl
  omega

/-- ubusd reads the two identifiers. -/
theorem findObjectOf_subscribe (linked : Linked none none bus.store)
    (live : obj ∈ bus.store.objects) (targetLive : target ∈ bus.store.objects)
    (seq : UInt16) (type : UbusMsgType) :
    let ub := ubusSubscribeRequest seq (bus.store.objectAt obj).id
      (bus.store.objectAt target).id type
    ∃ objid attr, ub.attr .objid = some objid ∧ ub.attr .target = some attr ∧
      bus.findObjectOf ub objid = some obj ∧
        bus.findObjectOf ub attr = some target := by
  intro ub
  have isBytes : ub.bytes = blobPut 0 (PutAttr.concat (subscribePuts
      (bus.store.objectAt obj).id (bus.store.objectAt target).id)) := rfl
  obtain ⟨objid, hasObjid, isObjid, _⟩ := @found_of_puts _ _ Ubusd.ubusPolicy
    isBytes (known_subscribePuts _ _) (small_subscribePuts _ _) [] _ _ rfl
    (accepted_int32 (by decide) rfl _) (by simp [UbusMsgAttr.id])
  obtain ⟨attr, hasTarget, isTarget, _⟩ := @found_of_puts _ _ Ubusd.ubusPolicy
    isBytes (known_subscribePuts _ _) (small_subscribePuts _ _) [_] _ _ rfl
    (accepted_unspec (by decide) rfl _) (by simp)
  refine ⟨objid, attr, hasObjid, hasTarget, ?_, ?_⟩
  · have named : blobGetU32 ub.mem objid = (bus.store.objectAt obj).id :=
      blobGetU32_of_plain isObjid
    rw [Bus.findObjectOf, named]
    exact linked.ubusdFindObject live
  · have named : blobGetU32 ub.mem attr = (bus.store.objectAt target).id :=
      blobGetU32_of_plain isTarget
    rw [Bus.findObjectOf, named]
    exact linked.ubusdFindObject targetLive

/-- The first of the subscriptions is the new one. -/
theorem stands_addSubscription {store : ObjStore}
    (own : (store.objectAt obj).client = some cl) :
    Stands cl obj target store.allocs (store.addSubscription obj target) := by
  have subscribers := congrFun
    (@subscriberLists_addSubscription store obj target) target
  have subscription : (store.addSubscription obj target).subscriptionAt
      store.allocs = ⟨obj, target⟩ := Function.update_self ..
  refine ⟨?_, ?_, ?_⟩
  · rw [subscribers, Function.update_self]
    exact List.mem_cons_self
  · rw [subscription]
  · have same : ((store.addSubscription obj target).objectAt obj).client =
        (store.objectAt obj).client := by
      simp [ObjStore.addSubscription]
    exact same.trans own

theorem receive_ubusSubscribe (linked : Linked none none bus.store)
    (live : obj ∈ bus.store.objects)
    (own : (bus.store.objectAt obj).client = some cl)
    (targetLive : target ∈ bus.store.objects)
    (foreign : (bus.store.objectAt target).client ≠ some cl) (seq : UInt16) :
    let ub := ubusSubscribe seq (bus.store.objectAt obj).id
      (bus.store.objectAt target).id
    bus.ubusdProtoReceiveMessage cl ub =
      (bus.ubusSubscribe obj target).sendStatus cl ub ubusStatusOk := by
  intro ub
  obtain ⟨objid, attr, hasObjid, hasTarget, found, targetFound⟩ :=
    findObjectOf_subscribe linked live targetLive seq .subscribe
  have isObjid : ub.attr .objid = some objid := hasObjid
  have isTarget : ub.attr .target = some attr := hasTarget
  have handled : bus.handle cl ub .subscribe =
      (bus.ubusSubscribe obj target, some ubusStatusOk) := by
    rw [Bus.handle, Bus.ubusdHandleAddWatch, isObjid, isTarget]
    dsimp only
    rw [show bus.findObjectOf ub objid = some obj from found]
    dsimp only
    rw [if_neg (not_not_intro own),
      show bus.findObjectOf ub attr = some target from targetFound]
    dsimp only
    rw [if_neg foreign]
  rw [Bus.receive_some rfl (congrArg Prod.snd handled), handled]

/-! ## Notifications -/

theorem related_of_forall₂ {Item Image : Type} {R : Item → Image → Prop}
    {items : List Item} {images : List Image}
    (related : List.Forall₂ R items images) {item : Item}
    (member : item ∈ items) : ∃ image ∈ images, R item image := by
  induction related with
  | nil =>
      exact absurd member List.not_mem_nil
  | cons first rest inductionHypothesis =>
      rcases List.mem_cons.mp member with rfl | inRest
      · exact ⟨_, List.mem_cons_self, first⟩
      · obtain ⟨image, isImage, isRelated⟩ := inductionHypothesis inRest
        exact ⟨image, List.mem_cons_of_mem _ isImage, isRelated⟩

/-- A notification of the target is passed on to the subscriber. -/
theorem receive_notify {owner : Ptr} {ub : BusRequest} {method : Nat}
    (silent : bus.sent = [])
    (isNotify : UbusMsgType.ofCode? ub.hdr.type = some .notify)
    (invokes : Bus.Invokes bus ub target method)
    (owned : (bus.store.objectAt target).client = some owner)
    (alive : (bus.ubusdProtoReceiveMessage owner ub).fault = none)
    (stands : Stands cl obj target s bus.store) :
    ∃ msg ∈ (bus.ubusdProtoReceiveMessage owner ub).sent, msg.client = cl ∧
      IsForwarded bus.store owner ub (Bus.notifyFront ub) method obj msg := by
  have notResponse : ¬ ub.IsResponse := by
    rw [BusRequest.IsResponse, isNotify]
    decide
  rw [Bus.fault_receive isNotify] at alive
  rcases Bus.handled_notify isNotify silent invokes alive with
    ⟨_, noAnswer, handled⟩ | ⟨foreign, _⟩
  · rw [Bus.receive_none isNotify noAnswer]
    have copied : ∀ sent, Handled bus owner ub sent → ∃ msg ∈ sent,
        IsForwarded bus.store owner ub (Bus.notifyFront ub) method obj msg := by
      intro sent handled
      cases handled with
      | answered front ret isRequest notLeft others =>
          exact absurd ⟨target, method, invokes, Or.inr ⟨isNotify, owned⟩⟩ notLeft
      | forwarded other name msg isInvoke _ _ =>
          rw [isNotify] at isInvoke
          cases isInvoke
      | notified other name copies _ named own copied =>
          have sameMethod : name = method :=
            Option.some.inj (named.method.symm.trans invokes.method)
          obtain ⟨objid, hasObjid, found⟩ := named.object
          obtain ⟨attr, hasAttr, targetFound⟩ := invokes.object
          have sameAttr : objid = attr :=
            Option.some.inj (hasObjid.symm.trans hasAttr)
          rw [sameAttr, targetFound] at found
          have sameTarget : target = other := Option.some.inj found
          rw [← sameTarget, sameMethod] at copied
          obtain ⟨msg, member, forwarded⟩ :=
            related_of_forall₂ copied stands.listed
          rw [stands.subscriber] at forwarded
          exact ⟨msg, List.mem_append_right _ member, forwarded⟩
      | passedOn objid other receiver isResponse _ =>
          exact absurd isResponse notResponse
      | dropped isResponse _ =>
          exact absurd isResponse notResponse
    obtain ⟨msg, member, forwarded⟩ := copied _ handled
    refine ⟨msg, member, ?_, forwarded⟩
    obtain ⟨receiver, attrs, isReceiver, _, same⟩ := forwarded
    rw [same]
    exact Option.some.inj (isReceiver.symm.trans stands.own)
  · exact absurd owned foreign

end Bus

/-! ## Runs -/

/-- The first client notifies of its object. -/
def notifyFirst : BusRequest :=
  ⟨⟨0, UbusMsgType.notify.code, 7, 6000⟩,
    [0, 0, 0, 20, 3, 0, 0, 8, 0, 0, 0x17, 0x70, 4, 0, 0, 6, 0x6d, 0, 0, 0]⟩

end LibubusJni
