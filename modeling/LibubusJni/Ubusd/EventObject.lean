import LibubusJni.Ubusd.Isolation
import LibubusJni.Ubusd.Outbox

/-!
# The object that has no client

`event_obj` is found by its identifier like any other object, but it has no
client.  A client that invokes one of its methods without `UBUS_ATTR_DATA`, or
subscribes an object to it, makes the process follow a null pointer; in every
other role the object is safe.
-/

namespace LibubusJni.Ubusd

open LibubusJni.Lib LibubusJni.Libubox

variable {store next : ObjStore} {cl : Ptr} {watched : Ptr → Prop}

/-! ## What becomes of the object -/

theorem eventObj_freeObject (store : ObjStore) (obj : Ptr) :
    (store.freeObject obj).eventObj = store.eventObj := by
  rw [freeObject_eq, dropLinks_eq]

theorem StoreMove.eventObj (move : StoreMove cl watched store next)
    (linked : Linked none none store) (allocated : Allocated store) :
    next.eventObj = store.eventObj := by
  cases move with
  | link move =>
      cases move with
      | keep =>
          rfl
      | removed obj live own =>
          exact eventObj_freeObject store obj
      | subscribed obj target live own targetLive isWatched =>
          rfl
      | unsubscribed obj s live own onList =>
          rfl
      | registered obj key isPartial live own =>
          rfl
  | make move =>
      exact (move.grown linked allocated).eventObj

/-- Nobody subscribes to an object that is not watched. -/
theorem LinkMove.subscribers (move : LinkMove cl watched store next)
    {obj : Ptr} (none : (store.objectAt obj).subscribers = [])
    (notWatched : ¬ watched obj) : (next.objectAt obj).subscribers = [] := by
  cases move with
  | keep =>
      exact none
  | removed gone live own =>
      rw [freeObject_eq, dropLinks_eq]
      dsimp only
      rw [none]
      rfl
  | subscribed subscriber target live own targetLive isWatched =>
      have different : obj ≠ target := fun same =>
        notWatched (same ▸ isWatched)
      rw [congrFun (subscriberLists_addSubscription subscriber target) obj,
        Function.update_of_ne different]
      exact none
  | unsubscribed subscriber s live own onList =>
      show listDel s (store.objectAt obj).subscribers = []
      rw [none]
      rfl
  | registered other key isPartial live own =>
      simpa [ObjStore.addSource] using none

/-- The object is found by its identifier, receives messages, and has no
client. -/
structure EventObject (store : ObjStore) : Prop where
  id : (store.objectAt store.eventObj).id = ubusSystemObjectEvent
  recvMsg : (store.objectAt store.eventObj).recvMsg = true

theorem EventObject.move (event : EventObject store)
    (move : StoreMove cl watched store next)
    (linked : Linked none none store) (allocated : Allocated store) :
    EventObject next := by
  have free : (store.objectAt store.eventObj).client = none :=
    (linked.unowned _ linked.eventObj).mpr (Or.inl rfl)
  have kept := (move.recordKept linked allocated linked.eventObj
    (by rw [free]; exact (Option.some_ne_none cl).symm)).record
  have same := move.eventObj linked allocated
  exact
    { id := by
        rw [same, kept]
        exact event.id
      recvMsg := by
        rw [same, kept]
        exact event.recvMsg }

theorem Linked.unwatched (linked : Linked none none store)
    (none : (store.objectAt store.eventObj).subscribers = []) :
    Unwatched store := by
  intro obj live free
  rcases (linked.unowned obj live).mp free with isEvent | isYoung
  · rw [isEvent]
    exact none
  · exact absurd isYoung (Option.some_ne_none obj).symm

theorem EventObject.found (event : EventObject store)
    (linked : Linked none none store) {id : UInt32} {obj : Ptr}
    (isFound : store.ubusdFindObject id = some obj) :
    obj = store.eventObj ↔ id = ubusSystemObjectEvent := by
  obtain ⟨live, hasId⟩ := ubusdFindObject_some isFound
  constructor
  · intro isEvent
    rw [← hasId, isEvent, event.id]
  · intro isId
    exact linked.objectIds obj live _ linked.eventObj
      (by rw [hasId, event.id, isId])

/-! ## The messages that end in a null pointer -/

/-- A message reads the missing data of an `INVOKE`, or the missing client of
the target of a `SUBSCRIBE`. -/
inductive Dereferences (store : ObjStore) (cl : Ptr) (ub : BusRequest) :
    Prop where
  | data (type : UbusMsgType.ofCode? ub.hdr.type = some .invoke)
      (objid : Nat) (hasObjid : ub.attr .objid = some objid)
      (isEvent : blobGetU32 ub.mem objid = ubusSystemObjectEvent)
      (method : Nat) (hasMethod : ub.attr .method = some method)
      (reads : Bus.ReadsData (Bus.stringOf ub method))
      (noData : ub.attr .data = none)
  | client (type : UbusMsgType.ofCode? ub.hdr.type = some .subscribe)
      (objid : Nat) (hasObjid : ub.attr .objid = some objid)
      (obj : Ptr)
      (found : store.ubusdFindObject (blobGetU32 ub.mem objid) = some obj)
      (own : (store.objectAt obj).client = some cl)
      (target : Nat) (hasTarget : ub.attr .target = some target)
      (isEvent : blobGetU32 ub.mem target = ubusSystemObjectEvent)

/-- No null client and no missing data. -/
def Fault.Tolerable (fault : Fault) : Prop :=
  fault ≠ .nullClient ∧ fault ≠ .noData

/-- What holds before a step: nobody watches the object. -/
structure Settled (store : ObjStore) : Prop where
  linked : Linked none none store
  allocated : Allocated store
  event : EventObject store
  noSubscribers : (store.objectAt store.eventObj).subscribers = []

theorem Settled.unwatched (settled : Settled store) : Unwatched store :=
  settled.linked.unwatched settled.noSubscribers

theorem Settled.addressed (settled : Settled store) : Addressed store :=
  settled.linked.addressed settled.unwatched

theorem Settled.isEvent (settled : Settled store) {obj : Ptr}
    (live : obj ∈ store.objects)
    (free : (store.objectAt obj).client = none) :
    obj = store.eventObj := by
  rcases (settled.linked.unowned obj live).mp free with isEvent | isYoung
  · exact isEvent
  · exact absurd isYoung (Option.some_ne_none obj).symm

theorem Settled.free (settled : Settled store) :
    (store.objectAt store.eventObj).client = none :=
  (settled.linked.unowned _ settled.linked.eventObj).mpr (Or.inl rfl)

theorem Settled.find_event (settled : Settled store) :
    store.ubusdFindObject ubusSystemObjectEvent = some store.eventObj := by
  cases found : store.ubusdFindObject ubusSystemObjectEvent with
  | none =>
      have absent := ubusdFindObject_none found _ settled.linked.eventObj
      exact absurd settled.event.id absent
  | some obj =>
      rw [(settled.event.found settled.linked found).mpr rfl]

namespace Bus

variable {bus : Bus} {cl : Ptr} {ub : BusRequest}

/-- A message that dereferences neither is handled to its end, or dies of
something else. -/
theorem handle_tolerable (settled : Settled bus.store)
    (safe : ¬ Dereferences bus.store cl ub) {type : UbusMsgType}
    (isType : UbusMsgType.ofCode? ub.hdr.type = some type) :
    Emits (fun _ => True) Fault.Tolerable bus (bus.handle cl ub type).1 := by
  have overrun : Fault.Tolerable .overrun := ⟨nofun, nofun⟩
  have nullType : Fault.Tolerable .nullType := ⟨nofun, nofun⟩
  have nullRecvMsg : Fault.Tolerable .nullRecvMsg := ⟨nofun, nofun⟩
  cases type with
  | hello =>
      exact Emits.silent rfl rfl
  | ping =>
      exact Emits.send trivial
  | addObject =>
      exact bus.emits_handleAddObject cl ub settled.linked settled.allocated
        settled.unwatched (fun _ _ _ _ _ => nullType) (fun _ _ => trivial)
        fun _ _ _ _ => trivial
  | removeObject =>
      exact bus.emits_handleRemoveObject cl ub settled.addressed
        (fun _ _ => trivial) fun _ _ _ _ _ => ⟨fun _ => trivial, trivial⟩
  | lookup =>
      exact bus.emits_handleLookup cl ub overrun (fun _ _ _ => nullType)
        fun _ _ _ _ _ _ => trivial
  | invoke =>
      refine bus.emits_handleInvoke cl ub settled.addressed overrun
        (fun _ _ _ _ => nullRecvMsg) ?_ (fun _ _ _ _ _ _ _ _ _ _ _ _ => trivial)
        fun _ _ _ _ _ _ => trivial
      intro obj method invokes free noData reads
      obtain ⟨objid, hasObjid, found⟩ := invokes.object
      have isEvent := settled.isEvent (bus.findObjectOf_some ub found).1 free
      exact absurd (Dereferences.data isType objid hasObjid
        ((settled.event.found settled.linked found).mp isEvent) method
        invokes.method reads noData) safe
  | status =>
      exact bus.emits_handleResponse cl ub fun _ _ _ _ => trivial
  | data =>
      exact bus.emits_handleResponse cl ub fun _ _ _ _ => trivial
  | subscribe =>
      refine bus.emits_handleAddWatch cl ub ?_ fun _ _ _ _ => trivial
      intro obj target subscribes free
      obtain ⟨objid, hasObjid, found⟩ := subscribes.object
      obtain ⟨targetAttr, hasTarget, targetFound⟩ := subscribes.watched
      have isEvent :=
        settled.isEvent (bus.findObjectOf_some ub targetFound).1 free
      exact absurd (Dereferences.client isType objid hasObjid obj found
        subscribes.own targetAttr hasTarget
        ((settled.event.found settled.linked targetFound).mp isEvent)) safe
  | unsubscribe =>
      exact bus.emits_handleRemoveWatch cl ub settled.addressed
        fun _ _ _ _ => trivial
  | notify =>
      exact bus.emits_handleNotify cl ub settled.addressed overrun
        (fun _ _ _ _ _ => trivial) fun _ _ _ _ _ _ _ _ _ => trivial

/-- A message that dereferences one of them is the last. -/
theorem handle_intolerable (settled : Settled bus.store)
    (running : bus.fault = none) (hits : Dereferences bus.store cl ub) :
    ∃ type, UbusMsgType.ofCode? ub.hdr.type = some type ∧
      ∃ fault, (bus.handle cl ub type).1.fault = some fault ∧
        ¬ Fault.Tolerable fault := by
  have dies : ∀ fault, (bus.crash fault).fault = some fault := by
    intro fault
    rw [crash, running]
    rfl
  have free := settled.free
  cases hits with
  | data type objid hasObjid isEvent method hasMethod reads noData =>
      have found : bus.findObjectOf ub objid = some bus.store.eventObj := by
        rw [findObjectOf, isEvent]
        exact settled.find_event
      refine ⟨.invoke, type, .noData, ?_, fun tolerable => tolerable.2 rfl⟩
      rw [handle, ubusdHandleInvoke, hasMethod, hasObjid]
      dsimp only
      rw [found]
      dsimp only
      rw [free, settled.event.recvMsg, noData]
      rcases reads with register | send
      · simp [ubusdEventRecv, register, dies]
      · simp [ubusdEventRecv, send, dies]
  | client type objid hasObjid obj found own target hasTarget isEvent =>
      have targetFound : bus.findObjectOf ub target =
          some bus.store.eventObj := by
        rw [findObjectOf, isEvent]
        exact settled.find_event
      refine ⟨.subscribe, type, .nullClient, ?_, fun tolerable => tolerable.1 rfl⟩
      rw [handle, ubusdHandleAddWatch, hasObjid, hasTarget]
      dsimp only
      rw [findObjectOf, found]
      dsimp only
      rw [own, targetFound]
      dsimp only
      rw [free]
      have stillFree : ((bus.store.addSubscription obj
          bus.store.eventObj).objectAt bus.store.eventObj).client = none := by
        simpa [ObjStore.addSubscription] using free
      simp only [ne_eq, not_true_eq_false, if_false, reduceCtorEq,
        ubusSubscribe, settled.noSubscribers, List.isEmpty_nil, if_true,
        ubusNotifySubscription, stillFree]
      show some (bus.fault.getD Fault.nullClient) = _
      rw [running]
      rfl

theorem receive_intolerable (settled : Settled bus.store)
    (running : bus.fault = none) (hits : Dereferences bus.store cl ub) :
    ∃ fault, (bus.ubusdProtoReceiveMessage cl ub).fault = some fault ∧
      ¬ Fault.Tolerable fault := by
  obtain ⟨type, isType, fault, isFault, intolerable⟩ :=
    handle_intolerable settled running hits
  refine ⟨fault, ?_, intolerable⟩
  rw [ubusdProtoReceiveMessage, isType]
  dsimp only
  split
  · exact isFault
  · exact isFault

end Bus

/-! ## Runs -/

/-- Whatever has happened, the structures are linked and the object is found;
as long as the process lives, nobody watches it. -/
structure EventInv (bus : Bus) : Prop where
  inv : BusInv bus
  event : EventObject bus.store
  noSubscribers : bus.fault = none →
    (bus.store.objectAt bus.store.eventObj).subscribers = []

theorem EventInv.settled {bus : Bus} (holds : EventInv bus)
    (running : bus.fault = none) : Settled bus.store where
  linked := holds.inv.linked
  allocated := holds.inv.allocated
  event := holds.event
  noSubscribers := holds.noSubscribers running

/-- The step that a client's message or its end takes, and what it dies of. -/
def BusAction.Dereferences (bus : Bus) : BusAction → Prop
  | .receive cl ub _ => Ubusd.Dereferences bus.store cl ub
  | _ => False

theorem eventInv_init : EventInv ubusd.init where
  inv := busInv_init
  event := ⟨rfl, rfl⟩
  noSubscribers _ := rfl

/-- The objects of a client are freed, and `event_obj` is not among them. -/
theorem foldl_freeObject_event (objs : List Ptr) (store : ObjStore) :
    (objs.foldl ObjStore.freeObject store).eventObj = store.eventObj ∧
      ((objs.foldl ObjStore.freeObject store).objectAt store.eventObj).id =
        (store.objectAt store.eventObj).id ∧
      ((objs.foldl ObjStore.freeObject store).objectAt
          store.eventObj).recvMsg = (store.objectAt store.eventObj).recvMsg ∧
      ((store.objectAt store.eventObj).subscribers = [] →
        ((objs.foldl ObjStore.freeObject store).objectAt
          store.eventObj).subscribers = []) := by
  induction objs generalizing store with
  | nil =>
      exact ⟨rfl, rfl, rfl, id⟩
  | cons obj rest inductionHypothesis =>
      have freed : (store.freeObject obj).objectAt store.eventObj =
          { store.objectAt store.eventObj with
            subscribers := (store.objectAt store.eventObj).subscribers.filter
              (· ∉ store.linksOf obj)
            targetList := (store.objectAt store.eventObj).targetList.filter
              (· ∉ store.linksOf obj)
            events := (store.objectAt store.eventObj).events.filter
              (· ∉ (store.objectAt obj).events) } := by
        rw [freeObject_eq, dropLinks_eq]
      obtain ⟨eventObj, id, recvMsg, subscribers⟩ :=
        inductionHypothesis (store.freeObject obj)
      rw [eventObj_freeObject, freed] at id recvMsg subscribers
      rw [eventObj_freeObject] at eventObj
      refine ⟨eventObj, id, recvMsg, fun none => subscribers ?_⟩
      dsimp only
      rw [none]
      rfl

/-- A step is tolerable unless its message dereferences one of them. -/
theorem act_tolerable {bus next : Bus} {action : BusAction}
    (holds : EventInv bus) (taken : ubusd.step bus action = some next) :
    (∀ fault, next.fault = some fault → fault.Tolerable) ↔
      ¬ action.Dereferences bus := by
  obtain ⟨running, enabled, same⟩ := step_some taken
  have settled := holds.settled running
  have tolerable : ∀ begun : Bus, begun.fault = none →
      Emits (fun _ => True) Fault.Tolerable begun next →
        ∀ fault, next.fault = some fault → fault.Tolerable := by
    intro begun noFault emits fault isFault
    rcases emits.fault fault isFault with early | late
    · rw [noFault] at early
      exact absurd early (Option.some_ne_none fault).symm
    · exact late
  rw [same] at tolerable ⊢
  cases action with
  | connect urandom =>
      refine iff_of_true (fun fault isFault => ?_) id
      rw [Bus.act, Bus.ubusdProtoNewClient] at isFault
      split at isFault
      · exact absurd (running.symm.trans isFault)
          (Option.some_ne_none fault).symm
      · exact absurd (running.symm.trans isFault)
          (Option.some_ne_none fault).symm
  | disconnect cl =>
      have notifies := Bus.notifies_ubusdProtoFreeClient
        { bus with sent := [] } cl settled.linked settled.allocated
          settled.unwatched
      exact iff_of_true (tolerable { bus with sent := [] } running
        (notifies.emits fun _ _ _ _ => trivial)) id
  | receive cl ub urandom =>
      let begun : Bus := { bus with urandom := urandom, sent := [] }
      have nowSettled : Settled begun.store := settled
      constructor
      · intro all hits
        have nowHits : Dereferences begun.store cl ub := hits
        obtain ⟨fault, isFault, intolerable⟩ :=
          Bus.receive_intolerable nowSettled running nowHits
        exact intolerable (all fault isFault)
      · intro safe
        have nowSafe : ¬ Dereferences begun.store cl ub := safe
        refine tolerable begun running (begun.emits_receive cl ub
          (fun _ => trivial) fun type isType => ?_)
        exact Bus.handle_tolerable nowSettled nowSafe isType

/-- A message that subscribes to the object is the last. -/
theorem dereferences_of_watches {bus : Bus} {cl : Ptr} {ub : BusRequest}
    (settled : Settled bus.store) {type : UbusMsgType}
    (isType : UbusMsgType.ofCode? ub.hdr.type = some type)
    (watches : Bus.Watches bus cl ub type bus.store.eventObj) :
    Dereferences bus.store cl ub := by
  obtain ⟨isSubscribe, obj, subscribes⟩ := watches
  rw [isSubscribe] at isType
  obtain ⟨objid, hasObjid, found⟩ := subscribes.object
  obtain ⟨target, hasTarget, targetFound⟩ := subscribes.watched
  exact Dereferences.client isType objid hasObjid obj found subscribes.own
    target hasTarget ((settled.event.found settled.linked targetFound).mp rfl)

theorem eventInv_step (bus : Bus) (action : BusAction) (next : Bus)
    (holds : EventInv bus) (taken : ubusd.step bus action = some next) :
    EventInv next := by
  have inv := busInv_step bus action next holds.inv taken
  have tolerable := act_tolerable holds taken
  obtain ⟨running, enabled, same⟩ := step_some taken
  have settled := holds.settled running
  cases action with
  | connect urandom =>
      have store : next.store.objectAt = bus.store.objectAt ∧
          next.store.eventObj = bus.store.eventObj := by
        rw [same]
        rcases store_connect bus urandom with keep | ⟨id, added⟩
        · rw [keep]
          exact ⟨rfl, rfl⟩
        · rw [added]
          exact ⟨rfl, rfl⟩
      exact
        { inv := inv
          event := ⟨by rw [store.1, store.2]; exact holds.event.id,
            by rw [store.1, store.2]; exact holds.event.recvMsg⟩
          noSubscribers := fun _ => by
            rw [store.1, store.2]
            exact settled.noSubscribers }
  | disconnect cl =>
      have store : next.store = bus.store.freeClient cl := by
        rw [same]
        exact store_ubusdProtoFreeClient { bus with sent := [] } cl
      obtain ⟨eventObj, id, recvMsg, subscribers⟩ :=
        foldl_freeObject_event (bus.store.clientAt cl).objects bus.store
      rw [← eventObj] at id recvMsg subscribers
      exact
        { inv := inv
          event := ⟨by rw [store]; exact id.trans (by rw [eventObj]; exact holds.event.id),
            by rw [store]; exact recvMsg.trans (by rw [eventObj]; exact holds.event.recvMsg)⟩
          noSubscribers := fun _ => by
            rw [store]
            refine subscribers ?_
            rw [eventObj]
            exact settled.noSubscribers }
  | receive cl ub urandom =>
      let begun : Bus := { bus with urandom := urandom, sent := [] }
      have nowSettled : Settled begun.store := settled
      have move := begun.receive_move cl ub
      have store : next.store = (begun.ubusdProtoReceiveMessage cl ub).store :=
        congrArg Bus.store same
      rw [← store] at move
      have eventObj : next.store.eventObj = bus.store.eventObj :=
        move.eventObj settled.linked settled.allocated
      refine
        { inv := inv
          event := holds.event.move move settled.linked settled.allocated
          noSubscribers := fun lives => ?_ }
      rw [eventObj]
      cases move with
      | link link =>
          refine link.subscribers settled.noSubscribers ?_
          intro ⟨type, isType, watches⟩
          have hits := dereferences_of_watches nowSettled isType watches
          refine (tolerable.mp fun fault isFault => ?_) hits
          rw [lives] at isFault
          exact absurd isFault (Option.some_ne_none fault).symm
      | make make =>
          have grown := make.grown settled.linked settled.allocated
          rw [grown.objectAt _ settled.linked.eventObj]
          exact settled.noSubscribers

/-- The process follows a null client or reads missing data if and only if a
message invokes `register` or `send` of `event_obj` without data or subscribes
an object of its sender to it. -/
theorem eventObject_safe_iff {actions : List BusAction} {final : Bus}
    (reached : ubusd.run actions = some final) :
    (final.fault ≠ some .nullClient ∧ final.fault ≠ some .noData) ↔
      ubusd.Meets (fun bus action => ¬ action.Dereferences bus) ubusd.init
        actions := by
  refine @Machine.meets_iff _ _ ubusd
    (fun bus action => ¬ action.Dereferences bus) (fun _ => True) EventInv
    (fun bus => bus.fault ≠ some .nullClient ∧ bus.fault ≠ some .noData)
    eventInv_init ⟨nofun, nofun⟩
    (fun bus action next holds _ taken =>
      eventInv_step bus action next holds taken)
    ?_ actions final (fun _ _ => trivial) reached
  intro bus action next holds _ taken
  obtain ⟨running, _⟩ := step_some taken
  rw [running, ← act_tolerable holds taken]
  constructor
  · intro ⟨noClient, noData⟩
    exact ⟨⟨nofun, nofun⟩, fun fault isFault =>
      ⟨fun isClient => noClient (isClient ▸ isFault),
        fun isData => noData (isData ▸ isFault)⟩⟩
  · intro ⟨_, all⟩
    exact ⟨fun isFault => (all _ isFault).1 rfl,
      fun isFault => (all _ isFault).2 rfl⟩

/-- A client connects and adds an object. -/
def oneObject : List BusAction :=
  [.connect [5000],
    .receive 1 ⟨⟨0, UbusMsgType.addObject.code, 1, 0⟩, [0, 0, 0, 4]⟩ [6000]]

theorem eventObject_safe_iff_oneObject :
    ∃ final, ubusd.run oneObject = some final ∧
      ((final.fault ≠ some .nullClient ∧ final.fault ≠ some .noData) ↔
        ubusd.Meets (fun bus action => ¬ action.Dereferences bus) ubusd.init
          oneObject) :=
  ⟨_, rfl, @eventObject_safe_iff oneObject _ rfl⟩

/-- The client invokes `send` of `event_obj`, and there is no data. -/
def sendNothing : BusRequest :=
  ⟨⟨0, UbusMsgType.invoke.code, 2, 0⟩,
    [0, 0, 0, 24, 3, 0, 0, 8, 0, 0, 0, 1, 4, 0, 0, 9, 0x73, 0x65, 0x6e, 0x64,
      0, 0, 0, 0]⟩

/-- It subscribes its object to `event_obj`. -/
def subscribeToEvents : BusRequest :=
  ⟨⟨0, UbusMsgType.subscribe.code, 2, 0⟩,
    [0, 0, 0, 20, 3, 0, 0, 8, 0, 0, 0x17, 0x70, 8, 0, 0, 8, 0, 0, 0, 1]⟩

/-- Neither message is handled to its end. -/
theorem eventObject_dereferenced :
    (∃ final next, ubusd.run oneObject = some final ∧
      ubusd.step final (.receive 1 sendNothing []) = some next ∧
        next.fault = some .noData) ∧
    ∃ final next, ubusd.run oneObject = some final ∧
      ubusd.step final (.receive 1 subscribeToEvents []) = some next ∧
        next.fault = some .nullClient :=
  ⟨⟨_, _, rfl, rfl, by decide⟩, _, _, rfl, rfl, by decide⟩

end LibubusJni.Ubusd
