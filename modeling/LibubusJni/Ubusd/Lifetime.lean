import LibubusJni.Ubusd.Effects

/-!
# What is linked is alive

All that a message, a new client or a disconnect does to the structures keeps
the relations between them, so they hold in every state that ubusd reaches.
-/

namespace LibubusJni.Ubusd

open LibubusJni.Lib LibubusJni.Libubox

variable {young held : Option Ptr} {store : ObjStore}

/-! ## Taking down the links of an object -/

/-- One entry after the other is taken off a list. -/
theorem filter_not_mem_cons {entry : Ptr} {rest head : List Ptr} :
    (head.filter (· ≠ entry)).filter (· ∉ rest) =
      head.filter (· ∉ entry :: rest) := by
  rw [List.filter_filter]
  refine List.filter_congr fun other _ => ?_
  simp [Bool.and_comm]

namespace ObjStore

/-- What a loop of `ubus_unsubscribe` leaves: everything but the subscriptions
it ran over. -/
theorem foldl_unlinkSubscription (store : ObjStore) (subs : List Ptr) :
    subs.foldl unlinkSubscription store =
      { store with
        objectAt := fun ptr =>
          { store.objectAt ptr with
            subscribers :=
              (store.objectAt ptr).subscribers.filter (· ∉ subs)
            targetList :=
              (store.objectAt ptr).targetList.filter (· ∉ subs) } } := by
  induction subs generalizing store with
  | nil =>
      simp
  | cons s rest inductionHypothesis =>
      rw [List.foldl_cons, inductionHypothesis]
      simp only [unlinkSubscription, listDel, filter_not_mem_cons]

/-- What `ubusd_event_cleanup_object` leaves. -/
theorem foldl_ubusdDeleteEventSource (store : ObjStore) (evs : List Ptr) :
    evs.foldl ubusdDeleteEventSource store =
      { store with
        objectAt := fun ptr =>
          { store.objectAt ptr with
            events := (store.objectAt ptr).events.filter (· ∉ evs) }
        patterns := store.patterns.filter (· ∉ evs) } := by
  induction evs generalizing store with
  | nil =>
      simp
  | cons ev rest inductionHypothesis =>
      rw [List.foldl_cons, inductionHypothesis]
      simp only [ubusdDeleteEventSource, listDel, avlDelete,
        filter_not_mem_cons]

end ObjStore

theorem Linked.foldl_unlink (linked : Linked young held store)
    (subs : List Ptr) :
    Linked young held (subs.foldl ObjStore.unlinkSubscription store) := by
  induction subs generalizing store with
  | nil =>
      exact linked
  | cons s rest inductionHypothesis =>
      exact inductionHypothesis (linked.unlinkSubscription s)

theorem Linked.foldl_deleteSource (linked : Linked young held store)
    (evs : List Ptr) :
    Linked young held (evs.foldl ObjStore.ubusdDeleteEventSource store) := by
  induction evs generalizing store with
  | nil =>
      exact linked
  | cons ev rest inductionHypothesis =>
      exact inductionHypothesis (linked.ubusdDeleteEventSource ev)

theorem Allocated.foldl_unlink (allocated : Allocated store)
    (subs : List Ptr) :
    Allocated (subs.foldl ObjStore.unlinkSubscription store) := by
  induction subs generalizing store with
  | nil =>
      exact allocated
  | cons s rest inductionHypothesis =>
      exact inductionHypothesis (allocated.unlinkSubscription s)

theorem Allocated.foldl_deleteSource (allocated : Allocated store)
    (evs : List Ptr) :
    Allocated (evs.foldl ObjStore.ubusdDeleteEventSource store) := by
  induction evs generalizing store with
  | nil =>
      exact allocated
  | cons ev rest inductionHypothesis =>
      exact inductionHypothesis (allocated.ubusdDeleteEventSource ev)

/-- The subscriptions that an object has at the start of `ubusd_free_object`. -/
def ObjStore.linksOf (store : ObjStore) (obj : Ptr) : List Ptr :=
  (store.objectAt obj).targetList ++ (store.objectAt obj).subscribers

/-- The two loops and the cleanup take away exactly the subscriptions and the
event sources of the object. -/
theorem dropLinks_eq (store : ObjStore) (obj : Ptr) :
    store.dropLinks obj =
      { store with
        objectAt := fun ptr =>
          { store.objectAt ptr with
            subscribers :=
              (store.objectAt ptr).subscribers.filter (· ∉ store.linksOf obj)
            targetList :=
              (store.objectAt ptr).targetList.filter (· ∉ store.linksOf obj)
            events :=
              (store.objectAt ptr).events.filter
                (· ∉ (store.objectAt obj).events) }
        patterns :=
          store.patterns.filter (· ∉ (store.objectAt obj).events) } := by
  have both : ∀ (subs others head : List Ptr),
      (head.filter (· ∉ subs)).filter (· ∉ others.filter (· ∉ subs)) =
        head.filter (· ∉ subs ++ others) := by
    intro subs others head
    rw [List.filter_filter]
    refine List.filter_congr fun other _ => ?_
    by_cases first : other ∈ subs
    · simp [first]
    · simp [first]
  simp only [ObjStore.dropLinks, ObjStore.dropTargets, ObjStore.dropSubscribers,
    ObjStore.ubusdEventCleanupObject, ObjStore.foldl_unlinkSubscription,
    ObjStore.foldl_ubusdDeleteEventSource, both]
  rfl

theorem Linked.dropLinks (linked : Linked young held store) (obj : Ptr) :
    Linked young held (store.dropLinks obj) :=
  ((linked.foldl_unlink _).foldl_unlink _).foldl_deleteSource _

theorem Allocated.dropLinks (allocated : Allocated store) (obj : Ptr) :
    Allocated (store.dropLinks obj) :=
  ((allocated.foldl_unlink _).foldl_unlink _).foldl_deleteSource _

theorem dropLinks_empty (store : ObjStore) (obj : Ptr) :
    ((store.dropLinks obj).objectAt obj).targetList = [] ∧
      ((store.dropLinks obj).objectAt obj).subscribers = [] ∧
        ((store.dropLinks obj).objectAt obj).events = [] := by
  rw [dropLinks_eq]
  refine ⟨?_, ?_, ?_⟩
  · exact List.filter_eq_nil_iff.mpr fun s onList => by
      simp [ObjStore.linksOf, onList]
  · exact List.filter_eq_nil_iff.mpr fun s onList => by
      simp [ObjStore.linksOf, onList]
  · exact List.filter_eq_nil_iff.mpr fun ev onList => by
      simp [onList]

/-- An object without a path is not in the path tree. -/
theorem Linked.dropPath_eq (linked : Linked young held store) (obj : Ptr) :
    store.dropPath obj = store.removePath obj := by
  rw [ObjStore.dropPath]
  split
  · rfl
  · rename_i noPath
    have absent : obj ∉ store.path := fun member =>
      noPath ((linked.registered obj).mp member).2
    have same : avlDelete obj store.path = store.path :=
      List.filter_eq_self.mpr fun other member => by
        simpa using fun isObj : other = obj => absent (isObj ▸ member)
    rw [ObjStore.removePath, same]

/-- `ubusd_free_object` leaves the structures as they should be. -/
theorem Linked.freeObject (linked : Linked young none store) {obj : Ptr}
    (live : obj ∈ store.objects) (notEvent : obj ≠ store.eventObj)
    (onlyYoung : young = none ∨ young = some obj) :
    Linked none none (store.freeObject obj) := by
  have unlinked := linked.dropLinks obj
  obtain ⟨noTargets, noSubscribers, noEvents⟩ := dropLinks_empty store obj
  have stillLive : obj ∈ (store.dropLinks obj).objects := by
    rw [dropLinks_eq]
    exact live
  have stillNotEvent : obj ≠ (store.dropLinks obj).eventObj := by
    rw [dropLinks_eq]
    exact notEvent
  have removed := unlinked.removeObject stillLive stillNotEvent onlyYoung
    noTargets noSubscribers noEvents
  rw [ObjStore.freeObject, ObjStore.dropNode, unlinked.dropPath_eq]
  cases ofType : ((store.dropLinks obj).objectAt obj).type with
  | none =>
      rw [ofType] at removed
      exact removed
  | some type =>
      rw [ofType] at removed
      exact removed.ubusUnrefObjectType

theorem Allocated.unrefType (allocated : Allocated store)
    (type : Option Ptr) : Allocated (store.unrefType type) := by
  cases type with
  | none =>
      exact allocated
  | some type =>
      exact allocated.ubusUnrefObjectType type

theorem Allocated.freeObject (allocated : Allocated store) (obj : Ptr) :
    Allocated (store.freeObject obj) := by
  have unlinked := allocated.dropLinks obj
  have dropped : Allocated ((store.dropLinks obj).dropPath obj) := by
    rw [ObjStore.dropPath]
    split
    · exact { unlinked with }
    · exact unlinked
  refine Allocated.unrefType ?_ _
  exact
    { dropped with
      objects := fun other member =>
        dropped.objects other (mem_avlDelete.mp member).1 }

/-! ## Creation -/

/-- Methods are added to a type. -/
theorem foldl_ubusCreateObjMethod (methods : List (List UInt8)) (type : Ptr)
    (linked : Linked young held store) (allocated : Allocated store) :
    let made := methods.foldl
      (fun made data => made.ubusCreateObjMethod type data) store
    Linked young held made ∧ Allocated made ∧
      made = { store with typeAt := made.typeAt } := by
  induction methods generalizing store with
  | nil =>
      exact ⟨linked, allocated, rfl⟩
  | cons data rest inductionHypothesis =>
      obtain ⟨restLinked, restAllocated, frame⟩ := inductionHypothesis
        (linked.ubusCreateObjMethod type data)
        { allocated with }
      exact ⟨restLinked, restAllocated, frame⟩

/-- A new type changes nothing but types. -/
theorem NewType.frame {typed : ObjStore} {type : Option Ptr}
    (newType : NewType store typed type)
    (linked : Linked none none store) (allocated : Allocated store) :
    Linked none type typed ∧ Allocated typed ∧
      typed =
        { store with
          objTypes := typed.objTypes
          typeAt := typed.typeAt
          allocs := typed.allocs } := by
  cases newType with
  | nothing =>
      exact ⟨linked, allocated, rfl⟩
  | known type live =>
      exact ⟨linked.refType live, { allocated with }, rfl⟩
  | made id methods =>
      obtain ⟨madeLinked, madeAllocated, frame⟩ :=
        foldl_ubusCreateObjMethod methods store.allocs
          (linked.addType allocated id) (allocated.addType id)
      refine ⟨madeLinked, madeAllocated, ?_⟩
      rw [frame]
      rfl
  | rejected id methods =>
      obtain ⟨madeLinked, madeAllocated, frame⟩ :=
        foldl_ubusCreateObjMethod methods store.allocs
          (linked.addType allocated id) (allocated.addType id)
      refine ⟨madeLinked.ubusUnrefObjectType,
        madeAllocated.ubusUnrefObjectType _, ?_⟩
      rw [frame]
      rfl

theorem Linked.unrefType {type : Option Ptr}
    (linked : Linked young type store) :
    Linked young none (store.unrefType type) := by
  cases type with
  | none =>
      exact linked
  | some type =>
      exact linked.ubusUnrefObjectType

theorem unrefType_frame (type : Option Ptr) :
    store.unrefType type =
      { store with
        objTypes := (store.unrefType type).objTypes
        typeAt := (store.unrefType type).typeAt } := by
  cases type with
  | none =>
      rfl
  | some type =>
      rfl

/-- A young object next to what there was before. -/
structure YoungObject (store made : ObjStore) (obj : Ptr) : Prop where
  linked : Linked (some obj) none made
  allocated : Allocated made
  clients : made.clients = store.clients
  clientAt : made.clientAt = store.clientAt
  eventObj : made.eventObj = store.eventObj
  subscriptionAt : made.subscriptionAt = store.subscriptionAt
  sourceAt : made.sourceAt = store.sourceAt
  path : made.path = store.path
  objects : ∀ other, other ∈ made.objects ↔ other = obj ∨ other ∈ store.objects
  fresh : obj ∉ store.objects
  others : ∀ other, other ≠ obj →
    made.objectAt other = store.objectAt other
  blank : (made.objectAt obj).path = none ∧
    (made.objectAt obj).targetList = [] ∧
      (made.objectAt obj).subscribers = [] ∧ (made.objectAt obj).events = []

theorem Young.youngObject {made : ObjStore} {obj : Ptr}
    (young : Young store made obj) (linked : Linked none none store)
    (allocated : Allocated store) : YoungObject store made obj := by
  obtain ⟨typed, type, id, newType, free⟩ := young
  obtain ⟨typedLinked, typedAllocated, frame⟩ :=
    newType.frame linked allocated
  have addedLinked := typedLinked.addObject typedAllocated free
  have addedAllocated := typedAllocated.addObject id type
  have objects : typed.objects = store.objects := by rw [frame]
  have objectAt : typed.objectAt = store.objectAt := by rw [frame]
  have fresh : typed.allocs ∉ store.objects := by
    rw [← objects]
    exact fun member => Nat.lt_irrefl _ (typedAllocated.objects _ member)
  have own : ((typed.addObject id type).unrefType type).objectAt typed.allocs =
      ⟨id, [], [], [], type, none, none, false⟩ := by
    rw [unrefType_frame]
    exact Function.update_self ..
  exact
    { linked := addedLinked.unrefType
      allocated := addedAllocated.unrefType type
      clients := by
        rw [unrefType_frame, frame]
        rfl
      clientAt := by
        rw [unrefType_frame, frame]
        rfl
      eventObj := by
        rw [unrefType_frame, frame]
        rfl
      subscriptionAt := by
        rw [unrefType_frame, frame]
        rfl
      sourceAt := by
        rw [unrefType_frame, frame]
        rfl
      path := by
        rw [unrefType_frame, frame]
        rfl
      objects := fun other => by
        rw [unrefType_frame, ← objects]
        exact mem_avlInsertDup
      fresh := fresh
      others := fun other different => by
        rw [unrefType_frame, ← objectAt]
        exact Function.update_of_ne different _ _
      blank := by
        rw [own]
        exact ⟨rfl, rfl, rfl, rfl⟩ }

theorem YoungObject.live {made : ObjStore} {obj : Ptr}
    (facts : YoungObject store made obj) : obj ∈ made.objects :=
  (facts.objects obj).mpr (Or.inl rfl)

theorem YoungObject.ne_eventObj {made : ObjStore} {obj : Ptr}
    (facts : YoungObject store made obj)
    (linked : Linked young held store) : obj ≠ made.eventObj := by
  intro same
  rw [facts.eventObj] at same
  exact facts.fresh (same ▸ linked.eventObj)

/-! ## Whole runs -/

theorem Allocated.setOwner (allocated : Allocated store) (obj cl : Ptr) :
    Allocated (store.setOwner obj cl) :=
  { allocated with
    subscriptions := fun ptr s onList => by
      have old : s ∈ (store.objectAt ptr).targetList := by
        simpa [ObjStore.setOwner] using onList
      exact allocated.subscriptions ptr s old }

theorem Allocated.insertPath (allocated : Allocated store) {obj : Ptr}
    {key : List UInt8} {next : ObjStore}
    (inserted : store.insertPath obj key = some next) : Allocated next := by
  obtain ⟨tree, same, _⟩ := insertPath_some inserted
  rw [same]
  exact
    { allocated with
      subscriptions := fun ptr s onList => by
        have old : s ∈ (store.objectAt ptr).targetList := by
          simpa [ObjStore.addPath] using onList
        exact allocated.subscriptions ptr s old }

/-- An object with a client is not `event_obj`. -/
theorem Linked.ne_eventObj (linked : Linked young held store) {obj cl : Ptr}
    (live : obj ∈ store.objects)
    (own : (store.objectAt obj).client = some cl) : obj ≠ store.eventObj := by
  intro isEvent
  have free := (linked.unowned obj live).mpr (Or.inl isEvent)
  rw [own] at free
  exact Option.some_ne_none cl free

theorem LinkMove.linked {cl : Ptr} {watched : Ptr → Prop} {next : ObjStore}
    (move : LinkMove cl watched store next) (linked : Linked none none store)
    (allocated : Allocated store) :
    Linked none none next ∧ Allocated next := by
  cases move with
  | keep =>
      exact ⟨linked, allocated⟩
  | removed obj live own =>
      exact ⟨linked.freeObject live (linked.ne_eventObj live own) (Or.inl rfl),
        allocated.freeObject obj⟩
  | subscribed obj target live own targetLive _ =>
      have hasClient : (store.objectAt obj).client ≠ none := by
        rw [own]
        exact Option.some_ne_none cl
      exact ⟨linked.addSubscription allocated live targetLive hasClient,
        allocated.addSubscription obj target⟩
  | unsubscribed obj s live own onList =>
      exact ⟨linked.unlinkSubscription s, allocated.unlinkSubscription s⟩
  | registered obj key isPartial live own =>
      have hasClient : (store.objectAt obj).client ≠ none := by
        rw [own]
        exact Option.some_ne_none cl
      exact ⟨linked.addSource allocated live hasClient key isPartial,
        allocated.addSource obj key isPartial⟩

theorem MakeMove.linked {cl : Ptr} {next : ObjStore}
    (move : MakeMove cl store next) (connected : cl ∈ store.clients)
    (linked : Linked none none store) (allocated : Allocated store) :
    Linked none none next ∧ Allocated next := by
  cases move with
  | abandoned typed type newType =>
      obtain ⟨typedLinked, typedAllocated, _⟩ := newType.frame linked allocated
      exact ⟨typedLinked.unrefType, typedAllocated.unrefType type⟩
  | discarded made obj young =>
      have facts := young.youngObject linked allocated
      exact ⟨facts.linked.freeObject facts.live (facts.ne_eventObj linked)
        (Or.inr rfl), facts.allocated.freeObject obj⟩
  | created made obj young =>
      have facts := young.youngObject linked allocated
      exact ⟨facts.linked.setOwner facts.live (facts.ne_eventObj linked)
        (facts.clients ▸ connected), facts.allocated.setOwner obj cl⟩
  | createdAt made placed obj key young inserted =>
      have facts := young.youngObject linked allocated
      have placedLinked :=
        facts.linked.insertPath facts.live facts.blank.1 inserted
      have placedAllocated := facts.allocated.insertPath inserted
      have isNew := facts.ne_eventObj linked
      obtain ⟨tree, same, _⟩ := insertPath_some inserted
      rw [same] at placedLinked placedAllocated ⊢
      exact ⟨placedLinked.setOwner facts.live isNew
        (facts.clients ▸ connected), placedAllocated.setOwner obj cl⟩

/-- What a message does keeps the relations. -/
theorem StoreMove.linked {cl : Ptr} {watched : Ptr → Prop} {next : ObjStore}
    (move : StoreMove cl watched store next) (connected : cl ∈ store.clients)
    (linked : Linked none none store) (allocated : Allocated store) :
    Linked none none next ∧ Allocated next := by
  cases move with
  | link move =>
      exact move.linked linked allocated
  | make move =>
      exact move.linked connected linked allocated

/-! ## Disconnecting -/

/-- What `ubusd_free_object` leaves, apart from the types. -/
theorem freeObject_eq (store : ObjStore) (obj : Ptr) :
    store.freeObject obj =
      { store.dropLinks obj with
        objects := avlDelete obj store.objects
        path := ((store.dropLinks obj).dropPath obj).path
        clientAt := fun cl =>
          { store.clientAt cl with
            objects := listDel obj (store.clientAt cl).objects }
        objTypes := (store.freeObject obj).objTypes
        typeAt := (store.freeObject obj).typeAt } := by
  have path : (store.dropLinks obj).dropPath obj =
      { store.dropLinks obj with
        path := ((store.dropLinks obj).dropPath obj).path } := by
    rw [ObjStore.dropPath]
    split
    · rfl
    · rfl
  rw [ObjStore.freeObject, ObjStore.dropNode, unrefType_frame]
  dsimp only
  rw [path, ObjStore.unlinkObject, ObjStore.removeObject]
  dsimp only
  rw [dropLinks_eq]

theorem client_freeObject (store : ObjStore) (obj ptr : Ptr) :
    ((store.freeObject obj).objectAt ptr).client =
      (store.objectAt ptr).client := by
  rw [freeObject_eq, dropLinks_eq]

/-- An object without links is freed. -/
theorem objectAt_freeObject_blank {made : ObjStore} {obj : Ptr}
    (facts : YoungObject store made obj) :
    (made.freeObject obj).objectAt = made.objectAt := by
  obtain ⟨_, noTargets, noSubscribers, noEvents⟩ := facts.blank
  rw [freeObject_eq, dropLinks_eq]
  funext ptr
  simp [ObjStore.linksOf, noTargets, noSubscribers, noEvents]

/-- What was there is as it was. -/
structure Grown (store next : ObjStore) : Prop where
  objects : ∀ obj ∈ store.objects, obj ∈ next.objects
  objectAt : ∀ obj ∈ store.objects, next.objectAt obj = store.objectAt obj
  subscriptionAt : next.subscriptionAt = store.subscriptionAt
  sourceAt : next.sourceAt = store.sourceAt
  eventObj : next.eventObj = store.eventObj

theorem YoungObject.grown {made next : ObjStore} {obj : Ptr}
    (facts : YoungObject store made obj)
    (objects : ∀ other ∈ made.objects, other ≠ obj → other ∈ next.objects)
    (objectAt : ∀ other, other ≠ obj →
      next.objectAt other = made.objectAt other)
    (subscriptionAt : next.subscriptionAt = made.subscriptionAt)
    (sourceAt : next.sourceAt = made.sourceAt)
    (eventObj : next.eventObj = made.eventObj) : Grown store next := by
  have old : ∀ other ∈ store.objects, other ≠ obj :=
    fun other live same => facts.fresh (same ▸ live)
  exact
    { objects := fun other live =>
        objects other ((facts.objects other).mpr (Or.inr live)) (old other live)
      objectAt := fun other live => by
        rw [objectAt other (old other live), facts.others other (old other live)]
      subscriptionAt := subscriptionAt.trans facts.subscriptionAt
      sourceAt := sourceAt.trans facts.sourceAt
      eventObj := eventObj.trans facts.eventObj }

/-- Making an object, or failing to, changes nothing that is there. -/
theorem MakeMove.grown {cl : Ptr} {next : ObjStore}
    (move : MakeMove cl store next) (linked : Linked none none store)
    (allocated : Allocated store) : Grown store next := by
  cases move with
  | abandoned typed type newType =>
      obtain ⟨_, _, frame⟩ := newType.frame linked allocated
      rw [unrefType_frame, frame]
      exact
        { objects := fun _ live => live
          objectAt := fun _ _ => rfl
          subscriptionAt := rfl
          sourceAt := rfl
          eventObj := rfl }
  | discarded made obj young =>
      have facts := young.youngObject linked allocated
      refine facts.grown ?_ ?_ ?_ ?_ ?_
      · intro other live different
        rw [freeObject_eq]
        exact mem_avlDelete.mpr ⟨live, different⟩
      · intro other _
        rw [objectAt_freeObject_blank facts]
      · rw [freeObject_eq, dropLinks_eq]
      · rw [freeObject_eq, dropLinks_eq]
      · rw [freeObject_eq, dropLinks_eq]
  | created made obj young =>
      have facts := young.youngObject linked allocated
      exact facts.grown (fun _ live _ => live)
        (fun other different => Function.update_of_ne different _ _)
        rfl rfl rfl
  | createdAt made placed obj key young inserted =>
      have facts := young.youngObject linked allocated
      obtain ⟨tree, same, _⟩ := insertPath_some inserted
      rw [same]
      refine facts.grown (fun _ live _ => live) ?_ rfl rfl rfl
      intro other different
      rw [ObjStore.setOwner, ObjStore.addPath]
      dsimp only
      rw [ObjStore.objectAt_modifyObject, Function.update_of_ne different]
      exact Function.update_of_ne different _ _

/-- Objects of one client are freed one after the other. -/
structure FreedObjects (objs : List Ptr) (store next : ObjStore) : Prop where
  linked : Linked none none next
  allocated : Allocated next
  clients : next.clients = store.clients
  eventObj : next.eventObj = store.eventObj
  objects : ∀ obj, obj ∈ next.objects ↔ obj ∈ store.objects ∧ obj ∉ objs
  lists : ∀ cl obj, obj ∈ (next.clientAt cl).objects ↔
    obj ∈ (store.clientAt cl).objects ∧ obj ∉ objs

/-- The objects that are still to be freed. -/
theorem freeable_freeObject {obj : Ptr} {rest : List Ptr}
    (notInRest : obj ∉ rest) (all : ∀ other ∈ obj :: rest,
      other ∈ store.objects ∧ other ≠ store.eventObj) :
    ∀ other ∈ rest, other ∈ (store.freeObject obj).objects ∧
      other ≠ (store.freeObject obj).eventObj := by
  intro other member
  obtain ⟨otherLive, otherNotEvent⟩ :=
    all other (List.mem_cons_of_mem obj member)
  rw [freeObject_eq, dropLinks_eq]
  exact ⟨mem_avlDelete.mpr ⟨otherLive, fun same => notInRest (same ▸ member)⟩,
    otherNotEvent⟩

theorem freedObjects (objs : List Ptr) (once : objs.Nodup)
    (linked : Linked none none store) (allocated : Allocated store)
    (all : ∀ obj ∈ objs, obj ∈ store.objects ∧ obj ≠ store.eventObj) :
    FreedObjects objs store (objs.foldl ObjStore.freeObject store) := by
  induction objs generalizing store with
  | nil =>
      exact
        { linked := linked
          allocated := allocated
          clients := rfl
          eventObj := rfl
          objects := by simp
          lists := by simp }
  | cons obj rest inductionHypothesis =>
      obtain ⟨notInRest, restOnce⟩ := List.nodup_cons.mp once
      obtain ⟨live, notEvent⟩ := all obj List.mem_cons_self
      have objects : (store.freeObject obj).objects =
          avlDelete obj store.objects := by rw [freeObject_eq]
      have eventObj : (store.freeObject obj).eventObj = store.eventObj := by
        rw [freeObject_eq, dropLinks_eq]
      have clients : (store.freeObject obj).clients = store.clients := by
        rw [freeObject_eq, dropLinks_eq]
      have lists : ∀ cl, ((store.freeObject obj).clientAt cl).objects =
          listDel obj (store.clientAt cl).objects := fun cl => by
        rw [freeObject_eq]
      have freed := inductionHypothesis restOnce
        (linked.freeObject live notEvent (Or.inl rfl))
        (allocated.freeObject obj) (freeable_freeObject notInRest all)
      exact
        { linked := freed.linked
          allocated := freed.allocated
          clients := freed.clients.trans clients
          eventObj := freed.eventObj.trans eventObj
          objects := fun other => by
            refine (freed.objects other).trans ?_
            rw [objects, mem_avlDelete, List.mem_cons]
            tauto
          lists := fun cl other => by
            refine (freed.lists cl other).trans ?_
            rw [lists, mem_listDel, List.mem_cons]
            tauto }

/-- `ubusd_proto_free_client`. -/
def ObjStore.freeClient (store : ObjStore) (cl : Ptr) : ObjStore :=
  ((store.clientAt cl).objects.foldl ObjStore.freeObject store).removeClient cl

theorem store_ubusdProtoFreeClient (bus : Bus) (cl : Ptr) :
    (bus.ubusdProtoFreeClient cl).store = bus.store.freeClient cl := by
  have freed := bus.store_foldl Bus.store_ubusdFreeObject
    (bus.store.clientAt cl).objects
  rw [Bus.ubusdProtoFreeClient, ObjStore.freeClient, ← freed]

theorem Linked.freeable (linked : Linked none none store) (cl : Ptr) :
    ∀ obj ∈ (store.clientAt cl).objects,
      obj ∈ store.objects ∧ obj ≠ store.eventObj := by
  intro obj onList
  obtain ⟨live, own⟩ := (linked.owners.listed cl obj).mp onList
  exact ⟨live, linked.ne_eventObj live own⟩

theorem Linked.freedClient (linked : Linked none none store)
    (allocated : Allocated store) (cl : Ptr) :
    FreedObjects (store.clientAt cl).objects store
      ((store.clientAt cl).objects.foldl ObjStore.freeObject store) :=
  freedObjects _ (linked.owners.once cl) linked allocated (linked.freeable cl)

theorem Linked.freeClient (linked : Linked none none store)
    (allocated : Allocated store) (cl : Ptr) :
    Linked none none (store.freeClient cl) ∧
      Allocated (store.freeClient cl) := by
  have freed := linked.freedClient allocated cl
  refine ⟨freed.linked.removeClient ?_, freed.allocated.removeClient cl⟩
  refine List.eq_nil_iff_forall_not_mem.mpr fun obj onList => ?_
  obtain ⟨wasOnList, notFreed⟩ := (freed.lists cl obj).mp onList
  exact notFreed wasOnList

/-! ## Runs of ubusd -/

theorem step_some {bus next : Bus} {action : BusAction}
    (taken : ubusd.step bus action = some next) :
    bus.fault = none ∧ action.enabled bus.store = true ∧
      next = bus.act action := by
  obtain ⟨condition, same⟩ := Option.ite_none_right_eq_some.mp taken
  obtain ⟨running, enabled⟩ := Bool.and_eq_true_iff.mp condition
  exact ⟨Option.isNone_iff_eq_none.mp running, enabled,
    (Option.some.inj same).symm⟩

/-- A connection adds a client, or nothing if no identifier is to be had. -/
theorem store_connect (bus : Bus) (urandom : List UInt32) :
    (bus.act (.connect urandom)).store = bus.store ∨
      ∃ id, (bus.act (.connect urandom)).store = bus.store.addClient id := by
  rw [Bus.act, Bus.ubusdProtoNewClient]
  split
  · exact Or.inl rfl
  · rename_i id rest _
    exact Or.inr ⟨id, Bus.store_ubusMsgSend ..⟩

/-- What all states of ubusd have in common. -/
structure BusInv (bus : Bus) : Prop where
  linked : Linked none none bus.store
  allocated : Allocated bus.store

/-- The blank object at every address, and `event_obj` at the first. -/
theorem objectAt_init (ptr : Ptr) :
    (ubusd.init.store.objectAt ptr).targetList = [] ∧
      (ubusd.init.store.objectAt ptr).subscribers = [] ∧
        (ubusd.init.store.objectAt ptr).events = [] ∧
          (ubusd.init.store.objectAt ptr).path = none ∧
            (ubusd.init.store.objectAt ptr).client = none ∧
              (ubusd.init.store.objectAt ptr).type = none := by
  by_cases event : ptr = 0
  · rw [event]
    decide
  · have blank : ubusd.init.store.objectAt ptr =
        ⟨0, [], [], [], none, none, none, false⟩ := by
      have first : ubusd.init.store.objectAt ptr =
          (Bus.blank.store.addObject ubusSystemObjectEvent none).objectAt
            ptr := Function.update_of_ne event _ _
      rw [first]
      exact Function.update_of_ne event _ _
    rw [blank]
    exact ⟨rfl, rfl, rfl, rfl, rfl, rfl⟩

theorem busInv_init : BusInv ubusd.init where
  linked :=
    { eventObj := by decide
      owners :=
        { listed := fun cl obj => by
            refine iff_of_false List.not_mem_nil fun own => ?_
            rw [(objectAt_init obj).2.2.2.2.1] at own
            exact Option.some_ne_none cl own.2.symm
          once := fun _ => List.nodup_nil }
      connected := fun obj _ cl own => by
        rw [(objectAt_init obj).2.2.2.2.1] at own
        exact absurd own (Option.some_ne_none cl).symm
      unowned := fun obj member => by
        have isEvent : obj = ubusd.init.store.eventObj :=
          List.mem_singleton.mp member
        exact iff_of_true (objectAt_init obj).2.2.2.2.1 (Or.inl isEvent)
      subscriptions :=
        { atSource := fun obj s onList => by
            rw [(objectAt_init obj).1] at onList
            exact absurd onList List.not_mem_nil
          atTarget := fun obj s onList => by
            rw [(objectAt_init obj).2.1] at onList
            exact absurd onList List.not_mem_nil }
      sources :=
        { listed := fun obj ev => by
            rw [(objectAt_init obj).2.2.1]
            exact iff_of_false List.not_mem_nil
              fun own => absurd own.1 List.not_mem_nil
          once := fun obj => by
            rw [(objectAt_init obj).2.2.1]
            exact List.nodup_nil }
      sourceLive := fun ev inTree => absurd inTree List.not_mem_nil
      quiet := fun obj _ _ =>
        ⟨(objectAt_init obj).1, (objectAt_init obj).2.2.1⟩
      registered := fun obj => by
        rw [(objectAt_init obj).2.2.2.1]
        exact iff_of_false List.not_mem_nil
          fun own => Bool.false_ne_true own.2
      different := List.Pairwise.nil
      types :=
        { counted := fun _ live => absurd live List.not_mem_nil
          used := fun _ live => absurd live List.not_mem_nil
          known := fun name positive => by
            have none : references ubusd.init.store.objects
                (fun obj => (ubusd.init.store.objectAt obj).type) none
                name = 0 := by
              simp [references, (objectAt_init _).2.2.2.2.2]
            rw [none] at positive
            exact absurd positive (Nat.lt_irrefl 0) }
      once := by decide
      objectIds := fun obj member other otherMember _ => by
        rw [List.mem_singleton.mp member, List.mem_singleton.mp otherMember] }
  allocated :=
    { clients := fun _ member => absurd member List.not_mem_nil
      objTypes := fun _ member => absurd member List.not_mem_nil
      objects := fun obj member => by
        rw [List.mem_singleton.mp member]
        exact Nat.one_pos
      patterns := fun _ member => absurd member List.not_mem_nil
      subscriptions := fun obj s onList => by
        rw [(objectAt_init obj).1] at onList
        exact absurd onList List.not_mem_nil }

theorem busInv_step (bus : Bus) (action : BusAction) (next : Bus)
    (holds : BusInv bus) (taken : ubusd.step bus action = some next) :
    BusInv next := by
  obtain ⟨linked, allocated⟩ := holds
  obtain ⟨_, enabled, same⟩ := step_some taken
  rw [same]
  cases action with
  | connect urandom =>
      rcases store_connect bus urandom with keep | ⟨id, added⟩
      · exact ⟨keep ▸ linked, keep ▸ allocated⟩
      · exact ⟨added ▸ linked.addClient allocated id,
          added ▸ allocated.addClient id⟩
  | receive cl ub urandom =>
      simp only [BusAction.enabled, Bool.and_eq_true,
        List.contains_iff_mem] at enabled
      obtain ⟨nextLinked, nextAllocated⟩ :=
        (Bus.receive_move { bus with urandom := urandom, sent := [] } cl
          ub).linked enabled.1.1 linked allocated
      exact ⟨nextLinked, nextAllocated⟩
  | disconnect cl =>
      have freed : (bus.act (.disconnect cl)).store =
          bus.store.freeClient cl :=
        store_ubusdProtoFreeClient { bus with sent := [] } cl
      obtain ⟨nextLinked, nextAllocated⟩ := linked.freeClient allocated cl
      exact ⟨freed ▸ nextLinked, freed ▸ nextAllocated⟩

theorem busInv_run {actions : List BusAction} {final : Bus}
    (reached : ubusd.run actions = some final) : BusInv final :=
  Machine.invariant_of_step busInv_init busInv_step reached

/-! ## The result -/

/-- The five relations between the structures. -/
structure Consistent (store : ObjStore) : Prop where
  /-- An object has a connected client and is on its list, once, and on no
  other. -/
  owned : ∀ obj ∈ store.objects, obj ≠ store.eventObj →
    ∃ cl ∈ store.clients, (store.objectAt obj).client = some cl ∧
      (store.clientAt cl).objects.count obj = 1 ∧
        ∀ other, obj ∈ (store.clientAt other).objects → other = cl
  /-- A subscription is on the list of its target if and only if it is on that
  of its subscriber. -/
  subscribed : ∀ s,
    s ∈ (store.objectAt (store.subscriptionAt s).target).subscribers ↔
      s ∈ (store.objectAt (store.subscriptionAt s).subscriber).targetList
  /-- It is on no other list, and both objects are live. -/
  subscription : ∀ obj s,
    s ∈ (store.objectAt obj).subscribers ∨
        s ∈ (store.objectAt obj).targetList →
      (store.subscriptionAt s).subscriber ∈ store.objects ∧
        (store.subscriptionAt s).target ∈ store.objects ∧
          (s ∈ (store.objectAt obj).subscribers →
            obj = (store.subscriptionAt s).target) ∧
          (s ∈ (store.objectAt obj).targetList →
            obj = (store.subscriptionAt s).subscriber)
  /-- The path tree holds the live objects that have a path. -/
  registered : ∀ obj, obj ∈ store.path ↔
    obj ∈ store.objects ∧ (store.objectAt obj).path.isSome
  different : store.path.Pairwise fun obj other =>
    (store.objectAt obj).path ≠ (store.objectAt other).path
  /-- The event sources are those on the lists of live objects. -/
  sources : ∀ ev, ev ∈ store.patterns ↔
    ∃ obj ∈ store.objects, ev ∈ (store.objectAt obj).events
  /-- A reference count is the number of live objects of the type. -/
  refcounts : ∀ type ∈ store.objTypes, (store.typeAt type).refcount =
    store.objects.countP fun obj => (store.objectAt obj).type = some type
  /-- The types are those of live objects. -/
  types : ∀ type, type ∈ store.objTypes ↔
    0 < store.objects.countP fun obj => (store.objectAt obj).type = some type

/-- Nothing of a client is left: it is not in the tree, and of the objects that
were its own none is live, has a path, subscribes, is subscribed to or waits
for events. -/
structure Gone (cl : Ptr) (before store : ObjStore) : Prop where
  client : cl ∉ store.clients
  objects : ∀ obj ∈ store.objects, (store.objectAt obj).client ≠ some cl
  own : ∀ obj ∈ before.objects, (before.objectAt obj).client = some cl →
    obj ∉ store.objects ∧ obj ∉ store.path ∧
      (store.objectAt obj).targetList = [] ∧
        (store.objectAt obj).subscribers = [] ∧
          (∀ other s, s ∈ (store.objectAt other).targetList ∨
              s ∈ (store.objectAt other).subscribers →
            (store.subscriptionAt s).subscriber ≠ obj ∧
              (store.subscriptionAt s).target ≠ obj) ∧
            ∀ ev ∈ store.patterns, (store.sourceAt ev).obj ≠ obj

theorem Linked.consistent (linked : Linked none none store) :
    Consistent store where
  owned obj live notEvent := by
    cases own : (store.objectAt obj).client with
    | none =>
        rcases (linked.unowned obj live).mp own with isEvent | isYoung
        · exact absurd isEvent notEvent
        · exact absurd isYoung (Option.some_ne_none obj).symm
    | some cl =>
        refine ⟨cl, linked.connected obj live cl own, rfl, ?_, ?_⟩
        · exact List.count_eq_one_of_mem (linked.owners.once cl)
            ((linked.owners.listed cl obj).mpr ⟨live, own⟩)
        · intro other onList
          have isOwner := ((linked.owners.listed other obj).mp onList).2
          rw [own] at isOwner
          exact (Option.some.inj isOwner).symm
  subscribed s :=
    ⟨fun onList => (linked.subscriptions.atTarget _ s onList).2.2.2,
      fun onList => (linked.subscriptions.atSource _ s onList).2.2.2⟩
  subscription obj s onList := by
    have atTarget : s ∈ (store.objectAt obj).subscribers →
        obj = (store.subscriptionAt s).target :=
      fun listed => (linked.subscriptions.atTarget obj s listed).1.symm
    have atSource : s ∈ (store.objectAt obj).targetList →
        obj = (store.subscriptionAt s).subscriber :=
      fun listed => (linked.subscriptions.atSource obj s listed).1.symm
    rcases onList with listed | listed
    · obtain ⟨own, live, otherLive, _⟩ :=
        linked.subscriptions.atTarget obj s listed
      exact ⟨otherLive, own ▸ live, atTarget, atSource⟩
    · obtain ⟨own, live, otherLive, _⟩ :=
        linked.subscriptions.atSource obj s listed
      exact ⟨own ▸ live, otherLive, atTarget, atSource⟩
  registered := linked.registered
  different := linked.different
  sources ev := by
    constructor
    · intro inTree
      exact ⟨_, linked.sourceLive ev inTree,
        (linked.sources.listed _ ev).mpr ⟨inTree, rfl⟩⟩
    · rintro ⟨obj, _, onList⟩
      exact ((linked.sources.listed obj ev).mp onList).1
  refcounts type live := by
    rw [linked.types.counted type live]
    rfl
  types type := by
    constructor
    · intro live
      have positive := linked.types.used type live
      rw [linked.types.counted type live] at positive
      exact positive
    · exact linked.types.known type

/-- In every state that ubusd reaches the structures are consistent, and of a
client that disconnects nothing is left. -/
theorem ubusd_consistent {actions : List BusAction} {final : Bus}
    (reached : ubusd.run actions = some final) :
    Consistent final.store ∧
      ∀ cl next, ubusd.step final (.disconnect cl) = some next →
        Consistent next.store ∧ Gone cl final.store next.store := by
  have holds := busInv_run reached
  refine ⟨holds.linked.consistent, fun cl next taken => ?_⟩
  have after := (busInv_step final _ next holds taken).linked
  refine ⟨after.consistent, ?_⟩
  have same := (step_some taken).2.2
  have store : next.store = final.store.freeClient cl := by
    rw [same]
    exact store_ubusdProtoFreeClient { final with sent := [] } cl
  have freed := holds.linked.freedClient holds.allocated cl
  have notClient : cl ∉ next.store.clients := by
    rw [store]
    exact fun member => (mem_avlDelete.mp member).2 rfl
  refine ⟨notClient, fun obj live own =>
    notClient (after.connected obj live cl own), fun obj live own => ?_⟩
  have notLive : obj ∉ next.store.objects := by
    rw [store]
    intro member
    have kept := (freed.objects obj).mp member
    exact kept.2 ((holds.linked.owners.listed cl obj).mpr ⟨live, own⟩)
  refine ⟨notLive, fun inTree => notLive ((after.registered obj).mp inTree).1,
    ?_, ?_, fun other s onList => ?_, fun ev inTree isObj => ?_⟩
  · exact List.eq_nil_iff_forall_not_mem.mpr fun s onList =>
      notLive (after.subscriptions.atSource obj s onList).2.1
  · exact List.eq_nil_iff_forall_not_mem.mpr fun s onList =>
      notLive (after.subscriptions.atTarget obj s onList).2.1
  · obtain ⟨subscriber, target, _⟩ :=
      after.consistent.subscription other s onList.symm
    exact ⟨fun isObj => notLive (isObj ▸ subscriber),
      fun isObj => notLive (isObj ▸ target)⟩
  · exact notLive (isObj ▸ after.sourceLive ev inTree)

/-- A client connects and adds an object with the path `a`. -/
def objectRun : List BusAction :=
  [.connect [5000],
    .receive 1
      ⟨⟨0, UbusMsgType.addObject.code, 1, 0⟩,
        [0, 0, 0, 12, 2, 0, 0, 6, 97, 0, 0, 0]⟩ [6000]]

theorem ubusd_consistent_leaving :
    ∃ final, ubusd.run objectRun = some final ∧
      Consistent final.store ∧
      ∀ cl next, ubusd.step final (.disconnect cl) = some next →
        Consistent next.store ∧ Gone cl final.store next.store :=
  ⟨_, rfl, @ubusd_consistent objectRun _ rfl⟩

end LibubusJni.Ubusd
